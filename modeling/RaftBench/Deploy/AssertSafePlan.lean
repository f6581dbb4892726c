import Mathlib.Data.List.Infix
import RaftBench.Lib.JsonWriter

/-!
# The plan check before an unattended apply

`assert-safe-plan.py` reads the JSON of a terraform plan on stdin and refuses it when something
would be destroyed.  The document is not checked against a schema: a field that is missing is read
as empty, by the default its `get` has, and what is found under a name is used as it is, whatever
its type.  Only what cannot be used so raises.

* `main` — the script, from the bytes on stdin to what it prints and its exit status.
* `Passes` — the documents in which no deletion is found.
* `refuses_unless_passes` — what the check guarantees, on every input.
* `written_let_through_iff` — every plan has a text, and on that text the check is exact.

The bytes are decoded as UTF-8, strictly.  Line ends are translated before, which no JSON text can
tell: all of them are blanks, and none may stand in a string.
-/

namespace RaftBench.Deploy

open JsonDecoder

/-! ## Operations on values -/

inductive PyError where
  | unicodeDecode
  | json (e : Error)
  | attribute
  | type
  | unicodeEncode
  deriving DecidableEq, Repr

/-- `d.get(key, default)`, which only dictionaries have. -/
def get (key : String) (default : Value) : Value → Except PyError Value
  | .dict fields => .ok ((fields.lookup (text key)).getD default)
  | _ => .error .attribute

/-- `for x in v`. -/
def iter : Value → Except PyError (List Value)
  | .list items => .ok items
  | .str s => .ok (s.map fun c => .str [c])
  | .dict fields => .ok (fields.map fun e => .str e.1)
  | _ => .error .type

def isStr (word : List CodePoint) : Value → Bool
  | .str s => s = word
  | _ => false

/-- `word in v`: an item of a list, a part of a string, a key of a dictionary. -/
def contains (word : String) : Value → Except PyError Bool
  | .list items => .ok (items.any (isStr (text word)))
  | .str s => .ok (decide (text word <:+: s))
  | .dict fields => .ok (fields.lookup (text word)).isSome
  | _ => .error .type

/-! ## The script -/

/-- `created`, `updated` and `destroyed`, the last one with its actions. -/
structure Changes where
  created : List Value
  updated : List Value
  destroyed : List (Value × Value)

/-- One turn of the loop over the changes. -/
def sortChange (c : Changes) (change : Value) : Except PyError Changes := do
  let actions ← get "actions" (.list []) (← get "change" (.dict []) change)
  let addr ← get "address" (.str (text "?")) change
  if ← contains "delete" actions then
    return { c with destroyed := c.destroyed ++ [(addr, actions)] }
  else if ← contains "create" actions then
    return { c with created := c.created ++ [addr] }
  else if ← contains "update" actions then
    return { c with updated := c.updated ++ [addr] }
  else return c

def sortChanges (plan : Value) : Except PyError Changes := do
  let changes ← iter (← get "resource_changes" (.list []) plan)
  changes.foldlM sortChange ⟨[], [], []⟩

/-- A line on stdout. -/
inductive Line where
  | create (addr : Value)
  | update (addr : Value)
  | replace (addr : Value)
  | destroy (addr : Value)
  | ok (toAdd toChange toDestroy : ℕ)

def Line.isOk : Line → Bool
  | .ok _ _ _ => true
  | _ => false

/-- The line of something destroyed.  Its actions have been searched before, so that this cannot
raise. -/
def destroyedLine (e : Value × Value) : Line :=
  match contains "create" e.2 with
  | .ok true => .replace e.1
  | _ => .destroy e.1

def Changes.lines (c : Changes) : List Line :=
  c.created.map .create ++ c.updated.map .update ++ c.destroyed.map destroyedLine

/-- An address that UTF-8 can encode: no string with a surrogate in it.  Other values are printed
by their `repr`, where a surrogate is escaped. -/
def encodable : Value → Bool
  | .str s => s.all fun c => ¬ IsHighSurrogate c ∧ ¬ IsLowSurrogate c
  | _ => true

def Line.encodable : Line → Bool
  | .create addr => Deploy.encodable addr
  | .update addr => Deploy.encodable addr
  | .replace addr => Deploy.encodable addr
  | .destroy addr => Deploy.encodable addr
  | .ok _ _ _ => true

/-- A message on stderr. -/
inductive Message where
  | couldNotParse
  | refusing (n : ℕ)
  | traceback (e : PyError)

structure Outcome where
  stdout : List Line
  stderr : List Message
  status : ℕ

/-- The exit of the interpreter on an exception that is not caught. -/
def uncaught (printed : List Line) (e : PyError) : Outcome := ⟨printed, [.traceback e], 1⟩

/-- `json.load(sys.stdin)`. -/
def load (limits : Limits) (stdin : ByteArray) : Except PyError Value :=
  match stdin.utf8Decode? with
  | none => .error .unicodeDecode
  | some s =>
    match loads limits s.toList with
    | .error e => .error (.json e)
    | .ok v => .ok v

/-- The part behind the loop: what is printed, and how the script exits. -/
def report (argv : List String) (c : Changes) : Outcome :=
  if c.lines.all Line.encodable then
    if c.destroyed ≠ [] ∧ "--allow-destroy" ∉ argv then
      ⟨c.lines, [.refusing c.destroyed.length], 1⟩
    else ⟨c.lines ++ [.ok c.created.length c.updated.length c.destroyed.length], [], 0⟩
  else uncaught (c.lines.takeWhile Line.encodable) .unicodeEncode

/-- The script. -/
def main (limits : Limits) (argv : List String) (stdin : ByteArray) : Outcome :=
  match load limits stdin with
  | .error (.json .jsonDecode) => ⟨[], [.couldNotParse], 2⟩
  | .error e => uncaught [] e
  | .ok plan =>
    match sortChanges plan with
    | .error e => uncaught [] e
    | .ok c => report argv c

/-! ## What is let through -/

/-- No deletion is found in the actions. -/
def NoDelete : Value → Prop
  | .list items => Value.str (text "delete") ∉ items
  | .str s => ¬ text "delete" <:+: s
  | .dict fields => fields.lookup (text "delete") = none
  | _ => False

/-- An entry of `resource_changes` in which no deletion is found. -/
def EntryPasses (e : Value) : Prop :=
  ∃ entry, e = .dict entry ∧ ∀ v ∈ entry.lookup (text "change"),
    ∃ change, v = .dict change ∧ ∀ actions ∈ change.lookup (text "actions"), NoDelete actions

/-- A document in which no deletion is found; what is missing is read as empty. -/
def Passes (plan : Value) : Prop :=
  ∃ fields, plan = .dict fields ∧ ∀ v ∈ fields.lookup (text "resource_changes"),
    v = .str [] ∨ v = .dict [] ∨ ∃ entries, v = .list entries ∧ ∀ e ∈ entries, EntryPasses e

lemma bind_eq_ok {ε α β : Type} {x : Except ε α} {f : α → Except ε β} {b : β} :
    x >>= f = .ok b ↔ ∃ a, x = .ok a ∧ f a = .ok b := by
  cases x with
  | error e => exact ⟨nofun, fun h => nomatch h.choose_spec.1⟩
  | ok a => exact ⟨fun h => ⟨a, rfl, h⟩, fun ⟨_, ha, h⟩ => by cases ha; exact h⟩

lemma get_eq_ok {key : String} {default v w : Value} :
    get key default v = .ok w ↔
      ∃ fields, v = .dict fields ∧ (fields.lookup (text key)).getD default = w := by
  cases v with
  | dict fields => simp [get]
  | _ => simp [get]

lemma contains_delete_eq_false {v : Value} : contains "delete" v = .ok false ↔ NoDelete v := by
  cases v with
  | list items =>
      simp only [contains, Except.ok.injEq, NoDelete, List.any_eq_false]
      refine ⟨fun h hmem => h _ hmem (by simp [isStr]), fun h v hv hstr => h ?_⟩
      cases v with
      | str s =>
          obtain rfl : s = text "delete" := by simpa [isStr] using hstr
          exact hv
      | _ => simp [isStr] at hstr
  | str s => simp [contains, NoDelete]
  | dict fields => simp [contains, NoDelete]
  | _ => simp [contains, NoDelete]

/-- The actions of an entry, as the loop reads them. -/
def actionsOf (e : Value) : Except PyError Value := do
  get "actions" (.list []) (← get "change" (.dict []) e)

lemma entryPasses_iff {e : Value} :
    EntryPasses e ↔ ∃ actions, actionsOf e = .ok actions ∧ NoDelete actions := by
  have hempty : NoDelete (.list []) := List.not_mem_nil
  constructor
  · rintro ⟨entry, rfl, hentry⟩
    cases hchange : entry.lookup (text "change") with
    | none => exact ⟨.list [], by simp [actionsOf, get, hchange, bind_eq_ok], hempty⟩
    | some v =>
        obtain ⟨change, rfl, hactions⟩ := hentry v hchange
        cases hlookup : change.lookup (text "actions") with
        | none => exact ⟨.list [], by simp [actionsOf, get, hchange, hlookup, bind_eq_ok], hempty⟩
        | some actions =>
            exact ⟨actions, by simp [actionsOf, get, hchange, hlookup, bind_eq_ok],
              hactions actions hlookup⟩
  · rintro ⟨actions, hactions, hno⟩
    obtain ⟨v, hv, hget⟩ := bind_eq_ok.mp hactions
    obtain ⟨entry, rfl, hchange⟩ := get_eq_ok.mp hv
    obtain ⟨change, rfl, hlookup⟩ := get_eq_ok.mp hget
    refine ⟨entry, rfl, fun w hw => ⟨change, by simpa [Option.mem_def.mp hw] using hchange, ?_⟩⟩
    intro actions' hactions'
    rw [Option.mem_def.mp hactions', Option.getD_some] at hlookup
    rwa [hlookup]

/-- An entry that is read is let through, or is among the destroyed ones. -/
lemma sortChange_cases {c c' : Changes} {e : Value} (h : sortChange c e = .ok c') :
    EntryPasses e ∧ c'.destroyed = c.destroyed ∨ ¬ EntryPasses e ∧ c'.destroyed ≠ [] := by
  obtain ⟨v, hv, h⟩ := bind_eq_ok.mp h
  obtain ⟨actions, hget, h⟩ := bind_eq_ok.mp h
  have hactions : actionsOf e = .ok actions := bind_eq_ok.mpr ⟨v, hv, hget⟩
  obtain ⟨addr, -, h⟩ := bind_eq_ok.mp h
  obtain ⟨deletes, hdeletes, h⟩ := bind_eq_ok.mp h
  cases deletes with
  | true =>
      right
      refine ⟨fun hpasses => ?_, ?_⟩
      · obtain ⟨actions', hactions', hno⟩ := entryPasses_iff.mp hpasses
        obtain rfl : actions = actions' := Except.ok.inj (hactions.symm.trans hactions')
        rw [contains_delete_eq_false.mpr hno] at hdeletes
        cases hdeletes
      · obtain rfl := Except.ok.inj h
        simp
  | false =>
      left
      refine ⟨entryPasses_iff.mpr ⟨actions, hactions, contains_delete_eq_false.mp hdeletes⟩, ?_⟩
      obtain ⟨creates, -, h⟩ := bind_eq_ok.mp h
      cases creates with
      | true =>
          obtain rfl := Except.ok.inj h
          rfl
      | false =>
          obtain ⟨updates, -, h⟩ := bind_eq_ok.mp h
          cases updates with
          | true =>
              obtain rfl := Except.ok.inj h
              rfl
          | false =>
              obtain rfl := Except.ok.inj h
              rfl

/-- **The loop**: when nothing is destroyed, every entry was let through. -/
lemma foldlM_sortChange {entries : List Value} {c c' : Changes}
    (h : entries.foldlM sortChange c = .ok c') (hnone : c'.destroyed = []) :
    c.destroyed = [] ∧ ∀ e ∈ entries, EntryPasses e := by
  induction entries generalizing c with
  | nil =>
      obtain rfl := Except.ok.inj h
      exact ⟨hnone, List.forall_mem_nil _⟩
  | cons e entries ih =>
      rw [List.foldlM_cons] at h
      obtain ⟨c₁, hstep, hrest⟩ := bind_eq_ok.mp h
      obtain ⟨hdestroyed, hentries⟩ := ih hrest
      obtain ⟨hpasses, hkept⟩ | ⟨-, hsome⟩ := sortChange_cases hstep
      · exact ⟨hkept.symm.trans hdestroyed, List.forall_mem_cons.mpr ⟨hpasses, hentries⟩⟩
      · exact absurd hdestroyed hsome

/-- A string is no entry. -/
lemma not_entryPasses_str (s : List CodePoint) : ¬ EntryPasses (.str s) := by
  rintro ⟨entry, h, -⟩
  cases h

lemma passes_of_sortChanges {plan : Value} {c : Changes} (h : sortChanges plan = .ok c)
    (hnone : c.destroyed = []) : Passes plan := by
  rw [sortChanges, bind_eq_ok] at h
  obtain ⟨v, hv, h⟩ := h
  obtain ⟨fields, rfl, hfield⟩ := get_eq_ok.mp hv
  obtain ⟨entries, hiter, hloop⟩ := bind_eq_ok.mp h
  obtain ⟨-, hentries⟩ := foldlM_sortChange hloop hnone
  refine ⟨fields, rfl, fun w hw => ?_⟩
  rw [Option.mem_def.mp hw, Option.getD_some] at hfield
  subst hfield
  cases w with
  | list items =>
      obtain rfl := Except.ok.inj hiter
      exact .inr (.inr ⟨items, rfl, hentries⟩)
  | str s =>
      obtain rfl := Except.ok.inj hiter
      cases s with
      | nil => exact .inl rfl
      | cons c s => exact absurd (hentries _ (List.mem_cons_self ..)) (not_entryPasses_str _)
  | dict d =>
      obtain rfl := Except.ok.inj hiter
      cases d with
      | nil => exact .inr (.inl rfl)
      | cons e d => exact absurd (hentries _ (List.mem_cons_self ..)) (not_entryPasses_str _)
  | _ => cases hiter

/-! ## Nothing else is refused -/

/-- What can be searched for one word can be searched for another. -/
lemma NoDelete.contains {v : Value} (h : NoDelete v) (word : String) :
    ∃ found, contains word v = .ok found := by
  cases v with
  | list items => exact ⟨_, rfl⟩
  | str s => exact ⟨_, rfl⟩
  | dict fields => exact ⟨_, rfl⟩
  | _ => exact h.elim

lemma EntryPasses.sortChange {e : Value} (h : EntryPasses e) (c : Changes) :
    ∃ c', sortChange c e = .ok c' ∧ c'.destroyed = c.destroyed := by
  obtain ⟨actions, hactions, hno⟩ := entryPasses_iff.mp h
  obtain ⟨v, hv, hget⟩ := bind_eq_ok.mp hactions
  obtain ⟨entry, rfl, -⟩ := get_eq_ok.mp hv
  obtain ⟨creates, hcreates⟩ := hno.contains "create"
  obtain ⟨updates, hupdates⟩ := hno.contains "update"
  have haddr : get "address" (.str (text "?")) (.dict entry) =
      .ok ((entry.lookup (text "address")).getD (.str (text "?"))) := rfl
  simp only [Deploy.sortChange, hv, hget, haddr, contains_delete_eq_false.mpr hno, hcreates,
    hupdates, bind, Except.bind]
  cases creates with
  | true => exact ⟨_, rfl, rfl⟩
  | false =>
      cases updates with
      | true => exact ⟨_, rfl, rfl⟩
      | false => exact ⟨_, rfl, rfl⟩

lemma foldlM_of_passes {entries : List Value} (h : ∀ e ∈ entries, EntryPasses e) (c : Changes) :
    ∃ c', entries.foldlM sortChange c = .ok c' ∧ c'.destroyed = c.destroyed := by
  induction entries generalizing c with
  | nil => exact ⟨c, rfl, rfl⟩
  | cons e entries ih =>
      obtain ⟨he, hentries⟩ := List.forall_mem_cons.mp h
      obtain ⟨c₁, hstep, hc₁⟩ := he.sortChange c
      obtain ⟨c', hrest, hc'⟩ := ih hentries c₁
      exact ⟨c', by rw [List.foldlM_cons, hstep]; exact hrest, hc'.trans hc₁⟩

lemma Passes.sortChanges {plan : Value} (h : Passes plan) :
    ∃ c, sortChanges plan = .ok c ∧ c.destroyed = [] := by
  obtain ⟨fields, rfl, hchanges⟩ := h
  obtain ⟨entries, hiter, hentries⟩ : ∃ entries,
      iter ((fields.lookup (text "resource_changes")).getD (.list [])) = .ok entries ∧
        ∀ e ∈ entries, EntryPasses e := by
    cases hlookup : fields.lookup (text "resource_changes") with
    | none => exact ⟨[], rfl, List.forall_mem_nil _⟩
    | some v =>
        obtain rfl | rfl | ⟨entries, rfl, hentries⟩ := hchanges v hlookup
        · exact ⟨[], rfl, List.forall_mem_nil _⟩
        · exact ⟨[], rfl, List.forall_mem_nil _⟩
        · exact ⟨entries, rfl, hentries⟩
  obtain ⟨c, hloop, hc⟩ := foldlM_of_passes hentries ⟨[], [], []⟩
  refine ⟨c, ?_, hc⟩
  rw [Deploy.sortChanges, bind_eq_ok]
  exact ⟨_, rfl, bind_eq_ok.mpr ⟨entries, hiter, hloop⟩⟩

/-- **Which documents are let through**, as the loop finds out. -/
theorem passes_iff {plan : Value} :
    Passes plan ↔ ∃ c, sortChanges plan = .ok c ∧ c.destroyed = [] :=
  ⟨Passes.sortChanges, fun ⟨_, hsort, hnone⟩ => passes_of_sortChanges hsort hnone⟩

/-- `Passes`, computed. -/
def passes (plan : Value) : Bool :=
  match sortChanges plan with
  | .ok c => c.destroyed.isEmpty
  | .error _ => false

lemma passes_eq_true_iff {plan : Value} : passes plan = true ↔ Passes plan := by
  rw [passes_iff, passes]
  split <;> simp_all

instance (plan : Value) : Decidable (Passes plan) := decidable_of_iff _ passes_eq_true_iff

/-! ## How the script ends -/

lemma isOk_lines (c : Changes) : ∀ line ∈ c.lines, line.isOk = false := by
  have hdestroyed (e : Value × Value) : (destroyedLine e).isOk = false := by
    rw [destroyedLine]
    split <;> rfl
  intro line hline
  simp only [Changes.lines, List.mem_append, List.mem_map] at hline
  obtain (⟨_, -, rfl⟩ | ⟨_, -, rfl⟩) | ⟨e, -, rfl⟩ := hline
  · rfl
  · rfl
  · exact hdestroyed e

/-- How the script can end: with 0 on a document that is let through, or without an OK. -/
lemma main_cases {limits : Limits} {argv : List String} (hargv : "--allow-destroy" ∉ argv)
    (stdin : ByteArray) :
    (main limits argv stdin).status = 0 ∧ (∃ plan, load limits stdin = .ok plan ∧ Passes plan) ∨
      (main limits argv stdin).status ≠ 0 ∧
        ∀ line ∈ (main limits argv stdin).stdout, line.isOk = false := by
  rw [main]
  split
  · exact .inr ⟨by decide, List.forall_mem_nil _⟩
  · exact .inr ⟨by simp [uncaught], List.forall_mem_nil _⟩
  · next plan hload =>
    split
    · exact .inr ⟨by simp [uncaught], List.forall_mem_nil _⟩
    · next c hsort =>
      rw [report]
      split_ifs with hencodable hdestroyed
      · exact .inr ⟨Nat.one_ne_zero, isOk_lines c⟩
      · have hnone : c.destroyed = [] := by
          by_contra hne
          exact hdestroyed ⟨hne, hargv⟩
        exact .inl ⟨rfl, plan, hload, passes_of_sortChanges hsort hnone⟩
      · refine .inr ⟨Nat.one_ne_zero, fun line hline => isOk_lines c line ?_⟩
        exact (List.takeWhile_subset _) hline

/-- What is let through is reported as OK, unless an address cannot be printed. -/
theorem ok_of_passes {limits : Limits} {argv : List String} {stdin : ByteArray} {plan : Value}
    {c : Changes} (hload : load limits stdin = .ok plan) (hpasses : Passes plan)
    (hsort : sortChanges plan = .ok c) (hencodable : c.lines.all Line.encodable) :
    (main limits argv stdin).status = 0 ∧
      .ok c.created.length c.updated.length 0 ∈ (main limits argv stdin).stdout := by
  obtain ⟨c', hsort', hnone⟩ := hpasses.sortChanges
  obtain rfl := Except.ok.inj (hsort.symm.trans hsort')
  have hmain : main limits argv stdin = report argv c := by
    simp only [main, hload, hsort]
  rw [hmain, report, if_pos hencodable, if_neg fun h => h.1 hnone, hnone]
  exact ⟨rfl, by simp⟩

/-! ## Plans on stdin -/

lemma load_utf8Encode {limits : Limits} {cs : List Char} {v : Value}
    (h : loads limits cs = .ok v) : load limits cs.utf8Encode = .ok v := by
  rw [load, List.utf8Decode?_utf8Encode]
  simp [h]

/-- **The check on every plan that can be written down**: without `--allow-destroy` exactly those
in which no deletion is found exit with 0, as long as their addresses can be printed. -/
theorem written_let_through_iff {limits : Limits} {argv : List String}
    (hargv : "--allow-destroy" ∉ argv) {plan : Value}
    (hplan : Writable limits limits.nesting plan)
    (hencodable : ∀ c, sortChanges plan = .ok c → c.lines.all Line.encodable) :
    (main limits argv (write plan).utf8Encode).status = 0 ↔ Passes plan := by
  have hload := load_utf8Encode (loads_write hplan)
  constructor
  · intro hstatus
    obtain ⟨-, plan', hload', hpasses⟩ | ⟨hne, -⟩ := main_cases hargv (write plan).utf8Encode
    · rwa [Except.ok.inj (hload.symm.trans hload')]
    · exact absurd hstatus hne
  · intro hpasses
    obtain ⟨c, hsort, -⟩ := hpasses.sortChanges
    exact (ok_of_passes hload hpasses hsort (hencodable c hsort)).1

lemma load_toUTF8 {limits : Limits} {s : String} {v : Value} (h : loads limits s.toList = .ok v) :
    load limits s.toUTF8 = .ok v := by
  rw [String.toUTF8_eq_toByteArray, ← String.utf8Encode_toList]
  exact load_utf8Encode h

lemma main_toUTF8 {limits : Limits} {s : String} {plan : Value} {c : Changes} {argv : List String}
    (h : loads limits s.toList = .ok plan) (hsort : sortChanges plan = .ok c) :
    main limits argv s.toUTF8 = report argv c := by
  simp only [main, load_toUTF8 h, hsort]

/-- The limits of an interpreter as it comes. -/
def cpython : Limits := ⟨990, 4300⟩

/-- A plan with one change. -/
def planOf (change : List (List CodePoint × Value)) : Value :=
  .dict [(text "resource_changes", .list [.dict change])]

def replacement : String :=
  "\x7b\"resource_changes\": [\x7b\"address\": \"aws_instance.node\", " ++
    "\"change\": \x7b\"actions\": [\"delete\", \"create\"]\x7d\x7d]\x7d"

def replacementPlan : Value :=
  planOf [(text "address", .str (text "aws_instance.node")),
    (text "change", .dict [(text "actions", .list [.str (text "delete"), .str (text "create")])])]

lemma loads_replacement : loads cpython replacement.toList = .ok replacementPlan := by rfl

/-- The change of one resource, by its actions. -/
def nodePlan (actions : List String) : Value :=
  planOf [(text "address", .str (text "aws_instance.node")),
    (text "change", .dict [(text "actions", .list (actions.map fun a => .str (text a)))])]

lemma writable_nodePlan {actions : List String}
    (h : ∀ a ∈ actions, joinSurrogates (text a) = text a) :
    Writable cpython cpython.nesting (nodePlan actions) := by
  have hactions : Writable cpython 986 (.list (actions.map fun a => .str (text a))) := by
    refine .list 985 _ fun v hv => ?_
    obtain ⟨a, ha, rfl⟩ := List.mem_map.mp hv
    exact .str 985 _ (h a ha)
  have hchange : Writable cpython 987
      (.dict [(text "actions", .list (actions.map fun a => .str (text a)))]) := by
    refine .dict 986 _ (by simp) ?_ ?_
    · simp only [List.mem_singleton, forall_eq]
      decide
    · simpa using hactions
  have hentry : Writable cpython 988 (.dict [(text "address", .str (text "aws_instance.node")),
      (text "change", .dict [(text "actions", .list (actions.map fun a => .str (text a)))])]) := by
    refine .dict 987 _ ?_ ?_ ?_
    · simp only [List.map_cons, List.map_nil]
      decide
    · simp only [List.mem_cons, List.not_mem_nil, or_false, forall_eq_or_imp, forall_eq]
      decide
    · simp only [List.mem_cons, List.not_mem_nil, or_false, forall_eq_or_imp, forall_eq]
      exact ⟨.str 987 _ (by decide), hchange⟩
  refine .dict 989 _ (by simp) ?_ ?_
  · simp only [List.mem_singleton, forall_eq]
    decide
  · simp only [List.mem_singleton, forall_eq]
    exact .list 988 _ (by simpa using hentry)

/-- An addition is let through, and a replacement is not. -/
theorem written_let_through_addition :
    (main cpython ["assert-safe-plan.py"] (write (nodePlan ["create"])).utf8Encode).status = 0 ∧
    (main cpython ["assert-safe-plan.py"]
      (write (nodePlan ["delete", "create"])).utf8Encode).status ≠ 0 := by
  constructor
  · refine (written_let_through_iff (by decide) (writable_nodePlan (by decide)) ?_).mpr (by decide)
    intro c hc
    obtain rfl := Except.ok.inj hc
    decide
  · refine fun hstatus => absurd ((written_let_through_iff (by decide)
      (writable_nodePlan (by decide)) ?_).mp hstatus) (by decide)
    intro c hc
    obtain rfl := Except.ok.inj hc
    decide

/-! ## What the check guarantees -/

/-- **What the check guarantees.**  Without `--allow-destroy` the script exits with 0 only on a
document in which no deletion is found; on any other input it exits with something else, and does
not say OK. -/
theorem refuses_unless_passes (limits : Limits) (argv : List String)
    (hargv : "--allow-destroy" ∉ argv) (stdin : ByteArray) :
    ((main limits argv stdin).status = 0 →
        ∃ plan, load limits stdin = .ok plan ∧ Passes plan) ∧
      ((¬ ∃ plan, load limits stdin = .ok plan ∧ Passes plan) →
        (main limits argv stdin).status ≠ 0 ∧
          ∀ line ∈ (main limits argv stdin).stdout, line.isOk = false) := by
  obtain ⟨hstatus, hpasses⟩ | ⟨hstatus, hlines⟩ := main_cases hargv stdin
  · exact ⟨fun _ => hpasses, fun hnot => absurd hpasses hnot⟩
  · exact ⟨fun hzero => absurd hzero hstatus, fun _ => ⟨hstatus, hlines⟩⟩

/-- A replacement is refused. -/
theorem refuses_replacement :
    (main cpython ["assert-safe-plan.py"] replacement.toUTF8).status ≠ 0 ∧
      ∀ line ∈ (main cpython ["assert-safe-plan.py"] replacement.toUTF8).stdout,
        line.isOk = false := by
  refine (refuses_unless_passes cpython ["assert-safe-plan.py"] (by decide) replacement.toUTF8).2 ?_
  rintro ⟨plan, hload, hpasses⟩
  obtain rfl := Except.ok.inj ((load_toUTF8 loads_replacement).symm.trans hload)
  exact absurd hpasses (by decide)

/-! ## Documents that are no plans -/

/-- A document without anything. -/
def emptyDocument : String := "\x7b\x7d"

/-- A change without actions. -/
def emptyChange : String := "\x7b\"resource_changes\": [\x7b\x7d]\x7d"

/-- A change whose actions are no list. -/
def wordActions : String :=
  "\x7b\"resource_changes\": [\x7b\"change\": \x7b\"actions\": \"create\"\x7d\x7d]\x7d"

def wordActionsPlan : Value :=
  planOf [(text "change", .dict [(text "actions", .str (text "create"))])]

/-- A JSON object with a list of changes, all of which have a list of actions without a
deletion. -/
def SafePlan (plan : Value) : Prop :=
  ∃ fields entries, plan = .dict fields ∧
    fields.lookup (text "resource_changes") = some (.list entries) ∧
    ∀ e ∈ entries, ∃ entry change actions, e = .dict entry ∧
      entry.lookup (text "change") = some (.dict change) ∧
      change.lookup (text "actions") = some (.list actions) ∧
      Value.str (text "delete") ∉ actions

lemma not_safePlan_planOf {change : List (List CodePoint × Value)}
    (h : ∀ fields actions, change.lookup (text "change") = some (.dict fields) →
      fields.lookup (text "actions") ≠ some (.list actions)) : ¬ SafePlan (planOf change) := by
  rintro ⟨fields, entries, hfields, hlookup, hentries⟩
  obtain rfl := Value.dict.inj hfields
  obtain rfl : [.dict change] = entries := Value.list.inj (Option.some.inj hlookup)
  obtain ⟨entry, fields, actions, heq, hchange, hactions, -⟩ :=
    hentries _ (List.mem_singleton_self _)
  obtain rfl := Value.dict.inj heq
  exact h fields actions hchange hactions

/-- What has defaults for all it does not find lets such documents through. -/
theorem nonPlans_let_through :
    ((main cpython ["assert-safe-plan.py"] emptyDocument.toUTF8).status = 0 ∧
      ¬ ∃ plan, load cpython emptyDocument.toUTF8 = .ok plan ∧ SafePlan plan) ∧
    ((main cpython ["assert-safe-plan.py"] emptyChange.toUTF8).status = 0 ∧
      ¬ ∃ plan, load cpython emptyChange.toUTF8 = .ok plan ∧ SafePlan plan) ∧
    (main cpython ["assert-safe-plan.py"] wordActions.toUTF8).status = 0 ∧
      ¬ ∃ plan, load cpython wordActions.toUTF8 = .ok plan ∧ SafePlan plan := by
  have hempty : loads cpython emptyDocument.toList = .ok (.dict []) := by rfl
  have hchange : loads cpython emptyChange.toList = .ok (planOf []) := by rfl
  have hword : loads cpython wordActions.toList = .ok wordActionsPlan := by rfl
  refine ⟨⟨?_, ?_⟩, ⟨?_, ?_⟩, ?_, ?_⟩
  · rw [main_toUTF8 (c := ⟨[], [], []⟩) hempty rfl]
    rfl
  · rintro ⟨plan, hload, fields, entries, hplan, hlookup, -⟩
    obtain rfl := Except.ok.inj ((load_toUTF8 hempty).symm.trans hload)
    obtain rfl := Value.dict.inj hplan
    cases hlookup
  · rw [main_toUTF8 (c := ⟨[], [], []⟩) hchange rfl]
    rfl
  · rintro ⟨plan, hload, hsafe⟩
    obtain rfl := Except.ok.inj ((load_toUTF8 hchange).symm.trans hload)
    exact not_safePlan_planOf (fun _ _ hfields => by cases hfields) hsafe
  · rw [main_toUTF8 (c := ⟨[.str (text "?")], [], []⟩) hword rfl]
    rfl
  · rintro ⟨plan, hload, hsafe⟩
    obtain rfl := Except.ok.inj ((load_toUTF8 hword).symm.trans hload)
    refine not_safePlan_planOf (fun fields actions hfields hactions => ?_) hsafe
    obtain rfl := Value.dict.inj (Option.some.inj hfields)
    cases hactions

end RaftBench.Deploy

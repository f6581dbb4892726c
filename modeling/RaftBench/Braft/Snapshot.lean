import RaftBench.Lib.Machine
import RaftBench.Lib.Decimal
import RaftBench.Braft.Replication

/-!
# Snapshots of the atomic server

`on_snapshot_save` copies the map into a vector while the state machine is stopped, and a
background bthread writes the vector out as text, one `id value` line per entry, while further
entries are applied.  `on_snapshot_load` clears the map and reads pairs until the stream fails.

* `saveSnapshot` and `loadPairs` — the text writer and reader.
* `loadPairs_saveSnapshot` — the round trip, over every `int64` pair and every iteration order.
* `Saver` — a saving node as a step machine, so that the writer may run at any later moment.
* `snapshot_then_suffix` — a snapshot and the rest of the log are the whole log.
-/

namespace RaftBench.Braft

open Decimal

/-! ## The data file -/

/-- `SnapshotClosure`: the pairs copied out of the map, in the order the iteration met them. -/
structure SnapshotClosure where
  values : List (Int64 × Int64)
  deriving DecidableEq, Repr

/-- The pairs a map iteration can yield: every entry once, in any order. -/
def Enumerates (values : List (Int64 × Int64)) (map : ValueMap) : Prop :=
  ((values.map fun p => (⟨p.1, p.2⟩ : Σ _ : Int64, Int64) : List (Σ _ : Int64, Int64)) :
    Multiset (Σ _ : Int64, Int64)) = map.entries

instance (values : List (Int64 × Int64)) (map : ValueMap) : Decidable (Enumerates values map) :=
  inferInstanceAs (Decidable (_ = _))

/-- One line of the data file: `os << first << ' ' << second << '\n'`. -/
def snapshotLine (p : Int64 × Int64) : List Char :=
  print p.1.toInt ++ ' ' :: (print p.2.toInt ++ ['\n'])

/-- The file `save_snapshot` writes. -/
def saveSnapshot (sc : SnapshotClosure) : List Char := sc.values.flatMap snapshotLine

/-- `isspace` in the C locale, which is what the stream skips before a number. -/
def isSpace (c : Char) : Bool := c ∈ [' ', '\t', '\n', '\x0b', '\x0c', '\r']

/-- `is >> x` for an `int64_t`: skip white space, read a signed decimal number, and fail when
there is none or when it does not fit. -/
def extract (text : List Char) : Option (Int64 × List Char) :=
  match readInt (text.dropWhile isSpace) with
  | some (z, rest) => if -2 ^ 63 ≤ z ∧ z < 2 ^ 63 then some (Int64.ofInt z, rest) else none
  | none => none

lemma readNat_length {cs rest : List Char} {n : ℕ} (h : readNat cs = some (n, rest)) :
    rest.length < cs.length := by
  simp only [readNat, Option.map_eq_some_iff, Prod.mk.injEq] at h
  obtain ⟨m, hm, -, hrest⟩ := h
  have hne : cs.takeWhile Char.isDigit ≠ [] := by
    intro hnil
    simp [ofDigits, hnil] at hm
  have hpos : 0 < (cs.takeWhile Char.isDigit).length := List.length_pos_of_ne_nil hne
  have hsplit := congrArg List.length
    (List.takeWhile_append_dropWhile (p := Char.isDigit) (l := cs))
  rw [List.length_append] at hsplit
  rw [← hrest]
  omega

lemma readInt_length {cs rest : List Char} {z : ℤ} (h : readInt cs = some (z, rest)) :
    rest.length < cs.length := by
  unfold readInt at h
  split at h
  all_goals
    simp only [Option.map_eq_some_iff, Prod.mk.injEq] at h
    obtain ⟨⟨n, r⟩, hn, -, rfl⟩ := h
    have := readNat_length hn
    simp only [List.length_cons]
    omega

/-- A successful extraction consumes at least one character, so the read loop terminates. -/
lemma extract_length {text rest : List Char} {x : Int64} (h : extract text = some (x, rest)) :
    rest.length < text.length := by
  unfold extract at h
  split at h
  · next z r hread =>
      have hlt := readInt_length hread
      have hle : (text.dropWhile isSpace).length ≤ text.length :=
        (List.dropWhile_sublist _).length_le
      split_ifs at h
      simp only [Option.some.injEq, Prod.mk.injEq] at h
      rw [← h.2]
      omega
  · simp at h

/-- `while (is >> id >> value) _value_map[id] = value;` -/
def loadPairs (text : List Char) (map : ValueMap) : ValueMap :=
  match _hid : extract text with
  | none => map
  | some (id, rest) =>
      match _hvalue : extract rest with
      | none => map
      | some (value, rest') => loadPairs rest' (map.insert id value)
  termination_by text.length
  decreasing_by
    have h₁ := extract_length _hid
    have h₂ := extract_length _hvalue
    omega

/-- `on_snapshot_load`: the map is cleared before the file is opened, and whatever the stream
yields before it fails is what the node ends up with.  `none` is a file that cannot be opened. -/
def Atomic.onSnapshotLoad (self : Atomic) (data : Option (List Char)) :
    Except CheckFailure (ℤ × Atomic) :=
  if self.leaderTerm ≠ -1 then .error .leaderLoadsSnapshot
  else
    match data with
    | some text => .ok (0, { self with valueMap := loadPairs text ∅ })
    | none => .ok (0, { self with valueMap := ∅ })

/-! ## The round trip -/

lemma loadPairs_of_extract {text rest rest' : List Char} {id value : Int64} {map : ValueMap}
    (hid : extract text = some (id, rest)) (hvalue : extract rest = some (value, rest')) :
    loadPairs text map = loadPairs rest' (map.insert id value) := by
  rw [loadPairs]
  split
  · next h => simp [hid] at h
  · next id' r h =>
      rw [hid, Option.some.injEq, Prod.mk.injEq] at h
      obtain ⟨rfl, rfl⟩ := h
      split
      · next h' => simp [hvalue] at h'
      · next value' r' h' =>
          rw [hvalue, Option.some.injEq, Prod.mk.injEq] at h'
          obtain ⟨rfl, rfl⟩ := h'
          rfl

/-- White space alone holds no number: the stream fails and the loop ends. -/
lemma loadPairs_blank {blank : List Char} (hblank : ∀ c ∈ blank, isSpace c = true)
    (map : ValueMap) : loadPairs blank map = map := by
  have hnone : extract blank = none := by
    rw [extract, List.dropWhile_eq_nil_iff.mpr hblank]
    rfl
  rw [loadPairs]
  split
  · rfl
  · next h => simp [hnone] at h

/-- A printed integer begins with a digit or a minus sign, so skipping white space stops at it. -/
lemma print_ne_space (z : ℤ) : ∃ c cs, print z = c :: cs ∧ isSpace c = false := by
  by_cases hz : z < 0
  · exact ⟨'-', printNat z.natAbs, by rw [print, if_pos hz], by decide⟩
  · obtain ⟨c, cs, hcs⟩ := List.exists_cons_of_ne_nil (printNat_ne_nil z.natAbs)
    have hdigit : c.isDigit = true := isDigit_of_mem_printNat (n := z.natAbs) (by simp [hcs])
    refine ⟨c, cs, by rw [print, if_neg hz, hcs], ?_⟩
    rw [isSpace, decide_eq_false_iff_not]
    intro hmem
    simp only [List.mem_cons, List.not_mem_nil, or_false] at hmem
    rcases hmem with rfl | rfl | rfl | rfl | rfl | rfl <;> simp at hdigit

/-- White space in front of a printed number is skipped, the number itself is not. -/
lemma dropWhile_space_print {blank : List Char} (hblank : ∀ c ∈ blank, isSpace c = true) (z : ℤ)
    (rest : List Char) : (blank ++ (print z ++ rest)).dropWhile isSpace = print z ++ rest := by
  obtain ⟨c, cs, hcs, hc⟩ := print_ne_space z
  rw [List.dropWhile_append_of_pos hblank, hcs, List.cons_append,
    List.dropWhile_cons_of_neg (by simp [hc])]

/-- **One number.**  Every `int64` is read back as itself, the extreme ones included. -/
lemma extract_print {blank : List Char} (hblank : ∀ c ∈ blank, isSpace c = true) (x : Int64)
    {rest : List Char} (h : EndsNumber rest) :
    extract (blank ++ (print x.toInt ++ rest)) = some (x, rest) := by
  have hfits : -2 ^ 63 ≤ x.toInt ∧ x.toInt < 2 ^ 63 := ⟨x.le_toInt, x.toInt_lt⟩
  rw [extract, dropWhile_space_print hblank, readInt_print _ h]
  simp only [if_pos hfits, Int64.ofInt_toInt]

/-- **One line.**  Reading a line stores its pair and leaves its newline to be skipped by the next
extraction, so lines are read back to back. -/
lemma loadPairs_line {blank : List Char} (hblank : ∀ c ∈ blank, isSpace c = true)
    (p : Int64 × Int64) (rest : List Char) (map : ValueMap) :
    loadPairs (blank ++ (snapshotLine p ++ rest)) map
      = loadPairs (['\n'] ++ rest) (map.insert p.1 p.2) := by
  have hspace : EndsNumber (' ' :: (print p.2.toInt ++ ['\n']) ++ rest) := by
    intro c hc
    simp only [List.cons_append, List.head?_cons, Option.mem_some_iff] at hc
    subst hc
    decide
  have hnewline : EndsNumber (['\n'] ++ rest) := by
    intro c hc
    simp only [List.cons_append, List.head?_cons, Option.mem_some_iff] at hc
    subst hc
    decide
  have hid : extract (blank ++ (snapshotLine p ++ rest))
      = some (p.1, ' ' :: (print p.2.toInt ++ ['\n']) ++ rest) := by
    rw [snapshotLine, List.append_assoc]
    exact extract_print hblank p.1 hspace
  have hvalue : extract (' ' :: (print p.2.toInt ++ ['\n']) ++ rest)
      = some (p.2, ['\n'] ++ rest) := by
    have hblank' : ∀ c ∈ [' '], isSpace c = true := List.forall_mem_singleton.mpr rfl
    simpa using extract_print hblank' p.2 hnewline
  exact loadPairs_of_extract hid hvalue

/-- Loading a written file inserts its pairs in the order they were written. -/
lemma loadPairs_lines {blank : List Char} (hblank : ∀ c ∈ blank, isSpace c = true)
    (values : List (Int64 × Int64)) (map : ValueMap) :
    loadPairs (blank ++ values.flatMap snapshotLine) map
      = values.foldl (fun m p => m.insert p.1 p.2) map := by
  induction values generalizing blank map with
  | nil =>
      rw [List.flatMap_nil, List.append_nil]
      exact loadPairs_blank hblank map
  | cons p values ih =>
      have hblank' : ∀ c ∈ ['\n'], isSpace c = true := List.forall_mem_singleton.mpr rfl
      rw [List.flatMap_cons, loadPairs_line hblank, ih hblank', List.foldl_cons]

/-! ### Inserting an enumeration rebuilds the map -/

/-- An iteration meets every key once. -/
lemma Enumerates.nodup {values : List (Int64 × Int64)} {map : ValueMap}
    (h : Enumerates values map) : (values.map Prod.fst).Nodup := by
  have hkeys := map.nodupKeys
  rw [← h, Multiset.coe_nodupKeys, List.NodupKeys, List.keys, List.map_map] at hkeys
  exact hkeys

lemma Enumerates.mem_iff {values : List (Int64 × Int64)} {map : ValueMap}
    (h : Enumerates values map) {id value : Int64} :
    (id, value) ∈ values ↔ map.lookup id = some value := by
  rw [Finmap.lookup_eq_some_iff, ← h]
  simp

lemma lookup_foldl_insert_of_notMem {values : List (Int64 × Int64)} {id : Int64}
    (h : id ∉ values.map Prod.fst) (map : ValueMap) :
    (values.foldl (fun m p => m.insert p.1 p.2) map).lookup id = map.lookup id := by
  induction values generalizing map with
  | nil => rfl
  | cons p values ih =>
      simp only [List.map_cons, List.mem_cons, not_or] at h
      rw [List.foldl_cons, ih h.2, Finmap.lookup_insert_of_ne _ h.1]

lemma lookup_foldl_insert_of_mem {values : List (Int64 × Int64)} {id value : Int64}
    (hnodup : (values.map Prod.fst).Nodup) (h : (id, value) ∈ values) (map : ValueMap) :
    (values.foldl (fun m p => m.insert p.1 p.2) map).lookup id = some value := by
  induction values generalizing map with
  | nil => simp at h
  | cons p values ih =>
      rw [List.map_cons, List.nodup_cons] at hnodup
      rw [List.foldl_cons]
      rcases List.mem_cons.mp h with rfl | h
      · rw [lookup_foldl_insert_of_notMem hnodup.1, Finmap.lookup_insert]
      · exact ih hnodup.2 h _

/-- **The iteration order does not matter.**  Inserting the enumerated pairs into an empty map
gives the map that was enumerated. -/
lemma Enumerates.rebuild {values : List (Int64 × Int64)} {map : ValueMap}
    (h : Enumerates values map) : values.foldl (fun m p => m.insert p.1 p.2) ∅ = map := by
  refine Finmap.ext_lookup fun id => ?_
  cases hlookup : map.lookup id with
  | some value => exact lookup_foldl_insert_of_mem h.nodup (h.mem_iff.mpr hlookup) ∅
  | none =>
      have hnot : id ∉ values.map Prod.fst := by
        intro hmem
        obtain ⟨⟨id', value⟩, hp, rfl⟩ := List.mem_map.mp hmem
        rw [h.mem_iff.mp hp] at hlookup
        simp at hlookup
      rw [lookup_foldl_insert_of_notMem hnot, Finmap.lookup_empty]

/-- **Encode, then decode.**  Loading what `save_snapshot` wrote rebuilds the map it was taken
from, for every iteration order of the saving node. -/
theorem loadPairs_saveSnapshot {values : List (Int64 × Int64)} {map : ValueMap}
    (h : Enumerates values map) : loadPairs (saveSnapshot ⟨values⟩) ∅ = map := by
  have hblank : ∀ c ∈ ([] : List Char), isSpace c = true := by simp
  have hlines := loadPairs_lines hblank values ∅
  rw [List.nil_append] at hlines
  rw [saveSnapshot, hlines, h.rebuild]

/-! ## A saving node

The snapshot is taken at one point of the log and written at a later one, so the two are separate
steps and the entries applied in between are steps too.
-/

/-- The saving node: its map, the closure a background writer still has to write, and the data
file once it is written. -/
structure Saver where
  valueMap : ValueMap := ∅
  pending : Option SnapshotClosure := none
  data : Option (List Char) := none

inductive SaverEvent where
  /-- raft applies the next committed entry -/
  | apply (entry : Entry)
  /-- `on_snapshot_save`, iterating over the map in the given order -/
  | onSnapshotSave (values : List (Int64 × Int64))
  /-- the background `save_snapshot` runs to its end -/
  | saveSnapshot
  deriving DecidableEq, Repr

def saver (pb : Protobuf) : Machine Saver SaverEvent where
  step s
    | .apply entry =>
        match handle pb s.valueMap entry with
        | .ok (map, _) => some { s with valueMap := map }
        | .error _ => none
    | .onSnapshotSave values =>
        if Enumerates values s.valueMap then some { s with pending := some ⟨values⟩ } else none
    | .saveSnapshot =>
        s.pending.map fun sc => { s with pending := none, data := some (saveSnapshot sc) }

/-- Applying entries changes the map and nothing else: a pending snapshot keeps its values. -/
lemma saver_run_apply {pb : Protobuf} (isLocal : ℕ → Bool) (s : Saver)
    (log : List (LogEntry pb)) :
    (saver pb).run s ((entriesOn isLocal log).map .apply)
      = some { s with valueMap := (replay s.valueMap (log.map LogEntry.request)).1 } := by
  induction log generalizing s isLocal with
  | nil => rfl
  | cons e log ih =>
      have hstep : (saver pb).step s (.apply (e.entry (isLocal 0)))
          = some { s with valueMap := (execute s.valueMap e.request).1 } := by
        simp only [saver, handle_eq_execute]
      rw [entriesOn_cons, List.map_cons, Machine.run_cons, hstep, Option.bind_some, ih]
      rfl

/-- **Snapshot plus suffix is the whole log.**  Take any log, any cut `k`, any iteration order of
the map after entry `k`, and let the writer run after any number `delay` of further entries.  The
file it writes, loaded on a node with any previous map, gives exactly the map after entry `k`;
and applying the rest of the log there gives the map and the responses that applying the whole
log from the empty map gives. -/
theorem snapshot_then_suffix (pb : Protobuf) (log : List (LogEntry pb)) (k delay : ℕ)
    (saving loading : ℕ → Bool) (leaderId : Option String) (previous : ValueMap) :
    ∃ map responses,
      onApply pb ∅ (entriesOn saving (log.take k)) = .ok (map, responses) ∧
      ∀ values, Enumerates values map →
        ∃ s text,
          (saver pb).run {} ((entriesOn saving (log.take k)).map .apply ++
            [.onSnapshotSave values] ++
            (entriesOn (fun i => saving (k + i)) ((log.drop k).take delay)).map .apply ++
            [.saveSnapshot]) = some s ∧
          s.data = some text ∧
          Atomic.onSnapshotLoad ⟨-1, leaderId, previous⟩ (some text)
            = .ok (0, ⟨-1, leaderId, map⟩) ∧
          ∃ map' responses',
            onApply pb map (entriesOn loading (log.drop k)) = .ok (map', responses') ∧
            onApply pb ∅ (entriesOn saving log) = .ok (map', responses ++ responses') := by
  set before := (log.take k).map LogEntry.request with hbefore
  set after := (log.drop k).map LogEntry.request with hafter
  have hlog : log.map LogEntry.request = before ++ after := by
    rw [hbefore, hafter, ← List.map_append, List.take_append_drop]
  refine ⟨(replay ∅ before).1, (replay ∅ before).2, onApply_eq_replay saving ∅ _, ?_⟩
  intro values hvalues
  set between := ((log.drop k).take delay).map LogEntry.request with hbetween
  refine ⟨⟨(replay (replay ∅ before).1 between).1, none, some (saveSnapshot ⟨values⟩)⟩,
    saveSnapshot ⟨values⟩, ?_, rfl, ?_, ?_⟩
  · -- the state after each of the four legs of the run
    rw [Machine.run_append, Machine.run_append, Machine.run_append, saver_run_apply]
    simp only [Option.bind_some, Machine.run_cons, Machine.run_nil]
    have hsave : (saver pb).step { valueMap := (replay ∅ before).1 } (.onSnapshotSave values)
        = some { valueMap := (replay ∅ before).1, pending := some ⟨values⟩ } := by
      simp only [saver, if_pos hvalues]
    rw [hsave]
    simp only [Option.bind_some, saver_run_apply]
    rfl
  · have hload := loadPairs_saveSnapshot hvalues
    simp only [Atomic.onSnapshotLoad, hload]
    rfl
  · refine ⟨_, _, onApply_eq_replay loading _ _, ?_⟩
    rw [onApply_eq_replay, hlog, replay_append]

end RaftBench.Braft

import Mathlib.Data.Int.CardIntervalMod
import Mathlib.Data.List.GetD
import RaftBench.Lib.Machine
import RaftBench.Sweep.MergeHdr
import RaftBench.Sweep.RateSplit

/-!
# A sweep with several generators a box

`sweep-gen.sh` runs `PER` generators on every client box.  Unlike `sweep-multi.sh` it removes the
raw histograms of all boxes before each rate, and merges a local copy only when its `scp` has gone
through; a rate for which none has is skipped.  Each of these steps may fail by itself: the `rm` of
a box, a generator, a copy.

A run of the machine `sweep` is a list of passes over the rates, each with an arbitrary outcome.
The raw file of generator `g` is `/tmp/gen_<g>.csv` on its box, so two entries of `CLIENTS` that
name one box write to the same files, in the order in which their generators end.
`rows_describe_own_pass` says when every row is about the histograms of its own pass: there is a
copy only of what its own generator has written last, or of nothing.
-/

namespace RaftBench.Sweep.Gen

open Decimal

/-- The generators, box by box, as the loops go through them: the index into `HOSTS` and `g`. -/
def generators (fleet : Fleet) : List (ℕ × ℕ) :=
  (List.range fleet.hosts.length).flatMap fun hi => (List.range fleet.per).map fun g => (hi, g)

lemma mem_generators {fleet : Fleet} {gen : ℕ × ℕ} :
    gen ∈ generators fleet ↔ gen.1 < fleet.hosts.length ∧ gen.2 < fleet.per := by
  obtain ⟨hi, g⟩ := gen
  simp [generators]

/-- The box of a generator. -/
def host (fleet : Fleet) (hi : ℕ) : String := fleet.hosts.getD hi ""

lemma host_inj {fleet : Fleet} (hnodup : fleet.hosts.Nodup) {hi hi' : ℕ}
    (hlt : hi < fleet.hosts.length) (hlt' : hi' < fleet.hosts.length)
    (h : host fleet hi = host fleet hi') : hi = hi' := by
  rw [host, host, List.getD_eq_getElem _ _ hlt, List.getD_eq_getElem _ _ hlt'] at h
  exact hnodup.getElem_inj_iff.mp h

/-! ## The machine -/

/-- A raw file, with the pass that wrote it and the entry of `HOSTS` its generator was started for;
`none` if the file was there before. -/
structure File where
  lines : Lines
  source : Option (ℕ × ℕ)
  deriving DecidableEq, Repr

structure Config where
  prod : String
  fleetName : String := "unknown"
  fleet : Fleet

/-- What happens in one pass.  All generators are waited for; `ended` is the order in which they
end. -/
structure Pass (fleet : Fleet) where
  rate : ℕ
  /-- whether the `rm` started for an entry of `HOSTS` goes through -/
  cleared : ℕ → Bool
  /-- the raw file of a generator, if it gets that far -/
  wrote : ℕ × ℕ → Option Lines
  ended : List (ℕ × ℕ)
  ended_perm : ended.Perm (generators fleet)
  /-- whether the `scp` can reach the box -/
  copied : ℕ × ℕ → Bool
  /-- the figures in the logs, which are new for every pass -/
  achieved : ℕ × ℕ → Option ℕ := fun _ => none
  dropped : ℕ × ℕ → Option ℕ := fun _ => none
  lag : ℕ × ℕ → Option ℕ := fun _ => none

/-- A line of the CSV; a percentile is `none` where the column is empty. -/
structure Row where
  prod : String
  rate : ℕ
  achieved : ℕ
  p50 : Option ℤ
  p90 : Option ℤ
  p99 : Option ℤ
  p999 : Option ℤ
  max : Option ℤ
  dropped : ℕ
  lag : ℕ
  fleet : String
  deriving DecidableEq, Repr

/-- A row, the pass it was written in and the local files it was computed from. -/
structure Written where
  row : Row
  pass : ℕ
  raws : List ((ℕ × ℕ) × Option File)
  deriving DecidableEq, Repr

structure State where
  /-- `/tmp/gen_<g>.csv` on every box -/
  boxes : String × ℕ → Option File
  /-- `/tmp/raw_<prod>_<rate>_<hi>_<g>.csv` -/
  locals : ℕ × ℕ × ℕ → Option File
  passes : ℕ := 0
  rows : List Written := []

/-- The beginning of a sweep, over whatever files are lying around. -/
def start (boxes : String × ℕ → Option Lines) (locals : ℕ × ℕ × ℕ → Option Lines) : State where
  boxes file := (boxes file).map fun lines => ⟨lines, none⟩
  locals file := (locals file).map fun lines => ⟨lines, none⟩

section Step

variable {fleet : Fleet} (s : State) (p : Pass fleet)

/-- One of the entries that name the box has its `rm` go through. -/
def Pass.clears (box : String) : Bool :=
  (List.range fleet.hosts.length).any fun hi => host fleet hi = box && p.cleared hi

/-- The boxes when the `rm`s have been waited for. -/
def clear : String × ℕ → Option File := fun file =>
  if p.clears file.1 then none else s.boxes file

/-- What a generator writes, and where. -/
def write (gen : ℕ × ℕ) : Option ((String × ℕ) × Option File) :=
  (p.wrote gen).map fun lines =>
    ((host fleet gen.1, gen.2), some ⟨lines, some (s.passes, gen.1)⟩)

/-- The boxes when all generators have ended. -/
def generate : String × ℕ → Option File :=
  p.ended.foldl (fun boxes gen => match write s p gen with
    | some (file, content) => Function.update boxes file content
    | none => boxes) (clear s p)

/-- `RAWS`: the generators whose `scp` goes through, which it does not when there is no file. -/
def raws : List (ℕ × ℕ) :=
  (generators fleet).filter fun gen =>
    p.copied gen && (generate s p (host fleet gen.1, gen.2)).isSome

/-- The local files when the copies are done. -/
def copy : ℕ × ℕ × ℕ → Option File :=
  (raws s p).foldl (fun locals gen => Function.update locals (p.rate, gen)
    (generate s p (host fleet gen.1, gen.2))) s.locals

end Step

def writeRow (cfg : Config) (p : Pass cfg.fleet) (files : List (Option File)) : Row :=
  let m := main (files.map fun file => file.map File.lines)
  { prod := cfg.prod
    rate := p.rate
    achieved := ((generators cfg.fleet).map fun gen => (p.achieved gen).getD 0).sum
    p50 := m.map Report.p50
    p90 := m.map Report.p90
    p99 := m.map Report.p99
    p999 := m.map Report.p999
    max := m.map Report.max
    dropped := ((generators cfg.fleet).map fun gen => (p.dropped gen).getD 0).sum
    lag := ((generators cfg.fleet).map fun gen => (p.lag gen).getD 0).foldl Nat.max 0
    fleet := cfg.fleetName }

/-- One pass of the loop over the rates. -/
def pass (cfg : Config) (s : State) (p : Pass cfg.fleet) : State where
  boxes := generate s p
  locals := copy s p
  passes := s.passes + 1
  rows :=
    let files := (raws s p).map fun gen => (gen, copy s p (p.rate, gen))
    -- "no histograms at rate $R; row skipped"
    if files = [] then s.rows
    else s.rows ++ [⟨writeRow cfg p (files.map Prod.snd), s.passes, files⟩]

def sweep (cfg : Config) : Machine State (Pass cfg.fleet) where
  step s p := some (pass cfg s p)

/-- The gate in front of the sweep: every gateway is probed up to thirty times, and the first one
that never accepts a connection ends the script before anything is written. -/
def sweepGen (cfg : Config) (gateways : List String) (accepts : String → ℕ → Bool) (s : State)
    (passes : List (Pass cfg.fleet)) : Except String State :=
  match gateways.find? fun gw => !(List.range 30).any (accepts gw) with
  | some gw => .error ("sweep-gen: gateway " ++ gw ++
      " never accepted a connection; aborting rather than measuring a partial fleet")
  | none => .ok (passes.foldl (pass cfg) s)

/-! ## What a row should say -/

/-- The row describes pass `k`: it is computed from its files, and each of them is what its own
generator has written in that pass. -/
structure Describes (cfg : Config) (k : ℕ) (p : Pass cfg.fleet) (w : Written) : Prop where
  computed : w.row = writeRow cfg p (w.raws.map Prod.snd)
  fresh : ∀ raw ∈ w.raws, ∃ lines, p.wrote raw.1 = some lines ∧
    raw.2 = some ⟨lines, some (k, raw.1.1)⟩

/-- Every row describes the pass it was written in. -/
def RowsDescribe (cfg : Config) (passes : List (Pass cfg.fleet)) (s : State) : Prop :=
  ∀ w ∈ s.rows, ∃ p, passes[w.pass]? = some p ∧ Describes cfg w.pass p w

/-- The entries whose generators write file `g` of a box, in the order in which they do. -/
def Pass.writers {fleet : Fleet} (p : Pass fleet) (box : String) (g : ℕ) : List ℕ :=
  (p.ended.filter fun gen => host fleet gen.1 = box ∧ gen.2 = g ∧ (p.wrote gen).isSome).map Prod.fst

/-- Nothing old is copied: a box that can be reached has had its file written last by the generator
it is copied for, or nobody has written it and it is not there. -/
def Fresh {fleet : Fleet} (s : State) (p : Pass fleet) : Prop :=
  ∀ gen ∈ generators fleet, p.copied gen = true →
    (p.writers (host fleet gen.1) gen.2).getLast? = some gen.1 ∨
      (p.writers (host fleet gen.1) gen.2 = [] ∧
        (p.clears (host fleet gen.1) = true ∨ s.boxes (host fleet gen.1, gen.2) = none))

/-! ## One pass -/

section

variable {fleet : Fleet} {s : State} {p : Pass fleet}

/-- **What is on a box at the end**: what was written last, or what the `rm` has left. -/
lemma generate_eq (s : State) (p : Pass fleet) (box : String) (g : ℕ) :
    generate s p (box, g) = ((p.writers box g).getLast?.elim (clear s p (box, g)) fun hi =>
      (p.wrote (hi, g)).map fun lines => ⟨lines, some (s.passes, hi)⟩) := by
  rw [generate, Pass.writers]
  generalize p.ended = ended
  induction ended using List.reverseRecOn with
  | nil => rfl
  | append_singleton ended gen ih =>
      rw [List.foldl_concat, List.filter_append, List.map_append]
      cases hwrote : p.wrote gen with
      | none =>
          have hstep : write s p gen = none := by
            rw [write, hwrote]
            rfl
          simp only [hstep]
          rw [ih]
          simp [hwrote]
      | some lines =>
          have hstep : write s p gen
              = some ((host fleet gen.1, gen.2), some ⟨lines, some (s.passes, gen.1)⟩) := by
            rw [write, hwrote]
            rfl
          simp only [hstep]
          by_cases hfile : host fleet gen.1 = box ∧ gen.2 = g
          · obtain ⟨rfl, rfl⟩ := hfile
            simp [Function.update_self, hwrote]
          · have hne : (box, g) ≠ (host fleet gen.1, gen.2) := by
              intro heq
              exact hfile ⟨(Prod.mk.inj heq).1.symm, (Prod.mk.inj heq).2.symm⟩
            rw [Function.update_of_ne hne, ih]
            have hskip : ¬ (host fleet gen.1 = box ∧ gen.2 = g ∧ (p.wrote gen).isSome) :=
              fun h => hfile ⟨h.1, h.2.1⟩
            simp [hskip]

/-- A writer is a generator of that box, and has written. -/
lemma mem_writers {box : String} {g hi : ℕ} :
    hi ∈ p.writers box g ↔
      (hi, g) ∈ generators fleet ∧ host fleet hi = box ∧ (p.wrote (hi, g)).isSome := by
  rw [Pass.writers, List.mem_map]
  constructor
  · rintro ⟨⟨hi', g'⟩, hmem, rfl⟩
    rw [List.mem_filter, decide_eq_true_eq] at hmem
    obtain ⟨hended, hbox, hg, hwrote⟩ := hmem
    obtain rfl : g' = g := hg
    exact ⟨p.ended_perm.mem_iff.mp hended, hbox, hwrote⟩
  · rintro ⟨hgen, hbox, hwrote⟩
    refine ⟨(hi, g), ?_, rfl⟩
    rw [List.mem_filter, decide_eq_true_eq]
    exact ⟨p.ended_perm.mem_iff.mpr hgen, hbox, rfl, hwrote⟩

/-- No file is from a pass that has yet to come. -/
def Past (s : State) : Prop :=
  ∀ key, ∀ file ∈ s.boxes key, ∀ source ∈ file.source, source.1 < s.passes

lemma mem_raws {gen : ℕ × ℕ} : gen ∈ raws s p ↔
    gen ∈ generators fleet ∧ p.copied gen = true ∧
      (generate s p (host fleet gen.1, gen.2)).isSome := by
  rw [raws, List.mem_filter, Bool.and_eq_true]

/-- A local file that is merged is the one that has just been copied. -/
lemma copy_eq {gen : ℕ × ℕ} (h : gen ∈ raws s p) :
    copy s p (p.rate, gen) = generate s p (host fleet gen.1, gen.2) := by
  rw [copy]
  generalize raws s p = copies at h
  generalize s.locals = locals
  induction copies using List.reverseRecOn with
  | nil => cases h
  | append_singleton copies gen' ih =>
      rw [List.foldl_concat]
      by_cases heq : gen = gen'
      · rw [heq, Function.update_self]
      · rw [Function.update_of_ne (fun h => heq (Prod.mk.inj h).2)]
        refine ih ?_
        simpa [heq] using h

/-- The file a box holds for a generator is the one it has just written. -/
def Own (s : State) (p : Pass fleet) (gen : ℕ × ℕ) : Prop :=
  ∃ lines, p.wrote gen = some lines ∧
    generate s p (host fleet gen.1, gen.2) = some ⟨lines, some (s.passes, gen.1)⟩

/-- **One box**: its file is the generator's own exactly when it was the last to write there. -/
lemma own_iff (hpast : Past s) {gen : ℕ × ℕ} :
    Own s p gen ↔ (p.writers (host fleet gen.1) gen.2).getLast? = some gen.1 := by
  rw [Own, generate_eq]
  cases hlast : (p.writers (host fleet gen.1) gen.2).getLast? with
  | none =>
      refine ⟨?_, fun h => by cases h⟩
      rintro ⟨lines, -, hfile⟩
      -- a file nobody has written is from an earlier pass
      rw [Option.elim_none, clear] at hfile
      split_ifs at hfile
      exact absurd (hpast _ _ hfile _ rfl) (lt_irrefl _)
  | some hi =>
      obtain ⟨-, -, hwrote⟩ := mem_writers.mp (List.mem_of_getLast? hlast)
      obtain ⟨lines', hlines'⟩ := Option.isSome_iff_exists.mp hwrote
      rw [Option.elim_some, hlines', Option.map_some]
      constructor
      · rintro ⟨lines, -, hfile⟩
        cases hfile
        rfl
      · intro heq
        obtain rfl := Option.some.inj heq
        exact ⟨lines', hlines', rfl⟩

/-- **One pass**: what is merged is its generators' own exactly when it is fresh. -/
lemma fresh_iff (hpast : Past s) : Fresh s p ↔ ∀ gen ∈ raws s p, Own s p gen := by
  constructor
  · intro h gen hgen
    obtain ⟨hmem, hcopied, hsome⟩ := mem_raws.mp hgen
    rw [own_iff hpast]
    rcases h gen hmem hcopied with hlast | ⟨hnone, hgone⟩
    · exact hlast
    · rw [generate_eq, hnone, List.getLast?_nil, Option.elim_none, clear] at hsome
      split_ifs at hsome with hclear
      · cases hsome
      · rcases hgone with hclear' | hempty
        · exact absurd hclear' hclear
        · rw [hempty] at hsome
          cases hsome
  · intro h gen hmem hcopied
    by_cases hsome : (generate s p (host fleet gen.1, gen.2)).isSome
    · exact Or.inl ((own_iff hpast).mp (h gen (mem_raws.mpr ⟨hmem, hcopied, hsome⟩)))
    · right
      have hnone : p.writers (host fleet gen.1) gen.2 = [] := by
        by_contra hne
        obtain ⟨hi, hhi⟩ := Option.isSome_iff_exists.mp (List.getLast?_isSome.mpr hne)
        obtain ⟨-, -, hwrote⟩ := mem_writers.mp (List.mem_of_getLast? hhi)
        refine hsome ?_
        rw [generate_eq, hhi, Option.elim_some, Option.isSome_map]
        exact hwrote
      refine ⟨hnone, ?_⟩
      rw [generate_eq, hnone, List.getLast?_nil, Option.elim_none, clear] at hsome
      split_ifs at hsome with hclear
      · exact Or.inl hclear
      · exact Or.inr (Option.not_isSome_iff_eq_none.mp hsome)

end

/-! ## Whole sweeps -/

section

variable {cfg : Config} {s : State} {p : Pass cfg.fleet}

/-- The files of a row, if one is written. -/
lemma rows_pass (cfg : Config) (s : State) (p : Pass cfg.fleet) :
    (pass cfg s p).rows = s.rows ∧ raws s p = [] ∨
      ∃ w : Written, (pass cfg s p).rows = s.rows ++ [w] ∧ w.pass = s.passes ∧
        w.raws = (raws s p).map (fun gen => (gen, copy s p (p.rate, gen))) ∧
        w.row = writeRow cfg p (w.raws.map Prod.snd) := by
  simp only [pass]
  split_ifs with hempty
  · exact Or.inl ⟨rfl, List.map_eq_nil_iff.mp hempty⟩
  · exact Or.inr ⟨_, rfl, rfl, rfl, rfl⟩

/-- A row describes its pass exactly when what it merges is its generators' own. -/
lemma describes_iff {w : Written}
    (hraws : w.raws = (raws s p).map fun gen => (gen, copy s p (p.rate, gen)))
    (hrow : w.row = writeRow cfg p (w.raws.map Prod.snd)) :
    Describes cfg s.passes p w ↔ ∀ gen ∈ raws s p, Own s p gen := by
  constructor
  · intro h gen hgen
    obtain ⟨lines, hwrote, hfile⟩ := h.fresh (gen, copy s p (p.rate, gen))
      (hraws ▸ List.mem_map_of_mem hgen)
    exact ⟨lines, hwrote, copy_eq hgen ▸ hfile⟩
  · intro h
    refine ⟨hrow, fun raw hraw => ?_⟩
    rw [hraws] at hraw
    obtain ⟨gen, hgen, rfl⟩ := List.mem_map.mp hraw
    obtain ⟨lines, hwrote, hfile⟩ := h gen hgen
    exact ⟨lines, hwrote, (copy_eq hgen).trans hfile⟩

lemma past_start (boxes : String × ℕ → Option Lines) (locals : ℕ × ℕ × ℕ → Option Lines) :
    Past (start boxes locals) := by
  intro key file hfile source hsource
  obtain ⟨lines, -, rfl⟩ := Option.map_eq_some_iff.mp hfile
  cases hsource

lemma past_pass (hpast : Past s) : Past (pass cfg s p) := by
  rintro ⟨box, g⟩ file hfile source hsource
  have hfile : generate s p (box, g) = some file := hfile
  rw [generate_eq] at hfile
  cases hlast : (p.writers box g).getLast? with
  | none =>
      rw [hlast, Option.elim_none, clear] at hfile
      split_ifs at hfile
      exact (hpast _ file hfile source hsource).trans (Nat.lt_succ_self _)
  | some hi =>
      rw [hlast, Option.elim_some] at hfile
      obtain ⟨lines, -, rfl⟩ := Option.map_eq_some_iff.mp hfile
      cases hsource
      exact Nat.lt_succ_self _

/-- The rows of a longer sweep: those so far, and the one of the last pass. -/
lemma rowsDescribe_concat {passes : List (Pass cfg.fleet)} (hpast : Past s)
    (hpasses : s.passes = passes.length) (hrows : ∀ w ∈ s.rows, w.pass < s.passes) :
    RowsDescribe cfg (passes ++ [p]) (pass cfg s p) ↔ RowsDescribe cfg passes s ∧ Fresh s p := by
  have hlast : (passes ++ [p])[s.passes]? = some p := by
    rw [hpasses, List.getElem?_concat_length]
  have hold : ∀ w ∈ s.rows, (passes ++ [p])[w.pass]? = passes[w.pass]? := fun w hw =>
    List.getElem?_append_left (hpasses ▸ hrows w hw)
  rw [fresh_iff hpast]
  rcases rows_pass cfg s p with ⟨heq, hnil⟩ | ⟨w, heq, hpass, hraws, hrow⟩
  · simp only [RowsDescribe, heq, hnil, List.not_mem_nil, false_imp_iff, implies_true, and_true]
    exact forall₂_congr fun w hw => by rw [hold w hw]
  · rw [← describes_iff hraws hrow]
    constructor
    · intro h
      constructor
      · intro w' hw'
        obtain ⟨q, hq, hdescribes⟩ := h w' (heq ▸ List.mem_append_left _ hw')
        exact ⟨q, (hold w' hw').symm.trans hq, hdescribes⟩
      · obtain ⟨q, hq, hdescribes⟩ := h w (heq ▸ List.mem_append_right _ List.mem_cons_self)
        rw [hpass] at hq hdescribes
        rw [Option.some.inj (hlast.symm.trans hq)]
        exact hdescribes
    · rintro ⟨h, hdescribes⟩ w' hw'
      rw [heq] at hw'
      rcases List.mem_append.mp hw' with hw' | hw'
      · obtain ⟨q, hq, hdescribes'⟩ := h w' hw'
        exact ⟨q, (hold w' hw').trans hq, hdescribes'⟩
      · rw [List.mem_singleton.mp hw', hpass]
        exact ⟨p, hlast, hdescribes⟩

lemma run_sweep (passes : List (Pass cfg.fleet)) (s : State) :
    (sweep cfg).run s passes = some (passes.foldl (pass cfg) s) := by
  induction passes generalizing s with
  | nil => rfl
  | cons p passes ih => exact ih (pass cfg s p)

/-- **A whole sweep**: every row describes its pass exactly when every pass is fresh. -/
lemma rowsDescribe_iff (boxes : String × ℕ → Option Lines) (locals : ℕ × ℕ × ℕ → Option Lines)
    (passes : List (Pass cfg.fleet)) :
    RowsDescribe cfg passes (passes.foldl (pass cfg) (start boxes locals)) ↔
      (sweep cfg).Along Fresh (start boxes locals) passes := by
  have h := Machine.invariant_trace (M := sweep cfg) (s := start boxes locals)
    (I := fun passes s => Past s ∧ s.passes = passes.length ∧ (∀ w ∈ s.rows, w.pass < s.passes) ∧
      (RowsDescribe cfg passes s ↔ (sweep cfg).Along Fresh (start boxes locals) passes))
    ?_ ?_ (run_sweep passes _)
  · exact h.2.2.2
  · refine ⟨past_start boxes locals, rfl, by simp [start], ?_⟩
    exact iff_of_true (fun w hw => by simp [start] at hw) trivial
  · rintro passes p t t' ht ⟨hpast, hpasses, hrows, hiff⟩ hstep
    obtain rfl : pass cfg t p = t' := Option.some.inj hstep
    refine ⟨past_pass hpast, ?_, ?_, ?_⟩
    · rw [List.length_append, ← hpasses]
      rfl
    · intro w hw
      rcases rows_pass cfg t p with ⟨heq, -⟩ | ⟨w', heq, hpass, -⟩
      · exact (hrows w (heq ▸ hw)).trans (Nat.lt_succ_self _)
      · rw [heq] at hw
        rcases List.mem_append.mp hw with hw | hw
        · exact (hrows w hw).trans (Nat.lt_succ_self _)
        · rw [List.mem_singleton.mp hw, hpass]
          exact Nat.lt_succ_self _
    · rw [rowsDescribe_concat hpast hpasses hrows, Machine.along_concat_of_run ht, hiff]

/-- With every box listed once, only the generator itself writes its file. -/
lemma eq_of_mem_writers (hnodup : cfg.fleet.hosts.Nodup) {gen : ℕ × ℕ}
    (hgen : gen ∈ generators cfg.fleet) {hi : ℕ}
    (h : hi ∈ p.writers (host cfg.fleet gen.1) gen.2) : hi = gen.1 := by
  obtain ⟨hgen', hbox, -⟩ := mem_writers.mp h
  exact host_inj hnodup (mem_generators.mp hgen').1 (mem_generators.mp hgen).1 hbox

lemma clears_of_cleared {gen : ℕ × ℕ} (hgen : gen ∈ generators cfg.fleet)
    (h : p.cleared gen.1 = true) : p.clears (host cfg.fleet gen.1) = true := by
  rw [Pass.clears, List.any_eq_true]
  exact ⟨gen.1, List.mem_range.mpr (mem_generators.mp hgen).1, by simp [h]⟩

/-- With every box listed once, a pass is fresh when each `rm` goes through or is made up for. -/
lemma fresh_of_nodup (hnodup : cfg.fleet.hosts.Nodup) (s : State)
    (h : ∀ gen ∈ generators cfg.fleet, p.cleared gen.1 = true ∨ (p.wrote gen).isSome) :
    Fresh s p := by
  intro gen hgen hcopied
  cases hwriters : p.writers (host cfg.fleet gen.1) gen.2 with
  | cons hi rest =>
      left
      obtain ⟨last, hlast⟩ := Option.isSome_iff_exists.mp
        (List.getLast?_isSome.mpr (List.cons_ne_nil hi rest))
      have hmem : last ∈ p.writers (host cfg.fleet gen.1) gen.2 :=
        hwriters ▸ List.mem_of_getLast? hlast
      rw [hlast, eq_of_mem_writers hnodup hgen hmem]
  | nil =>
      right
      refine ⟨rfl, Or.inl (clears_of_cleared hgen ?_)⟩
      rcases h gen hgen with hcleared | hwrote
      · exact hcleared
      · have hmem := mem_writers.mpr ⟨hgen, rfl, hwrote⟩
        rw [hwriters] at hmem
        cases hmem

end

/-- The gate opens when every gateway accepts a connection in time. -/
lemma sweepGen_eq {cfg : Config} {gateways : List String} {accepts : String → ℕ → Bool}
    (hready : ∀ gw ∈ gateways, ∃ t < 30, accepts gw t = true) (s : State)
    (passes : List (Pass cfg.fleet)) :
    sweepGen cfg gateways accepts s passes = .ok (passes.foldl (pass cfg) s) := by
  have hgate : gateways.find? (fun gw => !(List.range 30).any (accepts gw)) = none := by
    rw [List.find?_eq_none]
    intro gw hgw
    obtain ⟨t, ht, haccepts⟩ := hready gw hgw
    have hany : (List.range 30).any (accepts gw) = true :=
      List.any_eq_true.mpr ⟨t, List.mem_range.mpr ht, haccepts⟩
    simp [hany]
  rw [sweepGen, hgate]

/-- **Every row is about its own pass.**  Behind the gate, for every fleet, every list of rates,
whatever files lie around at the beginning and whatever fails in between: every row merges exactly
the histograms its own generators have written in its pass if and only if every pass is fresh.  With
every box listed once it is enough that in each pass, for every generator, the `rm` of its box goes
through or it writes its file; then a rate never shows the percentiles of another one, however many
generators and copies fail. -/
theorem rows_describe_own_pass (cfg : Config) (gateways : List String) (accepts : String → ℕ → Bool)
    (hready : ∀ gw ∈ gateways, ∃ t < 30, accepts gw t = true)
    (boxes : String × ℕ → Option Lines) (locals : ℕ × ℕ × ℕ → Option Lines)
    (passes : List (Pass cfg.fleet)) :
    ∃ s, sweepGen cfg gateways accepts (start boxes locals) passes = .ok s ∧
      (RowsDescribe cfg passes s ↔ (sweep cfg).Along Fresh (start boxes locals) passes) ∧
      (cfg.fleet.hosts.Nodup →
        (∀ p ∈ passes, ∀ gen ∈ generators cfg.fleet,
          p.cleared gen.1 = true ∨ (p.wrote gen).isSome) →
        RowsDescribe cfg passes s) := by
  refine ⟨_, sweepGen_eq hready _ passes, rowsDescribe_iff boxes locals passes, ?_⟩
  intro hnodup h
  rw [rowsDescribe_iff]
  have hall : ∀ (s : State) (passes' : List (Pass cfg.fleet)), (∀ p ∈ passes', p ∈ passes) →
      (sweep cfg).Along Fresh s passes' := by
    intro s passes' hmem
    induction passes' generalizing s with
    | nil => trivial
    | cons p passes' ih =>
        refine ⟨fresh_of_nodup hnodup s (h p (hmem p List.mem_cons_self)), fun s' _ => ?_⟩
        exact ih s' fun p' hp' => hmem p' (List.mem_cons_of_mem _ hp')
  exact hall _ passes fun p hp => hp

lemma twoHosts_ne : ["10.0.0.1", "10.0.0.2"] ≠ [] := List.cons_ne_nil _ _

/-- One generator on each of two boxes. -/
def exchange : Config where
  prod := "exchange"
  fleet := ⟨["10.0.0.1", "10.0.0.2"], 1, twoHosts_ne, Nat.le_refl 1⟩

/-- A pass in which both generators work. -/
def goodPass : Pass exchange.fleet where
  rate := 1000
  cleared _ := true
  wrote gen := some ["value,count", if gen.1 = 0 then "100,3" else "200,7"]
  ended := [(0, 0), (1, 0)]
  ended_perm := List.Perm.refl _
  copied _ := true

/-- The next pass, in which the second generator fails and the `rm` of the first box as well. -/
def halfPass : Pass exchange.fleet where
  rate := 2000
  cleared hi := hi ≠ 0
  wrote gen := if gen.1 = 0 then some ["value,count", "300,5"] else none
  ended := [(1, 0), (0, 0)]
  ended_perm := List.Perm.swap _ _ _
  copied _ := true

/-- The second row has what the first generator has measured in its pass, and nothing of the pass
before. -/
theorem rows_describe_half_pass :
    ∃ s, sweepGen exchange ["10.0.1.1:9001"] (fun _ t => t = 3)
        (start (fun _ => none) fun _ => none) [goodPass, halfPass] = .ok s ∧
      s.rows.map (fun w => (w.row.rate, w.row.p50)) = [(1000, some 200), (2000, some 300)] ∧
      RowsDescribe exchange [goodPass, halfPass] s := by
  obtain ⟨s, hs, -, hown⟩ := rows_describe_own_pass exchange ["10.0.1.1:9001"]
    (fun _ t => t = 3) (fun gw _ => ⟨3, by decide, by decide⟩) (fun _ => none) (fun _ => none)
    [goodPass, halfPass]
  have hrows : (sweepGen exchange ["10.0.1.1:9001"] (fun _ t => t = 3)
      (start (fun _ => none) fun _ => none) [goodPass, halfPass]).toOption.map
        (fun s => s.rows.map fun w => (w.row.rate, w.row.p50))
      = some [(1000, some 200), (2000, some 300)] := by
    decide +kernel
  rw [hs] at hrows
  refine ⟨s, hs, Option.some.inj hrows, hown (by decide) ?_⟩
  decide +kernel

/-! ## The sessions -/

/-- What a generator is started with, apart from its rate. -/
structure Session where
  host : String
  gateway : String
  senderCompId : List Char
  clientId : ℕ
  hdrRawOut : List Char
  deriving DecidableEq, Repr

/-- The generator that is started as number `id`; `gateways` is `GWS`. -/
def session (fleet : Fleet) (gateways : List String) (id : ℕ) (gen : ℕ × ℕ) : Session where
  host := host fleet gen.1
  gateway := gateways.getD (id % gateways.length) ""
  senderCompId := 'S' :: (printNat gen.1 ++ '_' :: printNat gen.2)
  clientId := id + 1
  hdrRawOut := "/tmp/gen_".toList ++ (printNat gen.2 ++ ".csv".toList)

def sessions (fleet : Fleet) (gateways : List String) : List Session :=
  (generators fleet).mapIdx (session fleet gateways)

lemma length_generators (fleet : Fleet) : (generators fleet).length = fleet.total := by
  simp [generators, Fleet.total]

lemma nodup_generators (fleet : Fleet) : (generators fleet).Nodup := by
  rw [generators, List.nodup_flatMap]
  refine ⟨fun hi _ => List.nodup_range.map fun g g' h => (Prod.mk.inj h).2, ?_⟩
  refine List.nodup_range.imp fun hne gen hgen hgen' => ?_
  obtain ⟨g, -, rfl⟩ := List.mem_map.mp hgen
  obtain ⟨g', -, h⟩ := List.mem_map.mp hgen'
  exact hne (Prod.mk.inj h).1.symm

/-- What depends on the generator alone. -/
lemma sessions_map {fleet : Fleet} {gateways : List String} {α : Type} {f : Session → α}
    {f' : ℕ × ℕ → α} (h : ∀ id gen, f (session fleet gateways id gen) = f' gen) :
    (sessions fleet gateways).map f = (generators fleet).map f' := by
  refine List.ext_getElem? fun i => ?_
  simp [sessions, h, Function.comp_def]

/-- A number behind a fixed text and in front of something that is no digit can be read back. -/
lemma printNat_append_inj {m n : ℕ} {rest rest' : List Char} (hrest : EndsNumber rest)
    (hrest' : EndsNumber rest') (h : printNat m ++ rest = printNat n ++ rest') :
    m = n ∧ rest = rest' := by
  have hread := readNat_printNat m hrest
  rw [h, readNat_printNat n hrest', Option.some.injEq, Prod.mk.injEq] at hread
  exact ⟨hread.1.symm, hread.2.symm⟩

lemma endsNumber_nil : EndsNumber [] := by
  rintro c ⟨⟩

lemma nodup_senderCompId (fleet : Fleet) (gateways : List String) :
    ((sessions fleet gateways).map Session.senderCompId).Nodup := by
  rw [sessions_map fun _ _ => rfl]
  refine (nodup_generators fleet).map ?_
  rintro ⟨hi, g⟩ ⟨hi', g'⟩ h
  have hends : ∀ n : ℕ, EndsNumber ('_' :: printNat n) := by
    rintro n c ⟨⟩
    decide
  obtain ⟨rfl, hrest⟩ := printNat_append_inj (hends g) (hends g') (List.cons.inj h).2
  have hg : printNat g ++ [] = printNat g' ++ [] := by
    rw [List.append_nil, List.append_nil, (List.cons.inj hrest).2]
  rw [(printNat_append_inj endsNumber_nil endsNumber_nil hg).1]

lemma nodup_hdrRawOut {fleet : Fleet} (hnodup : fleet.hosts.Nodup) (gateways : List String) :
    ((sessions fleet gateways).map fun s => (s.host, s.hdrRawOut)).Nodup := by
  have hmap : (sessions fleet gateways).map (fun s => (s.host, s.hdrRawOut))
      = (generators fleet).map fun gen =>
          (host fleet gen.1, "/tmp/gen_".toList ++ (printNat gen.2 ++ ".csv".toList)) :=
    sessions_map fun _ _ => rfl
  rw [hmap]
  refine List.Nodup.map_on ?_ (nodup_generators fleet)
  rintro ⟨hi, g⟩ hgen ⟨hi', g'⟩ hgen' h
  obtain ⟨hhost, hraw⟩ := Prod.mk.inj h
  have hends : EndsNumber ".csv".toList := by
    rintro c ⟨⟩
    decide
  have hhi : hi = hi' :=
    host_inj hnodup (mem_generators.mp hgen).1 (mem_generators.mp hgen').1 hhost
  have hg : g = g' := (printNat_append_inj hends hends (List.append_cancel_left hraw)).1
  rw [hhi, hg]

/-- What depends on the number alone. -/
lemma sessions_map_id {fleet : Fleet} {gateways : List String} {α : Type} {f : Session → α}
    {f' : ℕ → α} (h : ∀ id gen, f (session fleet gateways id gen) = f' id) :
    (sessions fleet gateways).map f = (List.range fleet.total).map f' := by
  refine List.ext_getElem? fun i => ?_
  rw [← length_generators]
  by_cases hi : i < (generators fleet).length
  · simp [sessions, h, hi]
  · simp [sessions, hi]

lemma gateway_iff {gateways : List String} (hnodup : gateways.Nodup) {k : ℕ} {gw : String}
    (hk : gateways[k]? = some gw) (id : ℕ) :
    gateways.getD (id % gateways.length) "" = gw ↔ id % gateways.length = k := by
  obtain ⟨hlt, hgw⟩ := List.getElem?_eq_some_iff.mp hk
  have hmod : id % gateways.length < gateways.length := Nat.mod_lt _ (by omega)
  rw [List.getD_eq_getElem _ _ hmod, ← hgw]
  exact hnodup.getElem_inj_iff

lemma count_gateway {fleet : Fleet} {gateways : List String} (hnodup : gateways.Nodup) {k : ℕ}
    {gw : String} (hk : gateways[k]? = some gw) :
    ((sessions fleet gateways).map Session.gateway).count gw
      = fleet.total / gateways.length + if k < fleet.total % gateways.length then 1 else 0 := by
  have hlt := (List.getElem?_eq_some_iff.mp hk).1
  have hmap : (sessions fleet gateways).map Session.gateway
      = (List.range fleet.total).map fun id => gateways.getD (id % gateways.length) "" :=
    sessions_map_id fun _ _ => rfl
  rw [hmap, List.count_eq_countP, List.countP_map]
  have hmod := Nat.count_modEq_card fleet.total (show 0 < gateways.length by omega) k
  rw [Nat.mod_eq_of_lt hlt] at hmod
  rw [← hmod, Nat.count]
  refine List.countP_congr fun id _ => ?_
  simp only [Function.comp_apply, beq_iff_eq, decide_eq_true_eq, gateway_iff hnodup hk,
    Nat.ModEq, Nat.mod_eq_of_lt hlt]

/-- **The sessions are told apart and spread evenly.**  For every fleet and every list of gateways:
no two generators have the same sender id, their client ids count from one, and no two of them write
the same raw file of a box that is listed once; a gateway gets its share of the sessions, rounded
down or, for the first ones, up. -/
theorem sessions_spread (fleet : Fleet) (gateways : List String) :
    ((sessions fleet gateways).map Session.senderCompId).Nodup ∧
      (sessions fleet gateways).map Session.clientId = (List.range fleet.total).map (· + 1) ∧
      (fleet.hosts.Nodup →
        ((sessions fleet gateways).map fun s => (s.host, s.hdrRawOut)).Nodup) ∧
      (gateways.Nodup → ∀ k gw, gateways[k]? = some gw →
        ((sessions fleet gateways).map Session.gateway).count gw
          = fleet.total / gateways.length +
            if k < fleet.total % gateways.length then 1 else 0) := by
  refine ⟨nodup_senderCompId fleet gateways, sessions_map_id fun _ _ => rfl, ?_, ?_⟩
  · exact fun hnodup => nodup_hdrRawOut hnodup gateways
  · exact fun hnodup k gw hk => count_gateway hnodup hk

end RaftBench.Sweep.Gen

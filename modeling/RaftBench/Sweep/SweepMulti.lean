import Mathlib.Logic.Function.Basic
import RaftBench.Lib.Machine
import RaftBench.Sweep.MergeHdr

/-!
# A sweep over several client boxes

For every rate `sweep-multi.sh` runs a load generator on each client box, waits for all of them,
copies every box's `/tmp/raw.csv` to a local file named after the rate and the client, merges the
local files and appends one row to the CSV.  Nothing removes a file.  A generator that fails leaves
the raw file of an earlier iteration on its box, and a copy that fails leaves the local file of an
earlier iteration with the same rate, or of an earlier sweep; `merge-hdr.py` cannot tell them from
new ones.

A run of the machine `sweepMulti` is a list of iterations, each with a rate and an arbitrary outcome
for every client.  Each file carries the iteration that wrote it, which no modelled code reads.
`rows_describe_iff` says in which sweeps every row is about its own iteration: those in which each
iteration is `Clean`.
-/

namespace RaftBench.Sweep

variable {n : ℕ}

/-! ## The machine -/

/-- A raw histogram file, with the iteration that wrote it, or `none` if it was there before. -/
structure RawFile where
  lines : Lines
  writtenIn : Option ℕ
  deriving DecidableEq, Repr

/-- What the row of every rate carries. -/
structure Config where
  prod : String
  fleet : String := "unrecorded"
  deriving DecidableEq, Repr

/-- One pass of the loop over the rates: what every client's generator and every copy did, and the
figures found in the clients' logs. -/
structure Iteration (n : ℕ) where
  rate : ℕ
  /-- the raw file written on the box, if the generator gets that far -/
  wrote : Fin n → Option Lines
  /-- whether the `scp` goes through -/
  copied : Fin n → Bool
  achieved : Fin n → Option ℕ := fun _ => none
  dropped : Fin n → Option ℕ := fun _ => none
  lag : Fin n → Option ℕ := fun _ => none

/-- A line of the CSV; a percentile is `none` where the column is empty. -/
structure Row where
  prod : String
  rate : ℕ
  achieved : ℕ
  p50 : Option ℕ
  p90 : Option ℕ
  p99 : Option ℕ
  p999 : Option ℕ
  max : Option ℕ
  dropped : ℕ
  lag : ℕ
  fleet : String
  deriving DecidableEq, Repr

/-- A row, and the local files it was computed from. -/
structure Written (n : ℕ) where
  row : Row
  raws : Fin n → Option RawFile

structure SweepState (n : ℕ) where
  /-- `/tmp/raw.csv` on every box -/
  remote : Fin n → Option RawFile
  /-- `/tmp/multi_<prod>_<rate>_<i>.csv` -/
  raws : ℕ → Fin n → Option RawFile
  rows : List (Written n) := []

/-- The beginning of a sweep, over whatever files are lying around. -/
def start (remote : Fin n → Option Lines) (raws : ℕ → Fin n → Option Lines) : SweepState n where
  remote i := (remote i).map fun lines => ⟨lines, none⟩
  raws r i := (raws r i).map fun lines => ⟨lines, none⟩

/-- The files on the boxes when all generators have ended. -/
def SweepState.generated (s : SweepState n) (it : Iteration n) (i : Fin n) : Option RawFile :=
  match it.wrote i with
  | some lines => some ⟨lines, some s.rows.length⟩
  | none => s.remote i

/-- The local files of this rate when all copies have ended.  A copy also fails, and leaves the
local file alone, when there is nothing to copy. -/
def SweepState.copied (s : SweepState n) (it : Iteration n) (i : Fin n) : Option RawFile :=
  match it.copied i, s.generated it i with
  | true, some file => some file
  | _, _ => s.raws it.rate i

/-- `g`: the digits of a `merged_` line, and nothing for a negative number. -/
def g (figure : ℤ) : Option ℕ := if 0 ≤ figure then some figure.toNat else none

/-- The files handed to `merge-hdr.py`, as it reads them. -/
def contents (raws : Fin n → Option RawFile) : List (Option Lines) :=
  List.ofFn fun i => (raws i).map RawFile.lines

def writeRow (cfg : Config) (it : Iteration n) (raws : Fin n → Option RawFile) : Row :=
  let m := main (contents raws)
  { prod := cfg.prod
    rate := it.rate
    achieved := (List.ofFn fun i => (it.achieved i).getD 0).sum
    p50 := m.bind fun r => g r.p50
    p90 := m.bind fun r => g r.p90
    p99 := m.bind fun r => g r.p99
    p999 := m.bind fun r => g r.p999
    max := m.bind fun r => g r.max
    dropped := (List.ofFn fun i => (it.dropped i).getD 0).sum
    lag := (List.ofFn fun i => (it.lag i).getD 0).foldl Nat.max 0
    fleet := cfg.fleet }

def sweepStep (cfg : Config) (s : SweepState n) (it : Iteration n) : Option (SweepState n) :=
  -- `R / N` ends the loop when there is no client
  if n = 0 then none
  else some {
    remote := s.generated it
    raws := Function.update s.raws it.rate (s.copied it)
    rows := s.rows ++ [⟨writeRow cfg it (s.copied it), s.copied it⟩] }

def sweepMulti (cfg : Config) : Machine (SweepState n) (Iteration n) where
  step := sweepStep cfg

/-! ## What a row should say -/

/-- At least one of the percentile columns is filled in. -/
def Row.HasPercentiles (row : Row) : Prop :=
  ∃ p ∈ [row.p50, row.p90, row.p99, row.p999, row.max], p.isSome

/-- The row describes iteration `k`: it is computed from its files, and if it has percentiles then
these files are, for every client, the one its generator wrote in that iteration. -/
structure Describes (cfg : Config) (k : ℕ) (it : Iteration n) (w : Written n) : Prop where
  computed : w.row = writeRow cfg it w.raws
  fresh : w.row.HasPercentiles → ∀ i, ∃ lines, it.wrote i = some lines ∧
    w.raws i = some ⟨lines, some k⟩

/-- Every row describes the iteration it is labelled with. -/
def RowsDescribe (cfg : Config) (its : List (Iteration n)) (s : SweepState n) : Prop :=
  ∀ k it w, its[k]? = some it → s.rows[k]? = some w → Describes cfg k it w

/-- The files make `merge-hdr.py` print a figure that `g` picks up: all are there and readable,
there are samples, and not all values are negative. -/
def Reportable (files : List (Option Lines)) : Prop :=
  ∃ histograms ∈ loadAll files,
    totalCount histograms.flatten ≠ 0 ∧ ∃ b ∈ histograms.flatten, 0 ≤ b.value

/-- The iteration is clean: every generator writes its file and every copy goes through, or what the
copies leave behind does not amount to percentiles. -/
def Clean (s : SweepState n) (it : Iteration n) : Prop :=
  (∀ i, (it.wrote i).isSome ∧ it.copied i = true) ∨ ¬ Reportable (contents (s.copied it))

/-! ## One iteration -/

/-- The file was not written in iteration `k` or later. -/
def OlderThan (k : ℕ) (file : RawFile) : Prop := ∀ j ∈ file.writtenIn, j < k

/-- No file is from an iteration that has yet to come. -/
structure Past (s : SweepState n) : Prop where
  remote : ∀ i, ∀ file ∈ s.remote i, OlderThan s.rows.length file
  raws : ∀ r i, ∀ file ∈ s.raws r i, OlderThan s.rows.length file

lemma past_start (remote : Fin n → Option Lines) (raws : ℕ → Fin n → Option Lines) :
    Past (start remote raws) := by
  constructor
  · intro i file hfile
    obtain ⟨lines, -, rfl⟩ := Option.map_eq_some_iff.mp hfile
    rintro j ⟨⟩
  · intro r i file hfile
    obtain ⟨lines, -, rfl⟩ := Option.map_eq_some_iff.mp hfile
    rintro j ⟨⟩

/-- A file on a box is this iteration's, or an old one. -/
lemma generated_cases {s : SweepState n} {it : Iteration n} {i : Fin n} {file : RawFile}
    (h : s.generated it i = some file) :
    (it.wrote i = some file.lines ∧ file.writtenIn = some s.rows.length) ∨
      (it.wrote i = none ∧ s.remote i = some file) := by
  rw [SweepState.generated] at h
  split at h
  case h_1 lines hwrote =>
      obtain rfl := Option.some.inj h
      exact Or.inl ⟨hwrote, rfl⟩
  case h_2 hwrote => exact Or.inr ⟨hwrote, h⟩

/-- A local file is what was copied, or an old one. -/
lemma copied_cases {s : SweepState n} {it : Iteration n} {i : Fin n} {file : RawFile}
    (h : s.copied it i = some file) :
    (it.copied i = true ∧ s.generated it i = some file) ∨ s.raws it.rate i = some file := by
  rw [SweepState.copied] at h
  split at h
  case h_1 hcopied hgenerated => exact Or.inl ⟨hcopied, hgenerated.trans h⟩
  case h_2 => exact Or.inr h

/-- **Where a local file comes from.**  It is this iteration's exactly when the generator wrote it
and the copy went through. -/
lemma fresh_iff {s : SweepState n} (hpast : Past s) (it : Iteration n) (i : Fin n) :
    (∃ lines, it.wrote i = some lines ∧
        s.copied it i = some ⟨lines, some s.rows.length⟩) ↔
      (it.wrote i).isSome ∧ it.copied i = true := by
  constructor
  · rintro ⟨lines, hwrote, hcopied⟩
    refine ⟨by rw [hwrote]; rfl, ?_⟩
    rcases copied_cases hcopied with ⟨h, -⟩ | hold
    · exact h
    · exact absurd (hpast.raws _ _ _ hold _ rfl) (lt_irrefl _)
  · rintro ⟨hwrote, hcopied⟩
    obtain ⟨lines, hlines⟩ := Option.isSome_iff_exists.mp hwrote
    refine ⟨lines, hlines, ?_⟩
    simp only [SweepState.copied, SweepState.generated, hcopied, hlines]

lemma g_isSome {figure : ℤ} : (g figure).isSome ↔ 0 ≤ figure := by
  rw [g]
  split_ifs with h <;> simp [h]

lemma hasPercentiles_iff_figures {cfg : Config} {it : Iteration n}
    {raws : Fin n → Option RawFile} :
    (writeRow cfg it raws).HasPercentiles ↔
      ∃ r, main (contents raws) = some r ∧ ∃ v ∈ r.figures, 0 ≤ v := by
  cases hmain : main (contents raws) with
  | none => simp [Row.HasPercentiles, writeRow, hmain]
  | some r => simp [Row.HasPercentiles, writeRow, hmain, Report.figures, g_isSome]

/-- **When a row has percentiles.** -/
lemma hasPercentiles_iff (cfg : Config) (it : Iteration n) (raws : Fin n → Option RawFile) :
    (writeRow cfg it raws).HasPercentiles ↔ Reportable (contents raws) := by
  rw [hasPercentiles_iff_figures]
  constructor
  · rintro ⟨r, hmain, v, hv, hnonneg⟩
    obtain ⟨histograms, lines, hload, hmerged⟩ := main_eq_some hmain
    obtain ⟨htotal, hmem, -⟩ := mergedReport_figures hmerged
    obtain ⟨b, hb, rfl⟩ := hmem v hv
    exact ⟨histograms, hload, htotal, b, hb, hnonneg⟩
  · rintro ⟨histograms, hload, htotal, b, hb, hnonneg⟩
    obtain ⟨r, hmain⟩ :=
      Option.isSome_iff_exists.mp ((main_isSome_iff _).mpr ⟨histograms, hload, htotal⟩)
    obtain ⟨histograms', lines, hload', hmerged⟩ := main_eq_some hmain
    obtain rfl : histograms = histograms' := Option.some.inj (hload.symm.trans hload')
    refine ⟨r, hmain, r.max, by simp [Report.figures], ?_⟩
    exact hnonneg.trans ((mergedReport_figures hmerged).2.2 b hb)

/-- **One iteration.**  The row it writes describes it exactly when it is clean. -/
lemma describes_iff_clean (cfg : Config) {s : SweepState n} (hpast : Past s) (it : Iteration n) :
    Describes cfg s.rows.length it ⟨writeRow cfg it (s.copied it), s.copied it⟩ ↔ Clean s it := by
  have hfresh : (∀ i, ∃ lines, it.wrote i = some lines ∧
      s.copied it i = some ⟨lines, some s.rows.length⟩) ↔
        ∀ i, (it.wrote i).isSome ∧ it.copied i = true :=
    forall_congr' fun i => fresh_iff hpast it i
  rw [Clean, ← hfresh, ← hasPercentiles_iff cfg it, or_comm, ← imp_iff_not_or]
  exact ⟨fun h => h.fresh, fun h => ⟨rfl, h⟩⟩

/-! ## Whole sweeps -/

lemma step_eq {cfg : Config} {s s' : SweepState n} {it : Iteration n}
    (h : (sweepMulti cfg).step s it = some s') :
    s' = ⟨s.generated it, Function.update s.raws it.rate (s.copied it),
      s.rows ++ [⟨writeRow cfg it (s.copied it), s.copied it⟩]⟩ := by
  simp only [sweepMulti, sweepStep] at h
  split_ifs at h
  exact (Option.some.inj h).symm

lemma OlderThan.succ {k : ℕ} {file : RawFile} (h : OlderThan k file) : OlderThan (k + 1) file :=
  fun j hj => Nat.lt_succ_of_lt (h j hj)

lemma past_step {cfg : Config} {s s' : SweepState n} {it : Iteration n} (hpast : Past s)
    (h : (sweepMulti cfg).step s it = some s') : Past s' := by
  have hgenerated (i : Fin n) (file : RawFile) (hfile : s.generated it i = some file) :
      OlderThan (s.rows.length + 1) file := by
    rcases generated_cases hfile with ⟨-, hin⟩ | ⟨-, hold⟩
    · intro j hj
      obtain rfl : s.rows.length = j := Option.some.inj (hin.symm.trans hj)
      exact Nat.lt_succ_self _
    · exact (hpast.remote i file hold).succ
  have hlen : s'.rows.length = s.rows.length + 1 := by
    rw [step_eq h, List.length_append]
    rfl
  obtain rfl := step_eq h
  constructor
  · intro i file hfile
    rw [hlen]
    exact hgenerated i file hfile
  · intro r i file hfile
    have hfile : Function.update s.raws it.rate (s.copied it) r i = some file := hfile
    rw [hlen]
    by_cases hr : r = it.rate
    · subst hr
      rw [Function.update_self] at hfile
      rcases copied_cases hfile with ⟨-, hnew⟩ | hold
      · exact hgenerated i file hnew
      · exact (hpast.raws _ i file hold).succ
    · rw [Function.update_of_ne hr] at hfile
      exact (hpast.raws r i file hfile).succ

/-- The rows of a longer sweep are the rows so far and the last one. -/
lemma rowsDescribe_concat {cfg : Config} {its : List (Iteration n)} {it : Iteration n}
    {s s' : SweepState n} {w : Written n} (hlen : s.rows.length = its.length)
    (hrows : s'.rows = s.rows ++ [w]) :
    RowsDescribe cfg (its ++ [it]) s' ↔
      RowsDescribe cfg its s ∧ Describes cfg its.length it w := by
  constructor
  · intro h
    refine ⟨?_, h its.length it w (by simp) (by simp [hrows, ← hlen])⟩
    intro k it' w' hk hw
    have hlt : k < its.length := (List.getElem?_eq_some_iff.mp hk).1
    refine h k it' w' ?_ ?_
    · rwa [List.getElem?_append_left hlt]
    · rwa [hrows, List.getElem?_append_left (hlen ▸ hlt)]
  · rintro ⟨h, hlast⟩ k it' w' hk hw
    rw [hrows] at hw
    by_cases hlt : k < its.length
    · rw [List.getElem?_append_left hlt] at hk
      rw [List.getElem?_append_left (hlen ▸ hlt)] at hw
      exact h k it' w' hk hw
    · have hend : k = its.length := by
        have := (List.getElem?_eq_some_iff.mp hk).1
        simp only [List.length_append, List.length_singleton] at this
        omega
      subst hend
      simp only [List.getElem?_concat_length, Option.some.injEq] at hk
      rw [← hlen, List.getElem?_concat_length, Option.some.injEq] at hw
      exact hk ▸ hw ▸ hlast

/-- The sweep goes through all rates. -/
lemma run_isSome (cfg : Config) (hn : 0 < n) (s : SweepState n) (its : List (Iteration n)) :
    ∃ s', (sweepMulti cfg).run s its = some s' := by
  induction its generalizing s with
  | nil => exact ⟨s, rfl⟩
  | cons it its ih =>
      obtain ⟨s', hs'⟩ : ∃ s', (sweepMulti cfg).step s it = some s' := by
        simp only [sweepMulti, sweepStep, if_neg hn.ne']
        exact ⟨_, rfl⟩
      obtain ⟨t, ht⟩ := ih s'
      exact ⟨t, by rw [Machine.run_cons, hs', Option.bind_some, ht]⟩

/-- **When every row is about its own run.**  For every number of clients, every list of rates,
whatever files lie around at the beginning and whatever fails in between, the sweep goes through and
writes one row a rate; every row describes the iteration it is labelled with exactly when every
iteration is clean. -/
theorem rows_describe_iff (cfg : Config) (n : ℕ) (hn : 0 < n) (remote : Fin n → Option Lines)
    (raws : ℕ → Fin n → Option Lines) (its : List (Iteration n)) :
    ∃ s, (sweepMulti cfg).run (start remote raws) its = some s ∧ s.rows.length = its.length ∧
      (RowsDescribe cfg its s ↔ (sweepMulti cfg).Along Clean (start remote raws) its) := by
  obtain ⟨s, hrun⟩ := run_isSome cfg hn (start remote raws) its
  refine ⟨s, hrun, ?_⟩
  refine And.right (a := Past s) ?_
  refine Machine.invariant_trace (I := fun its s => Past s ∧ s.rows.length = its.length ∧
    (RowsDescribe cfg its s ↔ (sweepMulti cfg).Along Clean (start remote raws) its)) ?_ ?_ hrun
  · refine ⟨past_start remote raws, rfl, ?_⟩
    exact iff_of_true (fun k it w hk => by simp at hk) trivial
  · rintro its it t t' ht ⟨hpast, hlen, hiff⟩ hstep
    have hrows := congrArg SweepState.rows (step_eq hstep)
    refine ⟨past_step hpast hstep, by simp [hrows, hlen], ?_⟩
    rw [rowsDescribe_concat hlen hrows, Machine.along_concat_of_run ht, hiff, ← hlen,
      describes_iff_clean cfg hpast it]

def sequencer : Config := { prod := "sequencer" }

/-- A run of one client in which everything works. -/
def goodRun (rate : ℕ) : Iteration 1 where
  rate := rate
  wrote := fun _ => some ["value,count", "100,5"]
  copied := fun _ => true

/-- A run of one client whose generator fails. -/
def failedRun (rate : ℕ) : Iteration 1 where
  rate := rate
  wrote := fun _ => none
  copied := fun _ => true

/-- The row of a run that works has the percentiles of that run. -/
theorem rows_describe_good_run :
    0 < 1 ∧ ∃ s, (sweepMulti sequencer).run
        (start (fun _ => none) fun _ _ => none) [goodRun 1000] = some s ∧
      s.rows.map (fun w => w.row.p50) = [some 100] ∧
        RowsDescribe sequencer [goodRun 1000] s := by
  obtain ⟨s, hrun, -, hiff⟩ := rows_describe_iff sequencer 1 (by decide)
    (fun _ => none) (fun _ _ => none) [goodRun 1000]
  have hrow : ((sweepMulti sequencer).run (start (fun _ => none) fun _ _ => none)
      [goodRun 1000]).map (fun s => s.rows.map fun w => w.row.p50) = some [some 100] := by
    decide +kernel
  rw [hrun, Option.map_some, Option.some.injEq] at hrow
  refine ⟨by decide, s, hrun, hrow, hiff.mpr ⟨Or.inl fun i => ⟨rfl, rfl⟩, ?_⟩⟩
  exact fun _ _ => trivial

/-- A run that fails is reported with the percentiles of the run before it. -/
theorem failed_run_reports_previous :
    ∃ s, (sweepMulti sequencer).run
        (start (fun _ => none) fun _ _ => none) [goodRun 1000, failedRun 2000] = some s ∧
      s.rows.map (fun w => (w.row.rate, w.row.p50)) = [(1000, some 100), (2000, some 100)] ∧
        ¬ RowsDescribe sequencer [goodRun 1000, failedRun 2000] s := by
  have hrows : ((sweepMulti sequencer).run (start (fun _ => none) fun _ _ => none)
      [goodRun 1000, failedRun 2000]).map
        (fun s => s.rows.map fun w => (w.row.rate, w.row.p50)) =
      some [(1000, some 100), (2000, some 100)] := by
    decide +kernel
  obtain ⟨s, hrun, hs⟩ := Option.map_eq_some_iff.mp hrows
  refine ⟨s, hrun, hs, ?_⟩
  intro hdescribe
  obtain ⟨w, hw, hlast⟩ : ∃ w, s.rows[1]? = some w ∧
      (w.row.rate, w.row.p50) = (2000, some 100) := by
    have h : (s.rows.map fun w => (w.row.rate, w.row.p50))[1]? = some (2000, some 100) := by
      rw [hs]
      rfl
    rwa [List.getElem?_map, Option.map_eq_some_iff] at h
  have hp50 : w.row.p50.isSome := by
    rw [(Prod.mk.inj hlast).2]
    rfl
  obtain ⟨lines, hwrote, -⟩ := (hdescribe 1 (failedRun 2000) w rfl hw).fresh
    ⟨_, List.mem_cons_self .., hp50⟩ 0
  exact absurd hwrote (by simp [failedRun])

end RaftBench.Sweep

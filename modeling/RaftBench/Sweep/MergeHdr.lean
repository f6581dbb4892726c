import Mathlib.Algebra.BigOperators.Group.List.Basic
import Mathlib.Data.List.Pairwise
import Mathlib.Data.List.Sort
import Mathlib.Data.List.DropRight
import Mathlib.Data.Prod.Lex
import Mathlib.Data.Rat.Cast.Order
import RaftBench.Lib.Decimal

/-!
# Merging raw histograms

`merge-hdr.py` reads the raw histogram of every client, one `value,count` line a bucket, and reports
percentiles of all of them together: the buckets are concatenated, sorted, and walked until the
running count reaches the rank asked for.

* `load`, `percentile`, `summarise` and `main` are the functions of the script, on files given by
  their lines.  A file that is not there, or that does not parse, raises, and the script prints no
  merged figure.
* `mergedReport_figures` — the figures are values of the files, and none exceeds the maximum.
* `main_isSome_iff` — when there are figures at all.

The rank of a percentile is the exact rational `total * pct / 100`.
-/

namespace RaftBench.Sweep

/-! ## Reading a file -/

/-- A `(value, count)` pair, ordered as Python orders tuples. -/
abbrev Bucket := ℤ ×ₗ ℤ

def Bucket.value (b : Bucket) : ℤ := (ofLex b).1

def Bucket.count (b : Bucket) : ℤ := (ofLex b).2

/-- `str.isspace`, for one character. -/
def isSpace (c : Char) : Bool :=
  (9 ≤ c.toNat && c.toNat ≤ 13) || (28 ≤ c.toNat && c.toNat ≤ 32) || c.toNat == 0x85 ||
    c.toNat == 0xa0 || c.toNat == 0x1680 || (0x2000 ≤ c.toNat && c.toNat ≤ 0x200a) ||
    c.toNat == 0x2028 || c.toNat == 0x2029 || c.toNat == 0x202f || c.toNat == 0x205f ||
    c.toNat == 0x3000

/-- `str.strip()`. -/
def strip (s : List Char) : List Char := (s.dropWhile isSpace).rdropWhile isSpace

/-- Groups of digits joined by single underscores, as `int` takes them. -/
def digits (s : List Char) : Option ℕ :=
  if [] ∈ s.splitOn '_' then none else Decimal.ofDigits (s.filter (· ≠ '_'))

/-- `int(s)`; `none` where it raises `ValueError`. -/
def int (s : List Char) : Option ℤ :=
  match strip s with
  | '-' :: cs => (digits cs).map fun n => -(n : ℤ)
  | '+' :: cs => (digits cs).map fun n => (n : ℤ)
  | cs => (digits cs).map fun n => (n : ℤ)

/-- The lines of a file. -/
abbrev Lines := List String

/-- The buckets of a file; `none` where a line raises. -/
def load : Lines → Option (List Bucket)
  | [] => some []
  | line :: lines =>
      let line := strip line.toList
      if line = [] ∨ "value".toList.isPrefixOf line then load lines
      else
        match line.splitOn ',' with
        | [value, count] => do
            let value ← int value
            let count ← int count
            let buckets ← load lines
            return toLex (value, count) :: buckets
        -- the unpacking `value, count = line.split(",")` wants exactly two parts
        | _ => none

/-! ## Percentiles -/

/-- The loop of `percentile`: the first value at which the running count reaches the target. -/
def reach (target : ℚ) : ℤ → List Bucket → Option ℤ
  | _, [] => none
  | seen, b :: buckets =>
      if target ≤ ((seen + b.count : ℤ) : ℚ) then some b.value
      else reach target (seen + b.count) buckets

/-- `percentile`; `none` where `sorted_buckets[-1]` raises `IndexError`. -/
def percentile (sortedBuckets : List Bucket) (total : ℤ) (pct : ℚ) : Option ℤ :=
  if total = 0 then some 0
  else
    match reach (total * pct / 100) 0 sortedBuckets with
    | some value => some value
    | none => sortedBuckets.getLast?.map Bucket.value

/-- The sum of the counts. -/
def totalCount (buckets : List Bucket) : ℤ := (buckets.map Bucket.count).sum

def summarise (buckets : List Bucket) : List Bucket × ℤ :=
  (buckets.insertionSort (· ≤ ·), totalCount buckets)

/-! ## The script -/

/-- The line printed for one file. -/
structure FileLine where
  count : ℤ
  p50 : ℤ
  p99 : ℤ
  deriving DecidableEq, Repr

/-- What the script prints: a line for each file and the `merged_` figures. -/
structure Report where
  files : List FileLine
  count : ℤ
  p50 : ℤ
  p90 : ℤ
  p99 : ℤ
  p999 : ℤ
  max : ℤ
  deriving DecidableEq, Repr

def fileLine (buckets : List Bucket) : Option FileLine := do
  let (buckets, total) := summarise buckets
  let p50 ← percentile buckets total 50
  let p99 ← percentile buckets total 99
  return { count := total, p50 := p50, p99 := p99 }

/-- The histograms of all files; `none` when one of them cannot be opened or read. -/
def loadAll (files : List (Option Lines)) : Option (List (List Bucket)) :=
  files.mapM fun file => file.bind load

/-- The last part of `main`, over the merged buckets. -/
def mergedReport (lines : List FileLine) (merged : List Bucket) : Option Report :=
  let (buckets, total) := summarise merged
  -- "no samples"
  if total = 0 then none
  else do
    let p50 ← percentile buckets total 50
    let p90 ← percentile buckets total 90
    let p99 ← percentile buckets total 99
    let p999 ← percentile buckets total (999 / 10)
    let max ← buckets.getLast?.map Bucket.value
    return {
      files := lines, count := total, p50 := p50, p90 := p90, p99 := p99, p999 := p999, max := max }

/-- `main`; `none` when the script ends without printing a merged figure: no file given, a file
that raises, or no sample. -/
def main (files : List (Option Lines)) : Option Report :=
  if files = [] then none
  else do
    let histograms ← loadAll files
    let lines ← histograms.mapM fileLine
    mergedReport lines (histograms.map fun buckets => (summarise buckets).1).flatten

example : (main [some ["value,count", "100,9", " 2_000,1 "], some ["", "150,10"]]).map
    (fun r => (r.count, r.p50, r.p99, r.max)) = some (20, 150, 2000, 2000) := by
  decide +kernel

/-! ## Which figures are printed -/

lemma reach_mem {target : ℚ} {buckets : List Bucket} {seen v : ℤ}
    (h : reach target seen buckets = some v) : ∃ b ∈ buckets, b.value = v := by
  induction buckets generalizing seen with
  | nil => simp [reach] at h
  | cons b buckets ih =>
      rw [reach] at h
      split_ifs at h with hreached
      · exact ⟨b, List.mem_cons_self .., Option.some.inj h⟩
      · obtain ⟨b', hb', rfl⟩ := ih h
        exact ⟨b', List.mem_cons_of_mem b hb', rfl⟩

/-- A percentile of a histogram with samples is the value of one of its buckets. -/
lemma percentile_mem {buckets : List Bucket} {total v : ℤ} {pct : ℚ} (htotal : total ≠ 0)
    (h : percentile buckets total pct = some v) : ∃ b ∈ buckets, b.value = v := by
  rw [percentile, if_neg htotal] at h
  split at h
  case h_1 w hreach => exact reach_mem (hreach.trans h)
  case h_2 _ =>
      obtain ⟨b, hb, rfl⟩ := Option.map_eq_some_iff.mp h
      exact ⟨b, List.mem_of_getLast? hb, rfl⟩

lemma percentile_isSome {buckets : List Bucket} (total : ℤ) (pct : ℚ)
    (h : total ≠ 0 → buckets ≠ []) : (percentile buckets total pct).isSome := by
  rw [percentile]
  split_ifs with htotal
  · rfl
  · split
    · rfl
    · simpa using h htotal

lemma ne_nil_of_totalCount {buckets : List Bucket} (h : totalCount buckets ≠ 0) :
    buckets ≠ [] := by
  rintro rfl
  exact h rfl

@[simp] lemma mem_summarise {buckets : List Bucket} {b : Bucket} :
    b ∈ (summarise buckets).1 ↔ b ∈ buckets := (List.perm_insertionSort _ buckets).mem_iff

lemma summarise_ne_nil {buckets : List Bucket} (h : totalCount buckets ≠ 0) :
    (summarise buckets).1 ≠ [] := by
  obtain ⟨b, hb⟩ := List.exists_mem_of_ne_nil _ (ne_nil_of_totalCount h)
  exact List.ne_nil_of_mem (mem_summarise.mpr hb)

lemma fileLine_isSome (buckets : List Bucket) : (fileLine buckets).isSome := by
  have hp (pct : ℚ) := percentile_isSome (totalCount buckets) pct summarise_ne_nil
  obtain ⟨p50, h50⟩ := Option.isSome_iff_exists.mp (hp 50)
  obtain ⟨p99, h99⟩ := Option.isSome_iff_exists.mp (hp 99)
  have hline : fileLine buckets = some ⟨totalCount buckets, p50, p99⟩ := by
    simp only [fileLine]
    show (percentile _ (totalCount buckets) 50).bind _ = _
    rw [h50, Option.bind_some]
    show (percentile _ (totalCount buckets) 99).bind _ = _
    rw [h99]
    rfl
  rw [hline]
  rfl

lemma mapM_fileLine_isSome (histograms : List (List Bucket)) :
    (histograms.mapM fileLine).isSome := by
  induction histograms with
  | nil => rfl
  | cons buckets histograms ih =>
      obtain ⟨line, hline⟩ := Option.isSome_iff_exists.mp (fileLine_isSome buckets)
      obtain ⟨lines, hlines⟩ := Option.isSome_iff_exists.mp ih
      rw [List.mapM_cons, hline, hlines]
      rfl

/-- Sorting forgets the order the buckets came in. -/
lemma summarise_perm {buckets buckets' : List Bucket} (h : buckets.Perm buckets') :
    summarise buckets = summarise buckets' := by
  have hsorted : ∀ l : List Bucket, (l.insertionSort (· ≤ ·)).Pairwise (· ≤ ·) :=
    List.pairwise_insertionSort (· ≤ ·)
  have hperm : (buckets.insertionSort (· ≤ ·)).Perm (buckets'.insertionSort (· ≤ ·)) :=
    (List.perm_insertionSort _ _).trans (h.trans (List.perm_insertionSort _ _).symm)
  exact Prod.ext (hperm.eq_of_pairwise' (hsorted _) (hsorted _)) (h.map Bucket.count).sum_eq

/-- Merging the sorted files is merging the files. -/
lemma flatten_summarise (histograms : List (List Bucket)) :
    (histograms.map fun buckets => (summarise buckets).1).flatten.Perm histograms.flatten := by
  induction histograms with
  | nil => exact .refl _
  | cons buckets histograms ih => exact (List.perm_insertionSort _ buckets).append ih

/-- The last bucket has the largest value. -/
lemma value_le_getLast {buckets : List Bucket} {b last : Bucket}
    (hlast : (summarise buckets).1.getLast? = some last) (hb : b ∈ buckets) :
    b.value ≤ last.value := by
  have hb' : b ∈ (summarise buckets).1 := mem_summarise.mpr hb
  have hsorted : (summarise buckets).1.Pairwise (· ≤ ·) := List.pairwise_insertionSort _ _
  rw [List.getLast?_eq_some_getLast (List.ne_nil_of_mem hb'), Option.some.injEq] at hlast
  exact Prod.Lex.monotone_fst _ _ (hlast ▸ hsorted.rel_getLast hb')

/-- The values of the `merged_` lines that a sweep reads. -/
def Report.figures (r : Report) : List ℤ := [r.p50, r.p90, r.p99, r.p999, r.max]

/-- **What a merged report holds.**  Every figure is the value of some bucket, and no bucket has a
value above the maximum. -/
lemma mergedReport_figures {lines : List FileLine} {merged : List Bucket} {r : Report}
    (h : mergedReport lines merged = some r) :
    totalCount merged ≠ 0 ∧ (∀ v ∈ r.figures, ∃ b ∈ merged, b.value = v) ∧
      ∀ b ∈ merged, b.value ≤ r.max := by
  simp only [mergedReport] at h
  split_ifs at h with htotal
  simp only [Option.bind_eq_bind, Option.bind_eq_some_iff] at h
  obtain ⟨p50, h50, p90, h90, p99, h99, p999, h999, max, hmax, hr⟩ := h
  obtain rfl := Option.some.inj hr
  obtain ⟨last, hlast, rfl⟩ := Option.map_eq_some_iff.mp hmax
  have hmem {pct : ℚ} {v : ℤ}
      (hv : percentile (summarise merged).1 (summarise merged).2 pct = some v) :
      ∃ b ∈ merged, b.value = v := by
    obtain ⟨b, hb, hbv⟩ := percentile_mem htotal hv
    exact ⟨b, mem_summarise.mp hb, hbv⟩
  refine ⟨htotal, ?_, ?_⟩
  · intro v hv
    simp only [Report.figures, List.mem_cons, List.not_mem_nil, or_false] at hv
    rcases hv with rfl | rfl | rfl | rfl | rfl
    · exact hmem h50
    · exact hmem h90
    · exact hmem h99
    · exact hmem h999
    · exact ⟨last, mem_summarise.mp (List.mem_of_getLast? hlast), rfl⟩
  · exact fun b hb => value_le_getLast hlast hb

lemma mergedReport_isSome (lines : List FileLine) {merged : List Bucket}
    (h : totalCount merged ≠ 0) : (mergedReport lines merged).isSome := by
  have hp (pct : ℚ) :=
    percentile_isSome (totalCount merged) pct fun _ => summarise_ne_nil h
  obtain ⟨p50, h50⟩ := Option.isSome_iff_exists.mp (hp 50)
  obtain ⟨p90, h90⟩ := Option.isSome_iff_exists.mp (hp 90)
  obtain ⟨p99, h99⟩ := Option.isSome_iff_exists.mp (hp 99)
  obtain ⟨p999, h999⟩ := Option.isSome_iff_exists.mp (hp (999 / 10))
  have hlast := List.getLast?_eq_some_getLast (summarise_ne_nil h)
  have htotal : (summarise merged).2 = totalCount merged := rfl
  simp [mergedReport, htotal, h, h50, h90, h99, h999, hlast]

/-! ## The script as a whole -/

/-- All files are there and can be read, and together they hold samples. -/
def HasSamples (files : List (Option Lines)) : Prop :=
  ∃ histograms ∈ loadAll files, totalCount histograms.flatten ≠ 0

lemma main_eq_some {files : List (Option Lines)} {r : Report} (h : main files = some r) :
    ∃ histograms lines, loadAll files = some histograms ∧
      mergedReport lines histograms.flatten = some r := by
  rw [main] at h
  split_ifs at h
  simp only [Option.bind_eq_bind, Option.bind_eq_some_iff] at h
  obtain ⟨histograms, hload, lines, -, hr⟩ := h
  refine ⟨histograms, lines, hload, ?_⟩
  rwa [mergedReport, summarise_perm (flatten_summarise histograms)] at hr

/-- **When there are figures.**  The script reports exactly when every file is there and readable
and the counts do not add up to zero. -/
theorem main_isSome_iff (files : List (Option Lines)) : (main files).isSome ↔ HasSamples files := by
  constructor
  · intro h
    obtain ⟨r, hr⟩ := Option.isSome_iff_exists.mp h
    obtain ⟨histograms, lines, hload, hmerged⟩ := main_eq_some hr
    exact ⟨histograms, hload, (mergedReport_figures hmerged).1⟩
  · rintro ⟨histograms, hload, htotal⟩
    have hfiles : files ≠ [] := by
      rintro rfl
      obtain rfl := Option.some.inj hload
      exact htotal rfl
    obtain ⟨lines, hlines⟩ := Option.isSome_iff_exists.mp (mapM_fileLine_isSome histograms)
    have hmerged := mergedReport_isSome lines htotal
    rw [mergedReport, ← summarise_perm (flatten_summarise histograms)] at hmerged
    rw [main, if_neg hfiles, hload, Option.bind_eq_bind, Option.bind_some, hlines]
    exact hmerged

end RaftBench.Sweep

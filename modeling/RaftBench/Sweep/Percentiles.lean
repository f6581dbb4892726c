import Mathlib.Data.Rat.Floor
import RaftBench.Lib.Rank
import RaftBench.Sweep.MergeHdr

/-!
# Merged percentiles are the percentiles of the union

The buckets of a file stand for samples: a value, `count` times.  `percentile` never writes the
samples out; it sorts the `(value, count)` pairs of all files, without combining pairs of equal
value, and walks them with a running count.

* `samples` writes the buckets out as a multiset.
* `percentile_eq_ranked` — with positive counts the walk ends at the sample of rank
  `⌈pct * total / 100⌉`.
* `merged_percentile` — so a merged percentile depends on how often each value occurs in all the
  files together and on nothing else.
-/

namespace RaftBench.Sweep

/-! ## The samples behind the buckets -/

def Bucket.run (b : Bucket) : ℤ × ℕ := (b.value, b.count.toNat)

/-- Each value, `count` times. -/
def samples (buckets : List Bucket) : Multiset ℤ := (Runs.expand (buckets.map Bucket.run) : List ℤ)

/-- How often a value occurs over all the lines that mention it. -/
def countOf (buckets : List Bucket) (v : ℤ) : ℤ := totalCount (buckets.filter fun b => b.value = v)

/-- The counts a load generator writes. -/
def Positive (buckets : List Bucket) : Prop := ∀ b ∈ buckets, 0 < b.count

instance (buckets : List Bucket) : Decidable (Positive buckets) :=
  inferInstanceAs (Decidable (∀ b ∈ buckets, 0 < b.count))

lemma Positive.perm {buckets buckets' : List Bucket} (h : Positive buckets)
    (hperm : buckets'.Perm buckets) : Positive buckets' := by
  intro b hb
  exact h b (hperm.mem_iff.mp hb)

lemma samples_cons (b : Bucket) (buckets : List Bucket) :
    samples (b :: buckets) = Multiset.replicate b.count.toNat b.value + samples buckets := rfl

lemma samples_perm {buckets buckets' : List Bucket} (h : buckets.Perm buckets') :
    samples buckets = samples buckets' :=
  Multiset.coe_eq_coe.mpr (Runs.expand_perm (h.map Bucket.run))

lemma totalCount_cons (b : Bucket) (buckets : List Bucket) :
    totalCount (b :: buckets) = b.count + totalCount buckets := List.sum_cons

/-- There are as many samples as the counts add up to. -/
lemma card_samples {buckets : List Bucket} (h : Positive buckets) :
    (Multiset.card (samples buckets) : ℤ) = totalCount buckets := by
  induction buckets with
  | nil => rfl
  | cons b buckets ih =>
      have hb := h b (List.mem_cons_self ..)
      have hrest := ih fun b' hb' => h b' (List.mem_cons_of_mem b hb')
      rw [samples_cons, totalCount_cons, Multiset.card_add, Multiset.card_replicate]
      push_cast
      omega

/-- A value occurs among the samples as often as its lines say together. -/
lemma count_samples {buckets : List Bucket} (h : Positive buckets) (v : ℤ) :
    ((samples buckets).count v : ℤ) = countOf buckets v := by
  induction buckets with
  | nil => rfl
  | cons b buckets ih =>
      have hb := h b (List.mem_cons_self ..)
      have hrest := ih fun b' hb' => h b' (List.mem_cons_of_mem b hb')
      rw [samples_cons, Multiset.count_add, Multiset.count_replicate, countOf, List.filter_cons]
      by_cases hv : b.value = v
      · rw [if_pos hv, if_pos (decide_eq_true hv), totalCount_cons, ← countOf]
        push_cast
        omega
      · rw [if_neg hv, if_neg (by simpa using hv), ← countOf]
        push_cast
        omega

lemma samples_eq_of_countOf {buckets buckets' : List Bucket} (h : Positive buckets)
    (h' : Positive buckets') (hcount : ∀ v, countOf buckets v = countOf buckets' v) :
    samples buckets = samples buckets' := by
  refine Multiset.ext.mpr fun v => ?_
  have hv := count_samples h v
  rw [hcount v, ← count_samples h' v] at hv
  exact_mod_cast hv

/-! ## The walk -/

/-- The loop of `percentile` is the walk over the runs: the running count reaches the target when
it passes the position below it. -/
lemma reach_eq_walk {target : ℚ} {buckets : List Bucket} (h : Positive buckets) {seen : ℤ} {i : ℕ}
    (htarget : ∀ n : ℤ, target ≤ n ↔ seen + i < n) :
    reach target seen buckets = Runs.walk i (buckets.map Bucket.run) := by
  induction buckets generalizing seen i with
  | nil => rfl
  | cons b buckets ih =>
      have hb := h b (List.mem_cons_self ..)
      have hrest : Positive buckets := fun b' hb' => h b' (List.mem_cons_of_mem b hb')
      have hreached : target ≤ ((seen + b.count : ℤ) : ℚ) ↔ i < b.count.toNat := by
        rw [htarget]
        omega
      simp only [reach, List.map_cons, Runs.walk, Bucket.run, hreached]
      split_ifs with hi
      · rfl
      · refine ih hrest fun n => ?_
        rw [htarget]
        omega

lemma pairwise_summarise (buckets : List Bucket) :
    ((summarise buckets).1.map Bucket.run).Pairwise fun r s => r.1 ≤ s.1 := by
  have hsorted : (summarise buckets).1.Pairwise (· ≤ ·) := List.pairwise_insertionSort _ _
  refine hsorted.map Bucket.run fun b b' h => ?_
  exact Prod.Lex.monotone_fst b b' h

/-- The position of the sample a percentile asks for, of `total` samples in ascending order. -/
def position (total : ℤ) (pct : ℚ) : ℕ := ⌈pct * total / 100⌉.toNat - 1

lemma position_mono {total : ℤ} (htotal : 0 < total) {pct pct' : ℚ} (h : pct ≤ pct') :
    position total pct ≤ position total pct' := by
  have hle : pct * total / 100 ≤ pct' * total / 100 := by
    have : (0 : ℚ) < total := by exact_mod_cast htotal
    gcongr
  have hceil := Int.ceil_le_ceil hle
  rw [position, position]
  omega

section Target

variable {total : ℤ} (htotal : 0 < total) {pct : ℚ} (hpos : 0 < pct)
include htotal hpos

lemma ceil_pos : 0 < ⌈pct * total / 100⌉ := by
  have htotal' : (0 : ℚ) < total := by exact_mod_cast htotal
  exact Int.ceil_pos.mpr (by positivity)

/-- The running count reaches the target exactly when it passes the position. -/
lemma target_le_iff (n : ℤ) : (total * pct / 100 : ℚ) ≤ n ↔ 0 + (position total pct : ℤ) < n := by
  have hceil := ceil_pos htotal hpos
  rw [mul_comm (total : ℚ) pct, ← Int.ceil_le, position]
  omega

lemma position_lt (hle : pct ≤ 100) : (position total pct : ℤ) < total := by
  have hceil := ceil_pos htotal hpos
  have htotal' : (0 : ℚ) < total := by exact_mod_cast htotal
  have hbound : ⌈pct * total / 100⌉ ≤ total := by
    refine Int.ceil_le.mpr ?_
    rw [div_le_iff₀ (by norm_num), mul_comm]
    gcongr
  rw [position]
  omega

end Target

/-- **One histogram.**  A percentile is the sample of rank `⌈pct * total / 100⌉`. -/
theorem percentile_eq_ranked {buckets : List Bucket} (h : Positive buckets)
    (htotal : 0 < totalCount buckets) {pct : ℚ} (hpos : 0 < pct) (hle : pct ≤ 100) :
    ∃ v, (samples buckets).ranked (position (totalCount buckets) pct) = some v ∧
      percentile (summarise buckets).1 (summarise buckets).2 pct = some v := by
  have hperm : (summarise buckets).1.Perm buckets := List.perm_insertionSort _ _
  have hlt : position (totalCount buckets) pct < Multiset.card (samples buckets) := by
    have hposition := position_lt htotal hpos hle
    have hcard := card_samples h
    omega
  obtain ⟨v, hv⟩ := Multiset.exists_ranked hlt
  -- the walk over the sorted pairs finds that sample, so the fallback is never used
  have hreach : reach (totalCount buckets * pct / 100) 0 (summarise buckets).1 = some v := by
    rw [reach_eq_walk (h.perm hperm) (target_le_iff htotal hpos),
      Runs.walk_eq_ranked (pairwise_summarise buckets)]
    exact (congrArg (fun s : Multiset ℤ => s.ranked _) (samples_perm hperm)).trans hv
  refine ⟨v, hv, ?_⟩
  have htotal' : (summarise buckets).2 = totalCount buckets := rfl
  rw [percentile, htotal', if_neg htotal.ne', hreach]

/-! ## The merge -/

/-- What `main` prints as a percentile of all files. -/
def mergedPercentile (histograms : List (List Bucket)) (pct : ℚ) : Option ℤ :=
  let merged := (histograms.map fun buckets => (summarise buckets).1).flatten
  percentile (summarise merged).1 (summarise merged).2 pct

/-- Sorting each file first makes no difference. -/
lemma mergedPercentile_eq (histograms : List (List Bucket)) (pct : ℚ) :
    mergedPercentile histograms pct
      = percentile (summarise histograms.flatten).1 (summarise histograms.flatten).2 pct := by
  rw [mergedPercentile, summarise_perm (flatten_summarise histograms)]

lemma mergedReport_percentiles {lines : List FileLine} {merged : List Bucket} {r : Report}
    (h : mergedReport lines merged = some r) :
    ∀ figure ∈ [((50 : ℚ), r.p50), (90, r.p90), (99, r.p99), (999 / 10, r.p999)],
      percentile (summarise merged).1 (summarise merged).2 figure.1 = some figure.2 := by
  simp only [mergedReport] at h
  split_ifs at h
  simp only [Option.bind_eq_bind, Option.bind_eq_some_iff] at h
  obtain ⟨p50, h50, p90, h90, p99, h99, p999, h999, max, -, hr⟩ := h
  obtain rfl := Option.some.inj hr
  intro figure hfigure
  simp only [List.mem_cons, List.not_mem_nil, or_false] at hfigure
  rcases hfigure with rfl | rfl | rfl | rfl
  · exact h50
  · exact h90
  · exact h99
  · exact h999

/-- **Percentiles of the union.**  For files with positive counts that hold samples, the script
reports, and its percentile `pct` is the sample of rank `⌈pct * total / 100⌉` of all files
together.  It is the same for any other files in which each value occurs as often over all their
lines, it grows with `pct`, and the reported maximum bounds it. -/
theorem merged_percentile {files : List (Option Lines)} {histograms : List (List Bucket)}
    (hload : loadAll files = some histograms) (hcounts : Positive histograms.flatten)
    (htotal : 0 < totalCount histograms.flatten) {pct : ℚ} (hpos : 0 < pct) (hle : pct ≤ 100) :
    ∃ v, mergedPercentile histograms pct = some v ∧
      (samples histograms.flatten).ranked
        (⌈pct * totalCount histograms.flatten / 100⌉.toNat - 1) = some v ∧
      (∀ files' histograms', loadAll files' = some histograms' → Positive histograms'.flatten →
        (∀ value, countOf histograms'.flatten value = countOf histograms.flatten value) →
        mergedPercentile histograms' pct = some v) ∧
      (∀ pct', pct ≤ pct' → pct' ≤ 100 →
        ∃ w, mergedPercentile histograms pct' = some w ∧ v ≤ w) ∧
      ∃ report, main files = some report ∧ v ≤ report.max ∧
        ∀ figure ∈ [((50 : ℚ), report.p50), (90, report.p90), (99, report.p99),
            (999 / 10, report.p999)], mergedPercentile histograms figure.1 = some figure.2 := by
  obtain ⟨v, hv, hpercentile⟩ := percentile_eq_ranked hcounts htotal hpos hle
  refine ⟨v, by rw [mergedPercentile_eq, hpercentile], hv, ?_, ?_, ?_⟩
  · intro files' histograms' _ hcounts' hcount
    have hsamples := samples_eq_of_countOf hcounts' hcounts hcount
    have htotals : totalCount histograms'.flatten = totalCount histograms.flatten := by
      rw [← card_samples hcounts', hsamples, card_samples hcounts]
    obtain ⟨v', hv', hpercentile'⟩ :=
      percentile_eq_ranked hcounts' (htotals ▸ htotal) hpos hle
    rw [hsamples, htotals, hv, Option.some.injEq] at hv'
    rw [mergedPercentile_eq, hpercentile', hv']
  · intro pct' hpct hle'
    obtain ⟨w, hw, hpercentile'⟩ :=
      percentile_eq_ranked hcounts htotal (hpos.trans_le hpct) hle'
    refine ⟨w, by rw [mergedPercentile_eq, hpercentile'], ?_⟩
    exact Multiset.ranked_le_ranked (position_mono htotal hpct) hv hw
  · obtain ⟨report, hreport⟩ := Option.isSome_iff_exists.mp
      ((main_isSome_iff files).mpr ⟨histograms, hload, htotal.ne'⟩)
    obtain ⟨histograms', lines, hload', hmerged⟩ := main_eq_some hreport
    obtain rfl := Option.some.inj (hload.symm.trans hload')
    obtain ⟨b, hb, hbv⟩ := percentile_mem htotal.ne' hpercentile
    refine ⟨report, hreport, ?_, ?_⟩
    · rw [← hbv]
      exact (mergedReport_figures hmerged).2.2 b (mem_summarise.mp hb)
    · intro figure hfigure
      rw [mergedPercentile_eq]
      exact mergedReport_percentiles hmerged figure hfigure

/-- Two clients, the value `150` in both files and the lines of the first out of order. -/
theorem merged_percentile_of_two_clients :
    ∃ histograms,
      loadAll [some ["value,count", "2000,1", "150,9"], some ["150,4", "90,6"]] = some histograms ∧
      mergedPercentile histograms 50 = some 150 ∧
      (samples histograms.flatten).ranked 9 = some 150 := by
  have hload : loadAll [some ["value,count", "2000,1", "150,9"], some ["150,4", "90,6"]]
      = some [[toLex (2000, 1), toLex (150, 9)], [toLex (150, 4), toLex (90, 6)]] := by
    decide +kernel
  obtain ⟨v, hv, hranked, -⟩ := merged_percentile hload (by decide) (by decide)
    (show (0 : ℚ) < 50 by norm_num) (show (50 : ℚ) ≤ 100 by norm_num)
  have h150 : mergedPercentile
      [[toLex (2000, 1), toLex (150, 9)], [toLex (150, 4), toLex (90, 6)]] 50 = some 150 := by
    decide +kernel
  obtain rfl := Option.some.inj (hv.symm.trans h150)
  have hposition : ⌈(50 : ℚ) * totalCount [[toLex ((2000 : ℤ), (1 : ℤ)), toLex (150, 9)],
      [toLex (150, 4), toLex (90, 6)]].flatten / 100⌉.toNat - 1 = 9 := by
    decide +kernel
  rw [hposition] at hranked
  exact ⟨_, hload, h150, hranked⟩

end RaftBench.Sweep

import RaftBench.Lib.Quantile
import RaftBench.Sweep.Percentiles

/-!
# Merged percentiles stay between the clients' own

The per-client lines of `merge-hdr.py` stand next to the merged figures so that a straggler is
seen.  That reading supposes that a merged percentile lies between the smallest and the largest of
the clients' percentiles, whatever share of the load each client had.

`reach_isQuantile` says what the loop of `percentile` finds, with buckets of count `0` allowed: the
counts under the value have not reached the target, those up to it have.  The bounds are then the
general ones of `Quantile`.
-/

namespace RaftBench.Sweep

open Quantile

/-- The buckets as weighted values. -/
def weights (buckets : List Bucket) : List (ℤ × ℤ) := buckets.map ofLex

/-- What a load generator can have counted. -/
def NonnegCounts (buckets : List Bucket) : Prop := ∀ b ∈ buckets, 0 ≤ b.count

instance (buckets : List Bucket) : Decidable (NonnegCounts buckets) :=
  inferInstanceAs (Decidable (∀ b ∈ buckets, 0 ≤ b.count))

lemma nonneg_weights {buckets : List Bucket} (h : NonnegCounts buckets) :
    Nonneg (weights buckets) := by
  intro w hw
  obtain ⟨b, hb, rfl⟩ := List.mem_map.mp hw
  exact h b hb

lemma total_weights (buckets : List Bucket) : total (weights buckets) = totalCount buckets := by
  rw [total, weights, List.map_map]
  rfl

lemma weights_flatten (histograms : List (List Bucket)) :
    weights histograms.flatten = (histograms.map weights).flatten := by
  rw [weights, List.map_flatten]
  rfl

lemma upTo_perm {buckets buckets' : List Bucket} (h : buckets.Perm buckets') (v : ℤ) :
    upTo (weights buckets) v = upTo (weights buckets') v :=
  (((h.map ofLex).filter _).map Prod.snd).sum_eq

lemma under_perm {buckets buckets' : List Bucket} (h : buckets.Perm buckets') (v : ℤ) :
    under (weights buckets) v = under (weights buckets') v :=
  (((h.map ofLex).filter _).map Prod.snd).sum_eq

/-! ## The walk -/

/-- On buckets in ascending order the loop ends at the value where the running count passes the
target. -/
lemma reach_isQuantile {target : ℚ} {buckets : List Bucket}
    (hsorted : buckets.Pairwise fun b b' => b.value ≤ b'.value) (h : NonnegCounts buckets)
    {seen : ℤ} (hseen : (seen : ℚ) < target) (htotal : target ≤ (seen + totalCount buckets : ℤ)) :
    ∃ v, reach target seen buckets = some v ∧
      ((seen + under (weights buckets) v : ℤ) : ℚ) < target ∧
      target ≤ (seen + upTo (weights buckets) v : ℤ) := by
  induction buckets generalizing seen with
  | nil =>
      rw [totalCount, List.map_nil, List.sum_nil, add_zero] at htotal
      exact absurd htotal (not_le.mpr hseen)
  | cons b buckets ih =>
      obtain ⟨hle, hsorted⟩ := List.pairwise_cons.mp hsorted
      have hb : 0 ≤ b.count := h b (List.mem_cons_self ..)
      have hrest : NonnegCounts buckets := fun b' hb' => h b' (List.mem_cons_of_mem b hb')
      have hupTo (v : ℤ) : upTo (weights (b :: buckets)) v
          = (if b.value ≤ v then b.count else 0) + upTo (weights buckets) v :=
        upTo_cons (ofLex b) (weights buckets) v
      have hunder (v : ℤ) : under (weights (b :: buckets)) v
          = (if b.value < v then b.count else 0) + under (weights buckets) v :=
        under_cons (ofLex b) (weights buckets) v
      rw [reach]
      split_ifs with hreached
      · refine ⟨b.value, rfl, ?_, ?_⟩
        · -- nothing comes before the first bucket
          have hzero : under (weights (b :: buckets)) b.value = 0 := by
            refine under_eq_zero (List.forall_mem_map.mpr (List.forall_mem_cons.mpr ⟨?_, hle⟩))
            exact le_refl b.value
          rwa [hzero, add_zero]
        · have hmore := upTo_nonneg (nonneg_weights hrest) b.value
          rw [hupTo, if_pos le_rfl]
          refine hreached.trans ?_
          exact_mod_cast by omega
      · have htotal' : target ≤ (seen + b.count + totalCount buckets : ℤ) := by
          rwa [totalCount_cons, ← add_assoc] at htotal
        obtain ⟨v, hv, hlt, hge⟩ := ih hsorted hrest (not_le.mp hreached) htotal'
        obtain ⟨b', hb', hbv⟩ := reach_mem hv
        have hbv' : b.value ≤ v := hbv ▸ hle b' hb'
        refine ⟨v, hv, ?_, ?_⟩
        · have hsum : seen + under (weights (b :: buckets)) v
              ≤ seen + b.count + under (weights buckets) v := by
            rw [hunder]
            split_ifs <;> omega
          exact lt_of_le_of_lt (by exact_mod_cast hsum) hlt
        · rw [hupTo, if_pos hbv', ← add_assoc]
          exact hge

/-- `percentile` of one file. -/
def filePercentile (buckets : List Bucket) (pct : ℚ) : Option ℤ :=
  percentile (summarise buckets).1 (summarise buckets).2 pct

/-- **A percentile is a quantile** of the samples, whatever the order of the lines. -/
lemma filePercentile_isQuantile {buckets : List Bucket} (h : NonnegCounts buckets)
    (htotal : 0 < totalCount buckets) {pct : ℚ} (hpos : 0 < pct) (hle : pct ≤ 100) :
    ∃ v, filePercentile buckets pct = some v ∧ IsQuantile (weights buckets) (pct / 100) v := by
  have hperm : (summarise buckets).1.Perm buckets := List.perm_insertionSort _ _
  have hsorted : (summarise buckets).1.Pairwise fun b b' => b.value ≤ b'.value := by
    have hpairs : (summarise buckets).1.Pairwise (· ≤ ·) := List.pairwise_insertionSort _ _
    exact hpairs.imp fun hbb' => Prod.Lex.monotone_fst _ _ hbb'
  have hcounts : NonnegCounts (summarise buckets).1 := fun b hb => h b (mem_summarise.mp hb)
  have htotals : totalCount (summarise buckets).1 = totalCount buckets :=
    (hperm.map Bucket.count).sum_eq
  have htotal' : (0 : ℚ) < totalCount buckets := by exact_mod_cast htotal
  have htarget : (totalCount buckets * pct / 100 : ℚ) = pct / 100 * totalCount buckets := by
    ring
  have hreachable : (totalCount buckets * pct / 100 : ℚ) ≤ (0 + totalCount buckets : ℤ) := by
    rw [htarget, zero_add, div_mul_eq_mul_div, div_le_iff₀ (by norm_num), mul_comm]
    gcongr
  have hpositive : ((0 : ℤ) : ℚ) < totalCount buckets * pct / 100 := by
    rw [Int.cast_zero]
    positivity
  obtain ⟨v, hv, hunder, hupTo⟩ := reach_isQuantile hsorted hcounts hpositive (by rwa [htotals])
  refine ⟨v, ?_, ?_⟩
  · have hsecond : (summarise buckets).2 = totalCount buckets := rfl
    rw [filePercentile, percentile, hsecond, if_neg htotal.ne', hv]
  · rw [zero_add, under_perm hperm, htarget] at hunder
    rw [zero_add, upTo_perm hperm, htarget] at hupTo
    exact ⟨by rwa [total_weights], by rwa [total_weights]⟩

/-! ## The bounds -/

/-- Where nothing raises, every image is in the list of results. -/
lemma mapM_eq_some_of_forall {α β : Type} {f : α → Option β} {l : List α}
    (h : ∀ a ∈ l, ∃ b, f a = some b) :
    ∃ bs, l.mapM f = some bs ∧ ∀ a ∈ l, ∃ b ∈ bs, f a = some b := by
  induction l with
  | nil => exact ⟨[], rfl, by simp⟩
  | cons a l ih =>
      obtain ⟨b, hb⟩ := h a (List.mem_cons_self ..)
      obtain ⟨bs, hbs, hfrom⟩ := ih fun a' ha' => h a' (List.mem_cons_of_mem a ha')
      refine ⟨b :: bs, by simp [List.mapM_cons, hb, hbs], ?_⟩
      intro a' ha'
      rcases List.mem_cons.mp ha' with rfl | ha'
      · exact ⟨b, List.mem_cons_self .., hb⟩
      · obtain ⟨b', hb', hab'⟩ := hfrom a' ha'
        exact ⟨b', List.mem_cons_of_mem b hb', hab'⟩

lemma totalCount_flatten_pos {histograms : List (List Bucket)} (hne : histograms ≠ [])
    (h : ∀ buckets ∈ histograms, 0 < totalCount buckets) : 0 < totalCount histograms.flatten := by
  induction histograms with
  | nil => exact absurd rfl hne
  | cons buckets histograms ih =>
      have hfirst := h buckets (List.mem_cons_self ..)
      rw [List.flatten_cons, totalCount, List.map_append, List.sum_append, ← totalCount,
        ← totalCount]
      cases histograms with
      | nil => simpa [totalCount] using hfirst
      | cons buckets' histograms =>
          have hrest := ih (List.cons_ne_nil _ _) fun b hb => h b (List.mem_cons_of_mem buckets hb)
          omega

section Bounds

variable {histograms : List (List Bucket)} (hne : histograms ≠ [])
  (hcounts : ∀ buckets ∈ histograms, NonnegCounts buckets)
  (htotal : ∀ buckets ∈ histograms, 0 < totalCount buckets)
  {pct : ℚ} (hpos : 0 < pct) (hle : pct ≤ 100)
include hne hcounts htotal hpos hle

/-- The percentiles of the files are there, and they are their quantiles. -/
lemma filePercentiles_isQuantile :
    ∃ values, histograms.mapM (fun buckets => filePercentile buckets pct) = some values ∧
      values ≠ [] ∧ ∀ ws ∈ histograms.map weights, ∃ w ∈ values, IsQuantile ws (pct / 100) w := by
  have hquantile (buckets : List Bucket) (hb : buckets ∈ histograms) :=
    filePercentile_isQuantile (hcounts buckets hb) (htotal buckets hb) hpos hle
  obtain ⟨values, hvalues, hfrom⟩ :=
    mapM_eq_some_of_forall fun buckets hb => (hquantile buckets hb).imp fun _ => And.left
  refine ⟨values, hvalues, ?_, ?_⟩
  · obtain ⟨buckets, hb⟩ := List.exists_mem_of_ne_nil _ hne
    obtain ⟨value, hvalue, -⟩ := hfrom buckets hb
    exact List.ne_nil_of_mem hvalue
  · intro ws hws
    obtain ⟨buckets, hb, rfl⟩ := List.mem_map.mp hws
    obtain ⟨value, hvalue, heq⟩ := hfrom buckets hb
    obtain ⟨w, hw, hq⟩ := hquantile buckets hb
    obtain rfl := Option.some.inj (hw.symm.trans heq)
    exact ⟨w, hvalue, hq⟩

/-- The merged percentile is the quantile of all files together. -/
lemma mergedPercentile_isQuantile :
    ∃ v, mergedPercentile histograms pct = some v ∧
      IsQuantile (histograms.map weights).flatten (pct / 100) v := by
  have hmerged : NonnegCounts histograms.flatten := by
    intro b hb
    obtain ⟨buckets, hbuckets, hb⟩ := List.mem_flatten.mp hb
    exact hcounts buckets hbuckets b hb
  obtain ⟨v, hv, hq⟩ :=
    filePercentile_isQuantile hmerged (totalCount_flatten_pos hne htotal) hpos hle
  rw [weights_flatten] at hq
  exact ⟨v, (mergedPercentile_eq histograms pct).trans hv, hq⟩

/-- Bounds of the files' percentiles bound the merged one. -/
lemma mergedPercentile_bounds :
    ∃ values v, histograms.mapM (fun buckets => filePercentile buckets pct) = some values ∧
      values ≠ [] ∧ mergedPercentile histograms pct = some v ∧
      ∀ lo hi : ℤ, (∀ value ∈ values, lo ≤ value ∧ value ≤ hi) → lo ≤ v ∧ v ≤ hi := by
  obtain ⟨values, hvalues, hvalues_ne, hown⟩ :=
    filePercentiles_isQuantile hne hcounts htotal hpos hle
  obtain ⟨v, hv, hq⟩ := mergedPercentile_isQuantile hne hcounts htotal hpos hle
  have hnonneg : ∀ ws ∈ histograms.map weights, Nonneg ws := by
    intro ws hws
    obtain ⟨buckets, hb, rfl⟩ := List.mem_map.mp hws
    exact nonneg_weights (hcounts buckets hb)
  refine ⟨values, v, hvalues, hvalues_ne, hv, ?_⟩
  intro lo hi hbounds
  constructor
  · refine hq.le_flatten hnonneg (by simpa using hne) ?_
    intro ws hws
    obtain ⟨w, hw, hw'⟩ := hown ws hws
    exact ⟨w, (hbounds w hw).1, hw'⟩
  · refine hq.flatten_le hnonneg ?_
    intro ws hws
    obtain ⟨w, hw, hw'⟩ := hown ws hws
    exact ⟨w, (hbounds w hw).2, hw'⟩

end Bounds

/-- **A merged percentile stays between the clients' own**, and is theirs where they all agree. -/
theorem merged_percentile_between (histograms : List (List Bucket)) (hne : histograms ≠ [])
    (hcounts : ∀ buckets ∈ histograms, NonnegCounts buckets)
    (htotal : ∀ buckets ∈ histograms, 0 < totalCount buckets)
    (pct : ℚ) (hpos : 0 < pct) (hle : pct ≤ 100) :
    ∃ values lo hi v, histograms.mapM (fun buckets => filePercentile buckets pct) = some values ∧
      values.min? = some lo ∧ values.max? = some hi ∧
      mergedPercentile histograms pct = some v ∧ lo ≤ v ∧ v ≤ hi ∧
      ∀ w, (∀ value ∈ values, value = w) → v = w := by
  obtain ⟨values, v, hvalues, hvalues_ne, hv, hbounds⟩ :=
    mergedPercentile_bounds hne hcounts htotal hpos hle
  obtain ⟨lo, hlo⟩ : ∃ lo, values.min? = some lo :=
    Option.ne_none_iff_exists'.mp (by simpa using hvalues_ne)
  obtain ⟨hi, hhi⟩ : ∃ hi, values.max? = some hi :=
    Option.ne_none_iff_exists'.mp (by simpa using hvalues_ne)
  have hlohi := hbounds lo hi fun value hvalue =>
    ⟨(List.min?_eq_some_iff.mp hlo).2 value hvalue, (List.max?_eq_some_iff.mp hhi).2 value hvalue⟩
  refine ⟨values, lo, hi, v, hvalues, hlo, hhi, hv, hlohi.1, hlohi.2, ?_⟩
  intro w hw
  have hww := hbounds w w fun value hvalue => ⟨(hw value hvalue).ge, (hw value hvalue).le⟩
  exact le_antisymm hww.2 hww.1

/-- Ten samples on one client, one on the other: the medians are 150 and 90, the merged one 150. -/
theorem merged_percentile_between_two_clients :
    ∃ values lo hi,
      [[toLex ((150 : ℤ), (9 : ℤ)), toLex (2000, 1)], [toLex (90, 1), toLex (80, 0)]].mapM
          (fun buckets => filePercentile buckets 50) = some values ∧
        values.min? = some lo ∧ values.max? = some hi ∧ lo ≤ 150 ∧ 150 ≤ hi := by
  obtain ⟨values, lo, hi, v, hvalues, hlo, hhi, hv, hlov, hvhi, -⟩ := merged_percentile_between
    [[toLex ((150 : ℤ), (9 : ℤ)), toLex (2000, 1)], [toLex (90, 1), toLex (80, 0)]]
    (List.cons_ne_nil _ _) (by decide) (by decide) 50 (by norm_num) (by norm_num)
  have h150 : mergedPercentile
      [[toLex ((150 : ℤ), (9 : ℤ)), toLex (2000, 1)], [toLex (90, 1), toLex (80, 0)]] 50
      = some 150 := by
    decide +kernel
  obtain rfl := Option.some.inj (hv.symm.trans h150)
  exact ⟨values, lo, hi, hvalues, hlo, hhi, hlov, hvhi⟩

end RaftBench.Sweep

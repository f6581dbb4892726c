import Mathlib.Data.List.Dedup
import Mathlib.Data.List.Pairwise
import Mathlib.Data.Rat.Floor
import RaftBench.Lib.Rank

/-!
# HDR histograms

A high-dynamic-range histogram groups values into buckets: below `unit` every value has a bucket
of its own, above it the buckets get wider.  The histogram library is not part of this repository,
so its bucketing is a parameter; the structure carries what is documented of it, for the values
from `1` to the highest trackable one.

* `HdrHistogram.buckets` — what iterating over the recorded values yields: the lowest value of
  every bucket that is not empty, with its count, in ascending order.
* `valueAtPercentile` — the highest value of the bucket in which the running count reaches the
  rank, and `max` — of the last bucket.

A recorded histogram is given by the list of the values recorded in it.
-/

/-- The bucketing: the lowest and the highest value that share a value's bucket. -/
structure HdrHistogram (unit top : ℤ) where
  lowestEquivalent : ℤ → ℤ
  highestEquivalent : ℤ → ℤ
  lowest_mono : ∀ u v, 1 ≤ u → u ≤ v → v ≤ top → lowestEquivalent u ≤ lowestEquivalent v
  highest_lowest : ∀ v, 1 ≤ v → v ≤ top →
    highestEquivalent (lowestEquivalent v) = highestEquivalent v
  own_bucket : ∀ v, 1 ≤ v → v < unit → lowestEquivalent v = v ∧ highestEquivalent v = v
  shared_bucket : ∀ v, unit ≤ v → v ≤ top → lowestEquivalent v < highestEquivalent v

namespace HdrHistogram

variable {unit top : ℤ} (hdr : HdrHistogram unit top) (values : List ℤ)

/-- Iterating over the recorded values. -/
def buckets : List (ℤ × ℕ) :=
  let lowest := values.map hdr.lowestEquivalent
  (lowest.dedup.insertionSort (· ≤ ·)).map fun v => (v, lowest.count v)

/-- The rank of a percentile: half up, and at least the first. -/
def rank (total : ℕ) (pct : ℚ) : ℕ := (max 1 ⌊pct * total / 100 + 1 / 2⌋).toNat

def valueAtPercentile (pct : ℚ) : ℤ :=
  match Runs.walk (rank values.length pct - 1) (hdr.buckets values) with
  | some v => hdr.highestEquivalent v
  | none => 0

def max : ℤ :=
  match (hdr.buckets values).getLast? with
  | some run => hdr.highestEquivalent run.1
  | none => 0

/-- Every recorded value is one the histogram tracks. -/
def Trackable (top : ℤ) (values : List ℤ) : Prop := ∀ v ∈ values, 1 ≤ v ∧ v ≤ top

variable {hdr values}

/-! ## The buckets -/

lemma mem_buckets {run : ℤ × ℕ} (h : run ∈ hdr.buckets values) :
    (∃ v ∈ values, hdr.lowestEquivalent v = run.1) ∧ 0 < run.2 := by
  obtain ⟨low, hlow, rfl⟩ := List.mem_map.mp h
  have hmem : low ∈ values.map hdr.lowestEquivalent :=
    List.mem_dedup.mp ((List.mem_insertionSort _).mp hlow)
  exact ⟨List.mem_map.mp hmem, List.count_pos_iff.mpr hmem⟩

/-- Ascending order, no bucket twice. -/
lemma pairwise_buckets : (hdr.buckets values).Pairwise fun r s => r.1 < s.1 := by
  have hsorted := List.pairwise_insertionSort (· ≤ ·) (values.map hdr.lowestEquivalent).dedup
  have hnodup : ((values.map hdr.lowestEquivalent).dedup.insertionSort (· ≤ ·)).Nodup :=
    (List.perm_insertionSort _ _).nodup_iff.mpr (List.nodup_dedup _)
  refine List.pairwise_map.mpr ?_
  exact (hsorted.and hnodup).imp fun h => lt_of_le_of_ne h.1 h.2

/-- No recorded value lies in a bucket behind the last one. -/
lemma lowest_le_last {run : ℤ × ℕ} (hlast : (hdr.buckets values).getLast? = some run) {v : ℤ}
    (hv : v ∈ values) : hdr.lowestEquivalent v ≤ run.1 := by
  have hmem : hdr.lowestEquivalent v ∈ (hdr.buckets values).map Prod.fst := by
    have hlow : hdr.lowestEquivalent v ∈
        (values.map hdr.lowestEquivalent).dedup.insertionSort (· ≤ ·) :=
      (List.mem_insertionSort _).mpr (List.mem_dedup.mpr (List.mem_map_of_mem hv))
    simpa [buckets] using hlow
  have hsorted : ((hdr.buckets values).map Prod.fst).Pairwise (· ≤ ·) :=
    List.pairwise_map.mpr (pairwise_buckets.imp le_of_lt)
  have hlast' : ((hdr.buckets values).map Prod.fst).getLast (List.ne_nil_of_mem hmem) = run.1 := by
    rw [List.getLast_map]
    rw [List.getLast?_eq_some_getLast (by rintro hnil; simp [hnil] at hlast),
      Option.some.injEq] at hlast
    rw [hlast]
  exact hlast' ▸ hsorted.rel_getLast hmem

/-- Written out, the buckets are the recorded values, each replaced by its bucket's lowest. -/
lemma expand_buckets :
    (Runs.expand (hdr.buckets values) : Multiset ℤ)
      = (values : Multiset ℤ).map hdr.lowestEquivalent := by
  refine Multiset.ext.mpr fun a => ?_
  have hnodup : ((values.map hdr.lowestEquivalent).dedup.insertionSort (· ≤ ·)).Nodup :=
    (List.perm_insertionSort _ _).nodup_iff.mpr (List.nodup_dedup _)
  rw [Multiset.map_coe, Multiset.coe_count, Multiset.coe_count, buckets,
    Runs.count_expand hnodup fun v => (values.map hdr.lowestEquivalent).count v]
  split_ifs with ha
  · rfl
  · have hnot : a ∉ values.map hdr.lowestEquivalent := by
      simpa using ha
    exact (List.count_eq_zero.mpr hnot).symm

/-- Grouping into buckets keeps the order, so it commutes with taking the value at a position. -/
lemma ranked_lowest (htrack : Trackable top values) (i : ℕ) :
    ((values : Multiset ℤ).map hdr.lowestEquivalent).ranked i
      = ((values : Multiset ℤ).ranked i).map hdr.lowestEquivalent := by
  refine Multiset.ranked_map ?_ i
  intro u hu v hv huv
  exact hdr.lowest_mono u v (htrack u hu).1 huv (htrack v hv).2

/-- The bucket at a position is the bucket of the value at that position. -/
lemma walk_buckets (htrack : Trackable top values) (i : ℕ) :
    Runs.walk i (hdr.buckets values)
      = ((values : Multiset ℤ).ranked i).map hdr.lowestEquivalent := by
  rw [Runs.walk_eq_ranked (pairwise_buckets.imp le_of_lt), expand_buckets, ranked_lowest htrack]

/-! ## What the histogram reports -/

/-- The position of a percentile exists as soon as one value is recorded. -/
lemma rank_le {total : ℕ} (htotal : 0 < total) {pct : ℚ} (hle : pct ≤ 100) :
    rank total pct ≤ total := by
  have hbound : ⌊pct * total / 100 + 1 / 2⌋ < (total : ℤ) + 1 := by
    have hq : pct * total / 100 ≤ total := by
      rw [div_le_iff₀ (by norm_num), mul_comm]
      gcongr
    rw [Int.floor_lt]
    push_cast
    linarith
  rw [rank]
  omega

/-- **A percentile** is the highest value of the bucket that holds the value of its rank. -/
theorem exists_valueAtPercentile (htrack : Trackable top values) (hvalues : values ≠ [])
    {pct : ℚ} (hle : pct ≤ 100) :
    ∃ v, (values : Multiset ℤ).ranked (rank values.length pct - 1) = some v ∧
      hdr.valueAtPercentile values pct = hdr.highestEquivalent v := by
  have hpos : 0 < values.length := List.length_pos_iff.mpr hvalues
  have hrank := rank_le hpos hle
  obtain ⟨v, hv⟩ := Multiset.exists_ranked
    (show rank values.length pct - 1 < Multiset.card (values : Multiset ℤ) by
      rw [Multiset.coe_card]; omega)
  have hmem := htrack v (Multiset.mem_of_ranked hv)
  refine ⟨v, hv, ?_⟩
  rw [valueAtPercentile, walk_buckets htrack, hv]
  exact hdr.highest_lowest v hmem.1 hmem.2

/-- **The last bucket** is a single value exactly when every recorded value has a bucket of its
own. -/
theorem last_bucket_single_iff (htrack : Trackable top values) {run : ℤ × ℕ}
    (hlast : (hdr.buckets values).getLast? = some run) :
    run.1 = hdr.highestEquivalent run.1 ↔ ∀ v ∈ values, v < unit := by
  obtain ⟨⟨x, hx, hlow⟩, -⟩ := mem_buckets (List.mem_of_getLast? hlast)
  have hhigh := hdr.highest_lowest x (htrack x hx).1 (htrack x hx).2
  rw [← hlow, hhigh]
  constructor
  · intro heq v hv
    by_contra hge
    have hx' : x < unit := by
      by_contra hx'
      exact (hdr.shared_bucket x (by omega) (htrack x hx).2).ne heq
    obtain ⟨hxlow, hxhigh⟩ := hdr.own_bucket x (htrack x hx).1 hx'
    -- the bucket of `v` is not behind the last one, so it is the bucket of `x`, which is alone
    have hle : hdr.lowestEquivalent x ≤ hdr.lowestEquivalent v :=
      hdr.lowest_mono x v (htrack x hx).1 (by omega) (htrack v hv).2
    have hsame : hdr.lowestEquivalent v = hdr.lowestEquivalent x :=
      le_antisymm (hlow ▸ lowest_le_last hlast hv) hle
    have hvhigh : hdr.lowestEquivalent v = hdr.highestEquivalent v := by
      rw [← hdr.highest_lowest v (htrack v hv).1 (htrack v hv).2, hsame, hhigh, heq]
    exact (hdr.shared_bucket v (by omega) (htrack v hv).2).ne hvhigh
  · intro hall
    obtain ⟨hxlow, hxhigh⟩ := hdr.own_bucket x (htrack x hx).1 (hall x hx)
    rw [hxlow, hxhigh]

/-! ## Three significant digits

With lowest value `1` and three significant digits the library keeps 2048 buckets of width one
and doubles the width with every further power of two. -/

/-- The width of a value's bucket. -/
def width (v : ℤ) : ℤ := 2 ^ (v.toNat.log2 - 10)

/-- The lowest value of a value's bucket. -/
def lowestOf (v : ℤ) : ℤ := width v * (v / width v)

lemma width_pos (v : ℤ) : 0 < width v := pow_pos (by norm_num) _

lemma width_of_lt {v : ℤ} (h : v < 2048) : width v = 1 := by
  have hlog : v.toNat.log2 ≤ 10 := by
    rcases Nat.eq_zero_or_pos v.toNat with h0 | hpos
    · rw [h0]; decide
    · exact Nat.le_of_lt_succ ((Nat.log2_lt hpos.ne').mpr (by omega))
  rw [width, Nat.sub_eq_zero_of_le hlog, pow_zero]

lemma lowestOf_of_lt {v : ℤ} (h : v < 2048) : lowestOf v = v := by
  rw [lowestOf, width_of_lt h, Int.ediv_one, one_mul]

lemma lowestOf_le (v : ℤ) : lowestOf v ≤ v := by
  have := Int.mul_ediv_add_emod v (width v)
  have := Int.emod_nonneg v (width_pos v).ne'
  rw [lowestOf]
  omega

/-- From `2048` on, a power of two begins a bucket of its own width. -/
lemma pow_le_lowestOf {v : ℤ} (h : 2048 ≤ v) : (2 : ℤ) ^ v.toNat.log2 ≤ lowestOf v := by
  have hlog : 11 ≤ v.toNat.log2 := (Nat.le_log2 (by omega)).mpr (by omega)
  have hpow : (2 : ℤ) ^ v.toNat.log2 = width v * 1024 := by
    rw [width, show (1024 : ℤ) = 2 ^ 10 by norm_num, ← pow_add]
    congr 1
    omega
  have hself : (2 : ℤ) ^ v.toNat.log2 ≤ v := by
    have := Nat.log2_self_le (n := v.toNat) (by omega)
    zify at this
    omega
  rw [hpow, lowestOf]
  refine Int.mul_le_mul_of_nonneg_left ?_ (width_pos v).le
  rw [Int.le_ediv_iff_mul_le (width_pos v), mul_comm, ← hpow]
  exact hself

lemma lt_pow_log2 {v : ℤ} (h : 1 ≤ v) : v < (2 : ℤ) ^ (v.toNat.log2 + 1) := by
  have := Nat.lt_log2_self (n := v.toNat)
  zify at this
  omega

/-- The lowest value of a bucket lies in that bucket. -/
lemma width_lowestOf (v : ℤ) : width (lowestOf v) = width v := by
  rcases lt_or_ge v 2048 with h | h
  · rw [lowestOf_of_lt h]
  · have hlow := pow_le_lowestOf h
    have hpos : 0 < (2 : ℤ) ^ v.toNat.log2 := pow_pos (by norm_num) _
    have hlog : (lowestOf v).toNat.log2 = v.toNat.log2 := by
      refine (Nat.log2_eq_iff (by omega)).mpr ⟨?_, ?_⟩
      · zify
        omega
      · have := lt_pow_log2 (show 1 ≤ v by omega)
        have := lowestOf_le v
        zify
        omega
    rw [width, hlog, width]

lemma lowestOf_lowestOf (v : ℤ) : lowestOf (lowestOf v) = lowestOf v := by
  rw [lowestOf, width_lowestOf, lowestOf, Int.mul_ediv_cancel_left _ (width_pos v).ne']

lemma lowestOf_mono {u v : ℤ} (hu : 1 ≤ u) (huv : u ≤ v) : lowestOf u ≤ lowestOf v := by
  rcases eq_or_ne (width u) (width v) with hw | hw
  · rw [lowestOf, lowestOf, hw]
    exact Int.mul_le_mul_of_nonneg_left (Int.ediv_le_ediv (width_pos v) huv) (width_pos v).le
  · -- `v` has a longer binary representation, so its bucket begins above `u`
    have hv : 2048 ≤ v := by
      by_contra hv
      exact hw (by rw [width_of_lt (show u < 2048 by omega), width_of_lt (show v < 2048 by omega)])
    have hle : u.toNat.log2 ≤ v.toNat.log2 := by
      refine (Nat.le_log2 (by omega)).mpr ?_
      calc 2 ^ u.toNat.log2 ≤ u.toNat := Nat.log2_self_le (by omega)
        _ ≤ v.toNat := by omega
    have hlt : u.toNat.log2 < v.toNat.log2 :=
      lt_of_le_of_ne hle fun heq => hw (by rw [width, heq, width])
    calc lowestOf u ≤ u := lowestOf_le u
      _ ≤ 2 ^ (u.toNat.log2 + 1) := (lt_pow_log2 hu).le
      _ ≤ 2 ^ v.toNat.log2 := pow_le_pow_right₀ (by norm_num) hlt
      _ ≤ lowestOf v := pow_le_lowestOf hv

/-- The histogram the load generator allocates, with any highest trackable value. -/
def threeDigits (top : ℤ) : HdrHistogram 2048 top where
  lowestEquivalent := lowestOf
  highestEquivalent v := lowestOf v + width v - 1
  lowest_mono _ _ hu huv _ := lowestOf_mono hu huv
  highest_lowest v _ _ := by rw [lowestOf_lowestOf, width_lowestOf]
  own_bucket v _ hv := by
    rw [lowestOf_of_lt hv, width_of_lt hv]
    omega
  shared_bucket v hv _ := by
    have hlog : 11 ≤ v.toNat.log2 := (Nat.le_log2 (by omega)).mpr (by omega)
    have hwidth : 2 ≤ width v := by
      calc (2 : ℤ) = 2 ^ 1 := by norm_num
        _ ≤ width v := pow_le_pow_right₀ (by norm_num) (by omega)
    omega

end HdrHistogram

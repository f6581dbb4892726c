import Mathlib.Data.Multiset.Sort

/-!
# Ranks in a multiset

A percentile is an element of a given rank in a sorted multiset of samples.  A histogram does not
hold the samples but runs of them, each a value with the number of times it occurs, and finds the
rank by walking the runs with a running count.

* `Multiset.ranked s i` — the entry at position `i` of `s` in ascending order, so the element of
  rank `i + 1`.
* `Runs.expand` writes the runs out, and `Runs.walk` is the walk.
* `Runs.walk_eq_ranked` — on runs in ascending order the walk finds the ranked element of the
  multiset written out, however the count of a value is split over several runs.
-/

namespace Multiset

variable {α β : Type*} [LinearOrder α] [LinearOrder β]

def ranked (s : Multiset α) (i : ℕ) : Option α := (s.sort (· ≤ ·))[i]?

lemma exists_ranked {s : Multiset α} {i : ℕ} (h : i < card s) : ∃ v, s.ranked i = some v := by
  have hlength : i < (s.sort (· ≤ ·)).length := by
    rwa [length_sort]
  exact ⟨_, List.getElem?_eq_getElem hlength⟩

lemma mem_of_ranked {s : Multiset α} {i : ℕ} {v : α} (h : s.ranked i = some v) : v ∈ s :=
  (mem_sort (· ≤ ·)).mp (List.mem_of_getElem? h)

/-- A larger rank is not below a smaller one. -/
lemma ranked_le_ranked {s : Multiset α} {i j : ℕ} {v w : α} (hij : i ≤ j)
    (hi : s.ranked i = some v) (hj : s.ranked j = some w) : v ≤ w := by
  rcases hij.eq_or_lt with rfl | hlt
  · exact (Option.some.inj (hi.symm.trans hj)).le
  · obtain ⟨hi', rfl⟩ := List.getElem?_eq_some_iff.mp hi
    obtain ⟨hj', rfl⟩ := List.getElem?_eq_some_iff.mp hj
    exact List.pairwise_iff_getElem.mp (pairwise_sort s (· ≤ ·)) i j hi' hj' hlt

/-- A list in ascending order is its own sorting. -/
lemma sort_coe_of_pairwise {l : List α} (h : l.Pairwise (· ≤ ·)) :
    (l : Multiset α).sort (· ≤ ·) = l :=
  (coe_eq_coe.mp (sort_eq (l : Multiset α) (· ≤ ·))).eq_of_pairwise' (pairwise_sort _ _) h

lemma ranked_coe {l : List α} (h : l.Pairwise (· ≤ ·)) (i : ℕ) :
    (l : Multiset α).ranked i = l[i]? := by
  rw [ranked, sort_coe_of_pairwise h]

/-- The ranked element of a monotone image is the image of the ranked element. -/
lemma ranked_map {f : α → β} {s : Multiset α} (hf : MonotoneOn f {a | a ∈ s}) (i : ℕ) :
    (s.map f).ranked i = (s.ranked i).map f := by
  have hsorted : ((s.sort (· ≤ ·)).map f).Pairwise (· ≤ ·) := by
    refine List.pairwise_map.mpr ((pairwise_sort s (· ≤ ·)).imp_of_mem ?_)
    intro a b ha hb hab
    exact hf ((mem_sort _).mp ha) ((mem_sort _).mp hb) hab
  have hmap : s.map f = ((s.sort (· ≤ ·)).map f : List β) := by
    rw [← map_coe, sort_eq]
  rw [hmap, ranked_coe hsorted, List.getElem?_map, ranked]

end Multiset

namespace Runs

variable {α : Type*}

/-- The runs written out. -/
def expand (runs : List (α × ℕ)) : List α := runs.flatMap fun run => List.replicate run.2 run.1

/-- The value at which the running count passes `i`. -/
def walk : ℕ → List (α × ℕ) → Option α
  | _, [] => none
  | i, run :: runs => if i < run.2 then some run.1 else walk (i - run.2) runs

lemma walk_eq_getElem? (i : ℕ) (runs : List (α × ℕ)) : walk i runs = (expand runs)[i]? := by
  induction runs generalizing i with
  | nil => rfl
  | cons run runs ih =>
      simp only [walk, expand, List.flatMap_cons]
      split_ifs with h
      · rw [List.getElem?_append_left (by rwa [List.length_replicate]),
          List.getElem?_replicate_of_lt h]
      · rw [List.getElem?_append_right (by rw [List.length_replicate]; omega),
          List.length_replicate]
        exact ih (i - run.2)

lemma mem_expand {runs : List (α × ℕ)} {v : α} (h : v ∈ expand runs) :
    ∃ run ∈ runs, run.1 = v := by
  obtain ⟨run, hrun, hv⟩ := List.mem_flatMap.mp h
  exact ⟨run, hrun, (List.eq_of_mem_replicate hv).symm⟩

lemma expand_perm {runs runs' : List (α × ℕ)} (h : runs.Perm runs') :
    (expand runs).Perm (expand runs') := h.flatMap_right _

/-- Distinct values, each with its count: a value is written out that often. -/
lemma count_expand [DecidableEq α] {values : List α} (h : values.Nodup) (f : α → ℕ) (a : α) :
    (expand (values.map fun v => (v, f v))).count a = if a ∈ values then f a else 0 := by
  induction values with
  | nil => rfl
  | cons v values ih =>
      obtain ⟨hv, hnodup⟩ := List.nodup_cons.mp h
      have hrest := ih hnodup
      simp only [List.map_cons, expand, List.flatMap_cons, List.count_append,
        List.count_replicate] at hrest ⊢
      rw [hrest]
      by_cases hav : v = a
      · subst hav
        simp [hv]
      · simp [hav, Ne.symm hav]

/-- Runs in ascending order are written out in ascending order. -/
lemma pairwise_expand [LinearOrder α] {runs : List (α × ℕ)}
    (h : runs.Pairwise fun r s => r.1 ≤ s.1) : (expand runs).Pairwise (· ≤ ·) := by
  induction h with
  | nil => exact List.Pairwise.nil
  | @cons run runs hle _ ih =>
      refine List.pairwise_append.mpr ⟨List.pairwise_replicate.mpr (Or.inr le_rfl), ih, ?_⟩
      intro a ha b hb
      obtain ⟨run', hrun', rfl⟩ := mem_expand hb
      rw [List.eq_of_mem_replicate ha]
      exact hle run' hrun'

/-- **The walk finds the rank.** -/
theorem walk_eq_ranked [LinearOrder α] {runs : List (α × ℕ)}
    (h : runs.Pairwise fun r s => r.1 ≤ s.1) (i : ℕ) :
    walk i runs = (expand runs : Multiset α).ranked i := by
  rw [walk_eq_getElem?, Multiset.ranked_coe (pairwise_expand h)]

end Runs

import Mathlib.Data.List.Basic

/-!
# Lists whose elements carry their position

A log is a list in which every element knows its own number, and the numbers are consecutive.  Then
a range of numbers is a piece of the list: filtering by a bound on the number is dropping or taking,
and overwriting from a number on is a splice.
-/

namespace Consecutive

variable {α : Type*} {idx : α → ℕ} {first : ℕ} {l l' : List α}

/-- The elements are numbered `first`, `first + 1`, and so on. -/
def From (idx : α → ℕ) : ℕ → List α → Prop
  | _, [] => True
  | first, a :: l => idx a = first ∧ From idx (first + 1) l

instance From.decidable (idx : α → ℕ) : ∀ first l, Decidable (From idx first l)
  | _, [] => isTrue trivial
  | first, a :: l =>
      have := From.decidable idx (first + 1) l
      inferInstanceAs (Decidable (idx a = first ∧ From idx (first + 1) l))

lemma from_iff : From idx first l ↔ ∀ i a, l[i]? = some a → idx a = first + i := by
  induction l generalizing first with
  | nil => simp [From]
  | cons b l ih =>
      rw [From, ih]
      constructor
      · rintro ⟨hb, hl⟩ i a ha
        cases i with
        | zero => simpa [← Option.some.inj ha] using hb
        | succ i => rw [hl i a (by simpa using ha)]; omega
      · intro h
        refine ⟨by simpa using h 0 b rfl, fun i a ha => ?_⟩
        rw [h (i + 1) a (by simpa using ha)]
        omega

lemma from_append : From idx first (l ++ l') ↔
    From idx first l ∧ From idx (first + l.length) l' := by
  induction l generalizing first with
  | nil => simp [From]
  | cons a l ih =>
      rw [List.cons_append, From, From, ih, List.length_cons, Nat.add_comm l.length 1,
        ← Nat.add_assoc, and_assoc]

lemma From.take (h : From idx first l) (n : ℕ) : From idx first (l.take n) := by
  rw [← List.take_append_drop n l] at h
  exact (from_append.mp h).1

lemma From.drop (h : From idx first l) (n : ℕ) : From idx (first + n) (l.drop n) := by
  rw [from_iff] at h ⊢
  intro i a ha
  rw [List.getElem?_drop] at ha
  rw [h (n + i) a ha]
  omega

/-- Dropping what is numbered below `lo`. -/
lemma From.drop_sub (h : From idx first l) {lo : ℕ} (hlo : first ≤ lo ∨ l.length ≤ lo - first) :
    From idx lo (l.drop (lo - first)) := by
  rcases hlo with hlo | hlo
  · have hdrop := h.drop (lo - first)
    rwa [Nat.add_sub_cancel' hlo] at hdrop
  · rw [List.drop_eq_nil_of_le hlo]
    trivial

/-- The element with a given number. -/
lemma From.getElem?_sub (h : From idx first l) {a : α} (ha : a ∈ l) :
    first ≤ idx a ∧ l[idx a - first]? = some a := by
  obtain ⟨i, hi⟩ := List.mem_iff_getElem?.mp ha
  have hidx := from_iff.mp h i a hi
  refine ⟨by omega, ?_⟩
  rw [hidx, Nat.add_sub_cancel_left, hi]

lemma From.idx_lt (h : From idx first l) {a : α} (ha : a ∈ l) : idx a < first + l.length := by
  obtain ⟨hle, hget⟩ := h.getElem?_sub ha
  have := (List.getElem?_eq_some_iff.mp hget).1
  omega

lemma From.pairwise (h : From idx first l) : l.Pairwise fun a b => idx a < idx b := by
  induction l generalizing first with
  | nil => exact List.Pairwise.nil
  | cons a l ih =>
      refine List.pairwise_cons.mpr ⟨fun b hb => ?_, ih h.2⟩
      have hle := (h.2.getElem?_sub hb).1
      have hfirst := h.1
      omega

/-! ## Ranges of numbers -/

lemma From.filter_le (h : From idx first l) (lo : ℕ) :
    l.filter (fun a => lo ≤ idx a) = l.drop (lo - first) := by
  induction l generalizing first with
  | nil => simp
  | cons a l ih =>
      have hrest := ih h.2
      have hfirst : idx a = first := h.1
      by_cases hlo : lo ≤ first
      · have hzero : lo - (first + 1) = 0 := by omega
        rw [hzero, List.drop_zero] at hrest
        rw [List.filter_cons_of_pos (by simp [hfirst, hlo]), hrest, Nat.sub_eq_zero_of_le hlo,
          List.drop_zero]
      · have hsucc : lo - first = lo - (first + 1) + 1 := by omega
        rw [List.filter_cons_of_neg (by simp [hfirst]; omega), hrest, hsucc, List.drop_succ_cons]

lemma From.filter_lt (h : From idx first l) (hi : ℕ) :
    l.filter (fun a => idx a < hi) = l.take (hi - first) := by
  induction l generalizing first with
  | nil => simp
  | cons a l ih =>
      have hrest := ih h.2
      have hfirst : idx a = first := h.1
      by_cases hhi : first < hi
      · have hsucc : hi - first = hi - (first + 1) + 1 := by omega
        rw [List.filter_cons_of_pos (by simp [hfirst, hhi]), hrest, hsucc, List.take_succ_cons]
      · have hzero : hi - (first + 1) = 0 := by omega
        rw [hzero, List.take_zero] at hrest
        rw [List.filter_cons_of_neg (by simp [hfirst]; omega), hrest,
          Nat.sub_eq_zero_of_le (by omega), List.take_zero]

/-! ## Overwriting -/

/-- Overwrite from a position on: what lies behind the new elements stays. -/
def splice (l : List α) (n : ℕ) (new : List α) : List α :=
  l.take n ++ new ++ l.drop (n + new.length)

@[simp] lemma splice_nil (l : List α) (n : ℕ) : splice l n [] = l := by
  simp [splice]

/-- The new elements can be written one after the other. -/
lemma splice_cons {n : ℕ} (hn : n ≤ l.length) (a : α) (new : List α) :
    splice l n (a :: new) = splice (splice l n [a]) (n + 1) new := by
  have hlength : (l.take n ++ [a]).length = n + 1 := by simp [hn]
  have htake : (splice l n [a]).take (n + 1) = l.take n ++ [a] := by
    rw [splice, ← hlength, List.take_left]
  have hdrop : (splice l n [a]).drop (n + 1 + new.length) = l.drop (n + 1 + new.length) := by
    rw [splice, ← List.drop_drop, ← hlength, List.drop_left, hlength, List.drop_drop]
    rfl
  rw [splice, splice, htake, hdrop]
  simp [Nat.add_comm, Nat.add_left_comm]

lemma length_splice_singleton {n : ℕ} (hn : n ≤ l.length) (a : α) :
    n + 1 ≤ (splice l n [a]).length := by
  simp only [splice, List.length_append, List.length_take, List.length_singleton,
    List.length_drop]
  omega

lemma From.splice (h : From idx first l) {n : ℕ} (hn : n ≤ l.length) {new : List α}
    (hnew : From idx (first + n) new) : From idx first (splice l n new) := by
  have htake : (l.take n).length = n := by simp [hn]
  refine from_append.mpr ⟨from_append.mpr ⟨h.take n, by rwa [htake]⟩, ?_⟩
  have hdrop := h.drop (n + new.length)
  rwa [List.length_append, htake]

end Consecutive

import Mathlib.Data.List.Basic

/-!
# Replacing one element of a list

The parties of a machine are kept in a list, and a step of one of them replaces its entry.  What
happens to a property of all entries, to a count and to an image of the list is the same wherever
that is done.
-/

namespace List

variable {α β : Type*} {l : List α} {k : ℕ} {a b : α}

/-- What holds of every element and of the new one holds of every element afterwards. -/
lemma forall_set {P : α → Prop} (h : ∀ x ∈ l, P x) (hb : P b) (k : ℕ) : ∀ x ∈ l.set k b, P x := by
  intro x hx
  rcases mem_or_eq_of_mem_set hx with hx | rfl
  · exact h x hx
  · exact hb

lemma forall_concat {P : α → Prop} (h : ∀ x ∈ l, P x) (hb : P b) : ∀ x ∈ l ++ [b], P x := by
  intro x hx
  rcases mem_append.mp hx with hx | hx
  · exact h x hx
  · exact mem_singleton.mp hx ▸ hb

/-- Replacing an element by one with the same image leaves the image of the list. -/
lemma map_set_of_eq {f : α → β} (found : l[k]? = some a) (hf : f b = f a) :
    (l.set k b).map f = l.map f := by
  refine ext_getElem? fun j => ?_
  rw [map_set, getElem?_set]
  split_ifs with hj hk
  · rw [← hj, getElem?_map, found, hf]
    rfl
  · rw [← hj, getElem?_eq_none (Nat.le_of_not_lt hk)]
  · rfl

/-- The same for the elements with a property, when both elements have it or neither does. -/
lemma map_filter_set_of_eq {f : α → β} {p : α → Bool} (found : l[k]? = some a) (hp : p b = p a)
    (hf : f b = f a) : ((l.set k b).filter p).map f = (l.filter p).map f := by
  have hpairs : ∀ m : List α,
      (m.filter p).map f = ((m.map fun x => (p x, f x)).filter Prod.fst).map Prod.snd := by
    intro m
    simp [filter_map, Function.comp_def]
  rw [hpairs, hpairs, map_set_of_eq found (by rw [hp, hf])]

/-- An element that gets a property joins those that have it. -/
lemma filter_set_perm {p : α → Bool} (found : l[k]? = some a) (ha : p a = false)
    (hb : p b = true) : ((l.set k b).filter p).Perm (b :: l.filter p) := by
  induction l generalizing k with
  | nil => cases found
  | cons x l ih =>
      cases k with
      | zero =>
          obtain rfl := Option.some.inj found
          simp [ha, hb]
      | succ k =>
          have hrest := ih (k := k) found
          cases hx : p x with
          | false => simpa [hx] using hrest
          | true =>
              rw [set_cons_succ, filter_cons_of_pos hx, filter_cons_of_pos hx]
              exact (hrest.cons x).trans (Perm.swap b x _)

/-- Replacing an element, behind the first `n`. -/
lemma drop_set_of_le {n : ℕ} (hn : n ≤ k) (found : l[k]? = some a) (b : α) :
    (l.drop n)[k - n]? = some a ∧ (l.set k b).drop n = (l.drop n).set (k - n) b := by
  constructor
  · rw [getElem?_drop, Nat.add_sub_cancel' hn, found]
  · rw [drop_set, if_neg (Nat.not_lt.mpr hn)]

/-- Replacing an element moves it from one count to another. -/
lemma countP_set_add (p : α → Bool) (found : l[k]? = some a) (b : α) :
    (l.set k b).countP p + (p a).toNat = l.countP p + (p b).toNat := by
  obtain ⟨hk, rfl⟩ := getElem?_eq_some_iff.mp found
  have hpos : p l[k] = true → 0 < l.countP p := by
    intro hp
    exact countP_pos_iff.mpr ⟨l[k], getElem_mem hk, hp⟩
  rw [countP_set hk]
  cases hp : p l[k] with
  | true =>
      have := hpos hp
      cases p b <;> simp <;> omega
  | false => cases p b <;> simp

end List

import Mathlib.Data.List.Nodup
import Mathlib.Order.Nat

/-!
# Linearizability

A history lists what the clients of a concurrent object see: calls that begin and calls that are
answered, in the order in which it happens.  It is linearizable when one sequential order of the
calls explains all answers and never contradicts real time.  Calls that are never answered may stand
in the order or not.

* `SeqObject` — the sequential object, and its answers to a list of operations.
* `Linearizes` — an order that explains a history.
* `Linearizes.invoke`, `Linearizes.append` and `Linearizes.respond` — a history that grows by one
  action, and an order that grows by one call: an object whose calls take effect at one point each,
  between their beginning and their answer, is linearized by the order of these points.
* `Linearizes.insert` — a call that does not change the state may also take its place further ahead,
  as long as none of the calls it overtakes was answered before it began.
-/

/-- A sequential object: a state, and what an operation does to it and answers. -/
structure SeqObject (σ ι ο : Type*) where
  init : σ
  act : σ → ι → σ × ο

/-- Where the element at `i` stands after one has been put in at `k`. -/
def List.shift (k i : ℕ) : ℕ := if i < k then i else i + 1

lemma List.shift_lt_shift {i j : ℕ} (k : ℕ) (h : i < j) : shift k i < shift k j := by
  unfold shift
  split_ifs <;> omega

lemma List.exists_shift {k j : ℕ} (h : j ≠ k) : ∃ i, j = shift k i := by
  rcases Nat.lt_or_gt_of_ne h with hj | hj
  · exact ⟨j, (if_pos hj).symm⟩
  · refine ⟨j - 1, ?_⟩
    rw [shift, if_neg (by omega)]
    omega

lemma List.getElem?_shift {α : Type*} (front back : List α) (x : α) (i : ℕ) :
    (front ++ x :: back)[shift front.length i]? = (front ++ back)[i]? := by
  unfold shift
  split_ifs with hi
  · rw [getElem?_append_left hi, getElem?_append_left hi]
  · rw [getElem?_append_right (by omega), getElem?_append_right (by omega),
      Nat.sub_add_comm (not_lt.mp hi), getElem?_cons_succ]

namespace SeqObject

variable {σ ι ο : Type*} (obj : SeqObject σ ι ο)

/-- The state a list of operations leaves behind. -/
def after (ops : List ι) : σ := ops.foldl (fun s op => (obj.act s op).1) obj.init

/-- The answer to operation number `i`. -/
def answer (ops : List ι) (i : ℕ) : Option ο :=
  ops[i]?.map fun op => (obj.act (obj.after (ops.take i)) op).2

lemma after_concat (ops : List ι) (op : ι) :
    obj.after (ops ++ [op]) = (obj.act (obj.after ops) op).1 := List.foldl_concat ..

/-- Later operations do not change an answer. -/
lemma answer_append {ops : List ι} {i : ℕ} {r : ο} (h : obj.answer ops i = some r) (ops' : List ι) :
    obj.answer (ops ++ ops') i = some r := by
  obtain ⟨op, hop, rfl⟩ := Option.map_eq_some_iff.mp h
  have hi := (List.getElem?_eq_some_iff.mp hop).1
  rw [answer, List.getElem?_append_left hi, hop, List.take_append_of_le_length hi.le]
  rfl

/-- An operation that changes nothing can be left out. -/
lemma after_insert {op : ι} (hkeep : ∀ s, (obj.act s op).1 = s) (front back : List ι) :
    obj.after (front ++ op :: back) = obj.after (front ++ back) := by
  rw [after, after, List.foldl_append, List.foldl_append, List.foldl_cons, hkeep]

/-- **Answers do not change** when an operation is put in that changes nothing, or at the end. -/
lemma answer_insert (op : ι) {front back : List ι}
    (hkeep : back = [] ∨ ∀ s, (obj.act s op).1 = s) {i : ℕ} {r : ο}
    (h : obj.answer (front ++ back) i = some r) :
    obj.answer (front ++ op :: back) (List.shift front.length i) = some r := by
  obtain ⟨op', hop, rfl⟩ := Option.map_eq_some_iff.mp h
  rw [answer, List.getElem?_shift, hop, Option.map_some, List.shift]
  split_ifs with hi
  · rw [List.take_append_of_le_length hi.le, List.take_append_of_le_length hi.le]
  · have hlength := (List.getElem?_eq_some_iff.mp hop).1
    rcases hkeep with rfl | hkeep
    · rw [List.append_nil] at hlength
      exact absurd hlength hi
    · obtain ⟨k, rfl⟩ := Nat.exists_eq_add_of_le (not_lt.mp hi)
      rw [Nat.add_assoc, List.take_length_add_append, List.take_length_add_append,
        List.take_succ_cons, after_insert obj hkeep]

end SeqObject

namespace Linearizability

/-- What can be seen of a call: that it begins, and its answer. -/
inductive Action (κ ι ο : Type*) where
  | invoke (call : κ) (op : ι)
  | respond (call : κ) (answer : ο)
  deriving DecidableEq, Repr

variable {σ κ ι ο : Type*} {obj : SeqObject σ ι ο}

/-- The order explains the history.  It has no call twice and only calls that have begun; every
answer is the one of the sequential object in this order; and a call that begins after the answer of
another one stands behind it. -/
structure Linearizes (obj : SeqObject σ ι ο) (order : List (κ × ι))
    (history : List (Action κ ι ο)) : Prop where
  nodup : (order.map Prod.fst).Nodup
  invoked : ∀ c op, (c, op) ∈ order → .invoke c op ∈ history
  answered : ∀ c r, .respond c r ∈ history →
    ∃ i, (order.map Prod.fst)[i]? = some c ∧ obj.answer (order.map Prod.snd) i = some r
  realtime : ∀ a r b op, [Action.respond a r, Action.invoke b op].Sublist history →
    ∀ i j : ℕ, (order.map Prod.fst)[i]? = some a → (order.map Prod.fst)[j]? = some b → i < j

def Linearizable (obj : SeqObject σ ι ο) (history : List (Action κ ι ο)) : Prop :=
  ∃ order, Linearizes obj order history

namespace Linearizes

variable {order : List (κ × ι)} {history : List (Action κ ι ο)}

lemma nil : Linearizes (κ := κ) obj [] [] where
  nodup := List.nodup_nil
  invoked := by simp
  answered := by simp
  realtime := by simp

/-- What two actions in a row of a longer history were: already there, or the last one is new. -/
lemma sublist_concat {x y z : Action κ ι ο} (h : [x, y].Sublist (history ++ [z])) :
    [x, y].Sublist history ∨ y = z := by
  obtain ⟨l₁, l₂, hsplit, h₁, h₂⟩ := List.sublist_append_iff.mp h
  rcases List.eq_nil_or_concat l₂ with rfl | ⟨l, b, rfl⟩
  · rw [List.append_nil] at hsplit
    exact Or.inl (hsplit ▸ h₁)
  · have hlast : y = b := by
      have hboth := congrArg List.getLast? hsplit
      simpa [← List.append_assoc] using hboth
    have hb : b ∈ [z] := h₂.mem (by simp)
    exact Or.inr (hlast.trans (List.mem_singleton.mp hb))

/-- A call begins. -/
lemma invoke (h : Linearizes obj order history) {c : κ} (op : ι)
    (hnew : c ∉ order.map Prod.fst) : Linearizes obj order (history ++ [.invoke c op]) where
  nodup := h.nodup
  invoked c' op' hmem := List.mem_append_left _ (h.invoked c' op' hmem)
  answered c' r hmem := h.answered c' r (by simpa using hmem)
  realtime a r b op' hsub i j ha hb := by
    rcases sublist_concat hsub with hsub | hlast
    · exact h.realtime a r b op' hsub i j ha hb
    · cases hlast
      exact absurd (List.mem_of_getElem? hb) hnew

/-- A call takes effect in the middle of the order that has begun and is not answered.  The calls
behind it find the same state as before, and none of them was answered before it began. -/
lemma insert {front back : List (κ × ι)} (h : Linearizes obj (front ++ back) history) {c : κ}
    {op : ι} (hnew : c ∉ (front ++ back).map Prod.fst) (hbegun : .invoke c op ∈ history)
    (hopen : ∀ r, .respond c r ∉ history) (hkeep : back = [] ∨ ∀ s, (obj.act s op).1 = s)
    (hback : ∀ a ∈ back.map Prod.fst, ∀ r op',
      ¬ [Action.respond a r, Action.invoke c op'].Sublist history) :
    Linearizes obj (front ++ (c, op) :: back) history where
  nodup := by
    have hperm : ((c :: (front ++ back).map Prod.fst)).Perm
        ((front ++ (c, op) :: back).map Prod.fst) := by
      rw [List.map_append, List.map_append, List.map_cons]
      exact List.perm_middle.symm
    exact hperm.nodup_iff.mp (List.nodup_cons.mpr ⟨hnew, h.nodup⟩)
  invoked c' op' hmem := by
    rcases List.mem_append.mp hmem with hmem | hmem
    · exact h.invoked c' op' (List.mem_append_left _ hmem)
    · rcases List.mem_cons.mp hmem with heq | hmem
      · cases heq
        exact hbegun
      · exact h.invoked c' op' (List.mem_append_right _ hmem)
  answered c' r hmem := by
    obtain ⟨i, hi, hr⟩ := h.answered c' r hmem
    rw [List.map_append] at hi hr
    refine ⟨List.shift front.length i, ?_, ?_⟩
    · have hshift := List.getElem?_shift (front.map Prod.fst) (back.map Prod.fst) c i
      rw [List.length_map] at hshift
      rw [List.map_append, List.map_cons, hshift, hi]
    · have hanswer := obj.answer_insert op
        (hkeep.imp_left fun hnil => by rw [hnil, List.map_nil]) hr
      rw [List.length_map] at hanswer
      rw [List.map_append, List.map_cons]
      exact hanswer
  realtime a r b op' hsub i j ha hb := by
    rw [List.map_append, List.map_cons] at ha hb
    have hanswer : .respond a r ∈ history := hsub.mem (by simp)
    have hshift := List.getElem?_shift (front.map Prod.fst) (back.map Prod.fst) c
    have hnew : (front.map Prod.fst ++ c :: back.map Prod.fst)[front.length]? = some c := by
      simp
    rw [List.length_map] at hshift
    -- the first of the two is answered, so it is not the new one
    have hi : i ≠ front.length := by
      rintro rfl
      rw [hnew] at ha
      exact hopen r (Option.some.inj ha ▸ hanswer)
    by_cases hj : j = front.length
    · -- it stands ahead of the new one, since nothing behind it was answered in time
      subst hj
      rw [hnew] at hb
      obtain rfl := Option.some.inj hb
      by_contra hlt
      rw [List.getElem?_append_right (by rw [List.length_map]; omega)] at ha
      have hpos : i - (front.map Prod.fst).length ≠ 0 := by
        rw [List.length_map]
        omega
      obtain ⟨k, hk⟩ := Nat.exists_eq_succ_of_ne_zero hpos
      rw [hk, Nat.succ_eq_add_one, List.getElem?_cons_succ] at ha
      exact hback a (List.mem_of_getElem? ha) r op' hsub
    · obtain ⟨i, rfl⟩ := List.exists_shift hi
      obtain ⟨j, rfl⟩ := List.exists_shift hj
      rw [hshift, ← List.map_append] at ha hb
      exact List.shift_lt_shift _ (h.realtime a r b op' hsub i j ha hb)

/-- A call takes effect that has begun and is not answered. -/
lemma append (h : Linearizes obj order history) {c : κ} {op : ι}
    (hnew : c ∉ order.map Prod.fst) (hbegun : .invoke c op ∈ history)
    (hopen : ∀ r, .respond c r ∉ history) : Linearizes obj (order ++ [(c, op)]) history := by
  have hend : Linearizes obj (order ++ []) history := by rwa [List.append_nil]
  exact hend.insert (by rwa [List.append_nil]) hbegun hopen (Or.inl rfl) (by simp)

/-- A call is answered that has taken effect. -/
lemma respond (h : Linearizes obj order history) {c : κ} {r : ο} {i : ℕ}
    (hc : (order.map Prod.fst)[i]? = some c) (hr : obj.answer (order.map Prod.snd) i = some r) :
    Linearizes obj order (history ++ [.respond c r]) where
  nodup := h.nodup
  invoked c' op' hmem := List.mem_append_left _ (h.invoked c' op' hmem)
  answered c' r' hmem := by
    rcases List.mem_append.mp hmem with hmem | hmem
    · exact h.answered c' r' hmem
    · cases List.mem_singleton.mp hmem
      exact ⟨i, hc, hr⟩
  realtime a r' b op' hsub := by
    rcases sublist_concat hsub with hsub | hlast
    · exact h.realtime a r' b op' hsub
    · cases hlast

end Linearizes

end Linearizability

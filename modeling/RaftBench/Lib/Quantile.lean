import Mathlib.Algebra.BigOperators.Group.List.Basic
import Mathlib.Algebra.Order.Ring.Rat
import Mathlib.Tactic.Linarith

/-!
# Quantiles of weighted values

A histogram is a list of values with weights.  Its quantile `p` is the value at which the weight,
added up in ascending order, reaches the share `p` of the total: what lies under it has not reached
the share (`IsQuantile.under_lt`), what lies up to it has (`IsQuantile.le_upTo`).

Weights of several histograms add up, value by value.  So the quantile of all of them together is
not above all of their own quantiles (`IsQuantile.flatten_le`), nor below all of them
(`IsQuantile.le_flatten`).
-/

namespace Quantile

variable {α : Type*}

def total (ws : List (α × ℤ)) : ℤ := (ws.map Prod.snd).sum

@[simp] lemma total_cons (w : α × ℤ) (ws : List (α × ℤ)) : total (w :: ws) = w.2 + total ws :=
  List.sum_cons

lemma total_append (ws ws' : List (α × ℤ)) : total (ws ++ ws') = total ws + total ws' := by
  simp [total]

/-- No weight is negative. -/
def Nonneg (ws : List (α × ℤ)) : Prop := ∀ w ∈ ws, 0 ≤ w.2

lemma Nonneg.tail {w : α × ℤ} {ws : List (α × ℤ)} (h : Nonneg (w :: ws)) : Nonneg ws :=
  fun w' hw' => h w' (List.mem_cons_of_mem w hw')

lemma nonneg_flatten {hists : List (List (α × ℤ))} (h : ∀ ws ∈ hists, Nonneg ws) :
    Nonneg hists.flatten := by
  intro w hw
  obtain ⟨ws, hws, hw⟩ := List.mem_flatten.mp hw
  exact h ws hws w hw

/-! ## Weights up to a value -/

variable [LinearOrder α]

def upTo (ws : List (α × ℤ)) (v : α) : ℤ := total (ws.filter fun w => w.1 ≤ v)

def under (ws : List (α × ℤ)) (v : α) : ℤ := total (ws.filter fun w => w.1 < v)

@[simp] lemma upTo_nil (v : α) : upTo [] v = 0 := rfl

@[simp] lemma under_nil (v : α) : under [] v = 0 := rfl

lemma upTo_cons (w : α × ℤ) (ws : List (α × ℤ)) (v : α) :
    upTo (w :: ws) v = (if w.1 ≤ v then w.2 else 0) + upTo ws v := by
  by_cases hw : w.1 ≤ v <;> simp [upTo, hw]

lemma under_cons (w : α × ℤ) (ws : List (α × ℤ)) (v : α) :
    under (w :: ws) v = (if w.1 < v then w.2 else 0) + under ws v := by
  by_cases hw : w.1 < v <;> simp [under, hw]

lemma upTo_append (ws ws' : List (α × ℤ)) (v : α) :
    upTo (ws ++ ws') v = upTo ws v + upTo ws' v := by
  rw [upTo, List.filter_append, total_append, upTo, upTo]

/-- Nothing lies under a value that none is below. -/
lemma under_eq_zero {ws : List (α × ℤ)} {v : α} (h : ∀ w ∈ ws, v ≤ w.1) : under ws v = 0 := by
  have hnil : (ws.filter fun w => w.1 < v) = [] :=
    List.filter_eq_nil_iff.mpr fun w hw => by simpa using h w hw
  rw [under, hnil]
  rfl

lemma upTo_nonneg {ws : List (α × ℤ)} (h : Nonneg ws) (v : α) : 0 ≤ upTo ws v := by
  induction ws with
  | nil => simp
  | cons w ws ih =>
      have hw := h w (List.mem_cons_self ..)
      have hrest := ih h.tail
      rw [upTo_cons]
      split_ifs <;> omega

lemma upTo_mono {ws : List (α × ℤ)} (h : Nonneg ws) {v v' : α} (hle : v ≤ v') :
    upTo ws v ≤ upTo ws v' := by
  induction ws with
  | nil => simp
  | cons w ws ih =>
      have hw := h w (List.mem_cons_self ..)
      have hrest := ih h.tail
      rw [upTo_cons, upTo_cons]
      split_ifs with hv hv'
      · omega
      · exact absurd (hv.trans hle) hv'
      · omega
      · omega

/-- What lies up to a smaller value lies under a larger one. -/
lemma upTo_le_under {ws : List (α × ℤ)} (h : Nonneg ws) {v v' : α} (hlt : v < v') :
    upTo ws v ≤ under ws v' := by
  induction ws with
  | nil => simp
  | cons w ws ih =>
      have hw := h w (List.mem_cons_self ..)
      have hrest := ih h.tail
      rw [upTo_cons, under_cons]
      split_ifs with hv hv'
      · omega
      · exact absurd (hv.trans_lt hlt) hv'
      · omega
      · omega

/-! ## The quantile of several histograms -/

structure IsQuantile (ws : List (α × ℤ)) (p : ℚ) (v : α) : Prop where
  under_lt : (under ws v : ℚ) < p * total ws
  le_upTo : p * total ws ≤ upTo ws v

section Flatten

variable {hists : List (List (α × ℤ))} {p : ℚ} {v : α}

/-- Shares that are reached in each histogram are reached in all together. -/
lemma le_upTo_flatten (h : ∀ ws ∈ hists, p * total ws ≤ upTo ws v) :
    p * total hists.flatten ≤ upTo hists.flatten v := by
  induction hists with
  | nil => simp [total]
  | cons ws hists ih =>
      have hws := h ws (List.mem_cons_self ..)
      have hrest := ih fun ws' hws' => h ws' (List.mem_cons_of_mem ws hws')
      rw [List.flatten_cons, total_append, upTo_append]
      push_cast
      linarith

/-- Shares that are reached in no histogram are not reached in all together. -/
lemma upTo_flatten_lt (hne : hists ≠ []) (h : ∀ ws ∈ hists, (upTo ws v : ℚ) < p * total ws) :
    (upTo hists.flatten v : ℚ) < p * total hists.flatten := by
  induction hists with
  | nil => exact absurd rfl hne
  | cons ws hists ih =>
      have hws := h ws (List.mem_cons_self ..)
      rw [List.flatten_cons, total_append, upTo_append]
      push_cast
      cases hists with
      | nil =>
          simp only [List.flatten_nil, upTo_nil, total, List.map_nil, List.sum_nil, Int.cast_zero,
            add_zero] at hws ⊢
          exact hws
      | cons ws' hists =>
          have hrest := ih (List.cons_ne_nil _ _)
            fun ws'' hws'' => h ws'' (List.mem_cons_of_mem ws hws'')
          linarith

variable (hnonneg : ∀ ws ∈ hists, Nonneg ws) (hv : IsQuantile hists.flatten p v)
include hnonneg hv

/-- **A common upper bound** of the quantiles is one of the quantile of all. -/
theorem IsQuantile.flatten_le {hi : α} (h : ∀ ws ∈ hists, ∃ w, w ≤ hi ∧ IsQuantile ws p w) :
    v ≤ hi := by
  by_contra hlt
  have hreached : p * total hists.flatten ≤ upTo hists.flatten hi := by
    refine le_upTo_flatten ?_
    intro ws hws
    obtain ⟨w, hw, hq⟩ := h ws hws
    have hmono : (upTo ws w : ℚ) ≤ upTo ws hi := by exact_mod_cast upTo_mono (hnonneg ws hws) hw
    exact hq.le_upTo.trans hmono
  have hunder : (upTo hists.flatten hi : ℚ) ≤ under hists.flatten v := by
    exact_mod_cast upTo_le_under (nonneg_flatten hnonneg) (not_le.mp hlt)
  exact absurd hv.under_lt (not_lt.mpr (hreached.trans hunder))

/-- **A common lower bound** of the quantiles is one of the quantile of all. -/
theorem IsQuantile.le_flatten (hne : hists ≠ []) {lo : α}
    (h : ∀ ws ∈ hists, ∃ w, lo ≤ w ∧ IsQuantile ws p w) : lo ≤ v := by
  by_contra hlt
  have hmissed : (upTo hists.flatten v : ℚ) < p * total hists.flatten := by
    refine upTo_flatten_lt hne ?_
    intro ws hws
    obtain ⟨w, hw, hq⟩ := h ws hws
    have hunder : (upTo ws v : ℚ) ≤ under ws w := by
      exact_mod_cast upTo_le_under (hnonneg ws hws) ((not_le.mp hlt).trans_le hw)
    exact hunder.trans_lt hq.under_lt
  exact absurd hv.le_upTo (not_le.mpr hmissed)

end Flatten

end Quantile

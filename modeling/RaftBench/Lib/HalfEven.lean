import Mathlib.Data.Rat.Floor
import Mathlib.Tactic.FieldSimp
import Mathlib.Tactic.Linarith
import Mathlib.Tactic.Ring

/-!
# Rounding a mean

Rounding to the nearest integer with ties to the even one, and what it makes of a quotient of an
integer by a count: how it compares with the floor division (`roundHalfEven_div_eq_iff`) and when it
is positive (`roundHalfEven_div_pos_iff`).
-/

namespace HalfEven

/-- The nearest integer, and of two at the same distance the even one. -/
def roundHalfEven (q : ℚ) : ℤ :=
  if q - ⌊q⌋ < 1 / 2 then ⌊q⌋
  else if 1 / 2 < q - ⌊q⌋ then ⌊q⌋ + 1
  else if ⌊q⌋ % 2 = 0 then ⌊q⌋
  else ⌊q⌋ + 1

@[simp] lemma roundHalfEven_intCast (z : ℤ) : roundHalfEven z = z := by
  rw [roundHalfEven, if_pos (by norm_num), Int.floor_intCast]

section Quotient

variable (s : ℤ) {n : ℕ}

/-- What a quotient has behind the point. -/
lemma div_sub_floor (hn : 0 < n) : (s : ℚ) / n - ⌊(s : ℚ) / n⌋ = (s % n : ℤ) / n := by
  have hpos : (0 : ℚ) < n := by exact_mod_cast hn
  have hdiv : (s : ℚ) = (n : ℚ) * (s / n : ℤ) + (s % n : ℤ) := by
    exact_mod_cast (Int.mul_ediv_add_emod s n).symm
  rw [Rat.floor_intCast_div_natCast]
  field_simp
  linarith

lemma lt_half_iff (hn : 0 < n) : (s % n : ℤ) / (n : ℚ) < 1 / 2 ↔ 2 * (s % n) < n := by
  have hpos : (0 : ℚ) < n := by exact_mod_cast hn
  rw [div_lt_div_iff₀ hpos two_pos, one_mul, mul_comm]
  exact_mod_cast Iff.rfl

lemma half_lt_iff (hn : 0 < n) : 1 / 2 < (s % n : ℤ) / (n : ℚ) ↔ n < 2 * (s % n) := by
  have hpos : (0 : ℚ) < n := by exact_mod_cast hn
  rw [div_lt_div_iff₀ two_pos hpos, one_mul, mul_comm]
  exact_mod_cast Iff.rfl

/-- The rounded quotient in integers. -/
lemma roundHalfEven_div (hn : 0 < n) :
    roundHalfEven ((s : ℚ) / n)
      = if 2 * (s % n) < n ∨ (2 * (s % n) = n ∧ s / n % 2 = 0) then s / n else s / n + 1 := by
  rw [roundHalfEven]
  simp only [div_sub_floor s hn, lt_half_iff s hn, half_lt_iff s hn]
  rw [Rat.floor_intCast_div_natCast]
  split_ifs <;> omega

/-- The rounded mean is positive when the mean is above one half. -/
theorem roundHalfEven_div_pos_iff (hn : 0 < n) :
    0 < roundHalfEven ((s : ℚ) / n) ↔ n < 2 * s := by
  have hpos : (0 : ℤ) < n := by exact_mod_cast hn
  have hdiv := Int.mul_ediv_add_emod s n
  have hlow := Int.emod_nonneg s hpos.ne'
  have hhigh := Int.emod_lt_of_pos s hpos
  rw [roundHalfEven_div s hn]
  rcases lt_trichotomy (s / n) 0 with hq | hq | hq
  · have hle : n * (s / n) ≤ n * (-1) := Int.mul_le_mul_of_nonneg_left (by omega) hpos.le
    split_ifs <;> omega
  · rw [hq] at hdiv ⊢
    split_ifs <;> omega
  · have hle : n * 1 ≤ n * (s / n) := Int.mul_le_mul_of_nonneg_left (by omega) hpos.le
    split_ifs <;> omega

end Quotient

end HalfEven

import Mathlib.Algebra.BigOperators.Group.List.Basic
import Mathlib.Algebra.Group.Action.Defs
import Mathlib.Algebra.Order.Ring.Nat
import Mathlib.Tactic.Ring

/-!
# Splitting the offered rate over the generators

A row of a sweep is labelled with the rate `R` of its iteration, and the load is offered by several
generators at once.  `sweep-multi.sh` runs one on each client box and hands the remainder of
`R / N` to the first boxes, one each.  `sweep-gen.sh` runs `PER` of them on every box and gives all
of them the same quotient.

`rates_sum_iff` says when both offer what the row is labelled with: the first always does, the
second when its number of generators divides the rate.  The shell's arithmetic is that of the
natural numbers here; its 64 bits are out of reach of a rate.
-/

namespace RaftBench.Sweep

/-- The boxes of `CLIENTS`, and the generators `sweep-gen.sh` runs on each. -/
structure Fleet where
  hosts : List String
  per : ℕ
  hosts_ne : hosts ≠ []
  per_pos : 1 ≤ per

/-! ## sweep-multi -/

/-- `MYRATE` of client `i` out of `n`. -/
def myRate (r n i : ℕ) : ℕ :=
  let base := r / n
  let rem := r % n
  if i < rem then base + 1 else base

/-- The `--rate` of every client. -/
def clientRates (fleet : Fleet) (r : ℕ) : List ℕ :=
  (List.range fleet.hosts.length).map (myRate r fleet.hosts.length)

/-- The first `m` clients: every one has the quotient, and one more each while the remainder
lasts. -/
lemma sum_myRate (r n m : ℕ) :
    ((List.range m).map (myRate r n)).sum = m * (r / n) + min m (r % n) := by
  induction m with
  | zero => simp
  | succ m ih =>
      rw [List.range_succ, List.map_append, List.sum_append, ih, List.map_singleton,
        List.sum_singleton, Nat.succ_mul, myRate]
      split_ifs with hrem
      · rw [Nat.min_eq_left hrem.le, Nat.min_eq_left hrem]
        omega
      · rw [Nat.min_eq_right (not_lt.mp hrem), Nat.min_eq_right (by omega)]
        omega

lemma sum_clientRates (fleet : Fleet) (r : ℕ) : (clientRates fleet r).sum = r := by
  have hpos : 0 < fleet.hosts.length := List.length_pos_iff.mpr fleet.hosts_ne
  have hrem : r % fleet.hosts.length ≤ fleet.hosts.length := (Nat.mod_lt r hpos).le
  rw [clientRates, sum_myRate, Nat.min_eq_right hrem]
  exact Nat.div_add_mod r fleet.hosts.length

lemma clientRates_le_succ (fleet : Fleet) (r : ℕ) :
    ∀ a ∈ clientRates fleet r, ∀ b ∈ clientRates fleet r, a ≤ b + 1 := by
  intro a ha b hb
  obtain ⟨i, -, rfl⟩ := List.mem_map.mp ha
  obtain ⟨j, -, rfl⟩ := List.mem_map.mp hb
  simp only [myRate]
  split_ifs <;> omega

/-! ## sweep-gen -/

/-- `TOTAL`. -/
def Fleet.total (fleet : Fleet) : ℕ := fleet.hosts.length * fleet.per

/-- `PER_GEN`. -/
def perGen (fleet : Fleet) (r : ℕ) : ℕ := r / fleet.total

/-- The `--rate` of every generator, box by box. -/
def generatorRates (fleet : Fleet) (r : ℕ) : List ℕ :=
  fleet.hosts.flatMap fun _ => (List.range fleet.per).map fun _ => perGen fleet r

lemma sum_generatorRates (fleet : Fleet) (r : ℕ) :
    (generatorRates fleet r).sum = fleet.total * perGen fleet r := by
  have hboxes : ∀ hosts : List String,
      (hosts.flatMap fun _ => (List.range fleet.per).map fun _ => perGen fleet r).sum
        = hosts.length * fleet.per * perGen fleet r := by
    intro hosts
    induction hosts with
    | nil => simp
    | cons h hosts ih =>
        rw [List.flatMap_cons, List.sum_append, ih]
        simp only [List.map_const', List.length_range, List.sum_replicate, smul_eq_mul,
          List.length_cons]
        ring
  exact hboxes fleet.hosts

/-! ## What the row is labelled with -/

/-- The rates of both scripts add up to the rate of the row, and those of `sweep-multi.sh` differ
by at most one. -/
structure OffersRate (fleet : Fleet) (r : ℕ) : Prop where
  clients : (clientRates fleet r).sum = r
  even : ∀ a ∈ clientRates fleet r, ∀ b ∈ clientRates fleet r, a ≤ b + 1
  generators : (generatorRates fleet r).sum = r

/-- **When a row labelled `r` offered `r`**: the generators of `sweep-gen.sh` divide the rate. -/
theorem rates_sum_iff (fleet : Fleet) (r : ℕ) : OffersRate fleet r ↔ fleet.total ∣ r := by
  constructor
  · intro h
    have hsum := h.generators
    rw [sum_generatorRates, perGen] at hsum
    exact ⟨r / fleet.total, hsum.symm⟩
  · intro h
    refine ⟨sum_clientRates fleet r, clientRates_le_succ fleet r, ?_⟩
    rw [sum_generatorRates, perGen]
    exact Nat.mul_div_cancel' h

def fiveHosts : List String := ["10.0.0.1", "10.0.0.2", "10.0.0.3", "10.0.0.4", "10.0.0.5"]

lemma fiveHosts_ne : fiveHosts ≠ [] := List.cons_ne_nil _ _

lemma fiveBoxes_per_pos : 1 ≤ 3 := Nat.succ_pos 2

/-- Three generators on each of five boxes. -/
def fiveBoxes : Fleet where
  hosts := fiveHosts
  per := 3
  hosts_ne := fiveHosts_ne
  per_pos := fiveBoxes_per_pos

/-- A row labelled 100000 for which 99990 were offered. -/
theorem rates_fall_short :
    (generatorRates fiveBoxes 100000).sum = 99990 ∧ ¬ OffersRate fiveBoxes 100000 := by
  have hsum : (generatorRates fiveBoxes 100000).sum = 99990 := by
    decide
  refine ⟨hsum, ?_⟩
  intro h
  rw [h.generators] at hsum
  cases hsum

end RaftBench.Sweep

import Mathlib.Algebra.Order.BigOperators.Group.List
import Mathlib.Algebra.Order.Ring.Int
import Mathlib.Tactic.Linarith
import RaftBench.Lib.Update

/-!
# Parties that do one job at a time

Some parties share a clock, and each of them does one job after the other.  Whatever they do, the
jobs that begin at or after an instant take together no longer than the number of the parties times
the time since: that is the upper half of Little's law, and it needs no average and no steady state.

`Bounded` is the invariant that carries this through a run in which parties begin, finish and
abandon jobs, and `Bounded.total_le` the bound.
-/

namespace Occupancy

/-- A finished job. -/
structure Job where
  start : ℤ
  stop : ℤ
  deriving DecidableEq, Repr

def Job.length (j : Job) : ℤ := j.stop - j.start

/-- The time the jobs take that begin at `first` or later. -/
def total (first : ℤ) (jobs : List Job) : ℤ :=
  ((jobs.filter fun j => first ≤ j.start).map Job.length).sum

/-- Up to when the time of a party is accounted for: the beginning of the job it is busy with, or
now. -/
def accounted (clock : ℤ) (party : Option ℤ) : ℤ := party.getD clock

/-- The time since `first` that is accounted for. -/
def room (clock first : ℤ) (parties : List (Option ℤ)) : ℤ :=
  (parties.map fun party => max 0 (accounted clock party - first)).sum

/-- The jobs fit into the accounted time, from every instant on. -/
structure Bounded (clock : ℤ) (parties : List (Option ℤ)) (jobs : List Job) : Prop where
  busy : ∀ party ∈ parties, accounted clock party ≤ clock
  ordered : ∀ j ∈ jobs, j.start ≤ j.stop
  fits : ∀ first, total first jobs ≤ room clock first parties

variable {clock now first since : ℤ} {parties : List (Option ℤ)} {jobs : List Job} {k : ℕ}

lemma total_concat (first : ℤ) (jobs : List Job) (j : Job) :
    total first (jobs ++ [j]) = total first jobs + if first ≤ j.start then j.length else 0 := by
  rw [total, List.filter_append, List.map_append, List.sum_append, ← total]
  split_ifs with h <;> simp [h]

/-- Replacing a party, in the sum. -/
lemma room_set (clock first : ℤ) {old : Option ℤ} (found : parties[k]? = some old)
    (new : Option ℤ) :
    room clock first (parties.set k new) + max 0 (accounted clock old - first)
      = room clock first parties + max 0 (accounted clock new - first) := by
  induction parties generalizing k with
  | nil => cases found
  | cons party parties ih =>
      cases k with
      | zero =>
          obtain rfl := Option.some.inj found
          simp only [room, List.set_cons_zero, List.map_cons, List.sum_cons]
          linarith
      | succ k =>
          have hrest := ih found
          simp only [room, List.set_cons_succ, List.map_cons, List.sum_cons] at hrest ⊢
          linarith

lemma bounded_nil (clock : ℤ) (count : ℕ) :
    Bounded clock (List.replicate count none) [] where
  busy party hparty := by
    rw [List.eq_of_mem_replicate hparty]
    exact le_rfl
  ordered := by simp
  fits first := List.sum_nonneg (by simp)

/-- Time passes. -/
lemma Bounded.wait (h : Bounded clock parties jobs) (hnow : clock ≤ now) :
    Bounded now parties jobs where
  busy party hparty := by
    have hbusy := h.busy party hparty
    cases party with
    | none => exact le_rfl
    | some since => exact hbusy.trans hnow
  ordered := h.ordered
  fits first := by
    refine (h.fits first).trans (List.sum_le_sum fun party _ => ?_)
    cases party with
    | none => exact max_le_max le_rfl (by simpa [accounted] using hnow)
    | some since => exact le_rfl

/-- A party begins a job. -/
lemma Bounded.start (h : Bounded clock parties jobs) (hnow : clock ≤ now)
    (found : parties[k]? = some none) : Bounded now (parties.set k (some now)) jobs where
  busy := List.forall_set (h.wait hnow).busy le_rfl k
  ordered := h.ordered
  fits first := by
    have hset := room_set now first found (some now)
    have hfits := (h.wait hnow).fits first
    simp only [accounted, Option.getD_none, Option.getD_some] at hset
    linarith

/-- A party gives its job up. -/
lemma Bounded.abandon (h : Bounded clock parties jobs) (hnow : clock ≤ now)
    (found : parties[k]? = some (some since)) : Bounded now (parties.set k none) jobs where
  busy := List.forall_set (h.wait hnow).busy le_rfl k
  ordered := h.ordered
  fits first := by
    have hsince : since ≤ now := (h.busy _ (List.mem_of_getElem? found)).trans hnow
    have hset := room_set now first found none
    have hfits := (h.wait hnow).fits first
    have hgrow : max 0 (since - first) ≤ max 0 (now - first) := max_le_max le_rfl (by linarith)
    simp only [accounted, Option.getD_none, Option.getD_some] at hset
    linarith

/-- A party finishes its job. -/
lemma Bounded.finish (h : Bounded clock parties jobs) (hnow : clock ≤ now)
    (found : parties[k]? = some (some since)) :
    Bounded now (parties.set k none) (jobs ++ [⟨since, now⟩]) where
  busy := List.forall_set (h.wait hnow).busy le_rfl k
  ordered := by
    have hsince : since ≤ now := (h.busy _ (List.mem_of_getElem? found)).trans hnow
    exact List.forall_concat h.ordered hsince
  fits first := by
    have hsince : since ≤ now := (h.busy _ (List.mem_of_getElem? found)).trans hnow
    have hset := room_set now first found none
    have hfits := (h.wait hnow).fits first
    simp only [accounted, Option.getD_none, Option.getD_some] at hset
    rw [total_concat]
    -- the job takes what the party's accounted time grows by
    have hgrow : max 0 (since - first) + (if first ≤ since then now - since else 0)
        ≤ max 0 (now - first) := by
      split_ifs with hfirst
      · rw [max_eq_right (by linarith), max_eq_right (by linarith)]
        linarith
      · rw [max_eq_left (by linarith)]
        simp
    simp only [Job.length]
    linarith

/-- **The bound.** -/
theorem Bounded.total_le (h : Bounded clock parties jobs) (hfirst : first ≤ clock) :
    total first jobs ≤ parties.length * (clock - first) := by
  refine (h.fits first).trans ?_
  have heach : ∀ x ∈ parties.map fun party => max 0 (accounted clock party - first),
      x ≤ clock - first := by
    intro x hx
    obtain ⟨party, hparty, rfl⟩ := List.mem_map.mp hx
    exact max_le (by linarith) (by linarith [h.busy party hparty])
  have hsum := List.sum_le_card_nsmul _ _ heach
  rwa [List.length_map, nsmul_eq_mul] at hsum

/-- Jobs that all begin late enough, among others. -/
lemma Bounded.sum_length_le (h : Bounded clock parties jobs) {late : List Job}
    (hlate : late.Sublist jobs) (hfirst : ∀ j ∈ late, first ≤ j.start) :
    (late.map Job.length).sum ≤ total first jobs := by
  have hkeep : late.filter (fun j => first ≤ j.start) = late :=
    List.filter_eq_self.mpr fun j hj => decide_eq_true (hfirst j hj)
  have hsub := (hlate.filter fun j => first ≤ j.start).map Job.length
  rw [hkeep] at hsub
  refine hsub.sum_le_sum fun x hx => ?_
  obtain ⟨j, hj, rfl⟩ := List.mem_map.mp hx
  exact sub_nonneg.mpr (h.ordered j (List.mem_of_mem_filter hj))

end Occupancy

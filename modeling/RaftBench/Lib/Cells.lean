import Mathlib.Logic.Function.Basic
import Mathlib.Data.List.Chain

/-!
# Families of independent cells

A keyed store whose operations each name one key is, seen from outside, a family of cells: an
operation on a key acts on that key's value and on nothing else.

* `Cell.run` — one cell, driven by a list of operations.
* `Cell.family` — all of them, an operation being routed to the cell of its key.
* `Cell.family_filter` — the answers one key gets from the family are the answers its own cell
  gives to its own operations, so the other keys might as well not be there.
* `Cell.run_chained` — when an answer reports the value before and after, each answer starts
  where the previous one stopped.
-/

/-- Operations with a key, and what one of them does to the value it is routed to. -/
structure Cell (κ α ω ρ : Type*) where
  key : ω → κ
  act : α → ω → α × ρ

namespace Cell

variable {κ α ω ρ : Type*} (cell : Cell κ α ω ρ)

/-- One cell: the value it ends with and its answers. -/
def run : α → List ω → α × List ρ
  | a, [] => (a, [])
  | a, op :: ops =>
      let (a', r) := cell.act a op
      let (a'', rs) := run a' ops
      (a'', r :: rs)

/-- The family: an operation replaces the value of its key. -/
def family [DecidableEq κ] : (κ → α) → List ω → (κ → α) × List ρ
  | f, [] => (f, [])
  | f, op :: ops =>
      let (a', r) := cell.act (f (cell.key op)) op
      let (f', rs) := family (Function.update f (cell.key op) a') ops
      (f', r :: rs)

variable {cell}

/-- **Independence.**  The answers to one key's operations are those of its own cell, whatever
the other keys are asked in between. -/
lemma family_filter [DecidableEq κ] {keyOf : ρ → Option κ}
    (hkey : ∀ a op, keyOf (cell.act a op).2 = some (cell.key op))
    (k : κ) (f : κ → α) (ops : List ω) :
    (cell.family f ops).2.filter (fun r => keyOf r = some k)
      = (cell.run (f k) (ops.filter fun op => cell.key op = k)).2 := by
  induction ops generalizing f with
  | nil => rfl
  | cons op ops ih =>
      simp only [family, List.filter_cons, hkey, ih, decide_eq_true_eq,
        Option.some.injEq]
      by_cases h : cell.key op = k
      · subst h
        simp only [if_true, run, Function.update_self]
      · simp only [if_neg h, Function.update_of_ne (Ne.symm h)]

section Chained

variable {β : Type*} {view : α → β} {before after : ρ → β}

/-- The first answer starts at the value the cell had. -/
lemma run_head (hbefore : ∀ a op, before (cell.act a op).2 = view a) (a : α) (ops : List ω) :
    ∀ r ∈ (cell.run a ops).2.head?, before r = view a := by
  cases ops with
  | nil => intro r hr; cases hr
  | cons op ops =>
      intro r hr
      obtain rfl : (cell.act a op).2 = r := Option.some.inj hr
      exact hbefore a op

/-- **The chain law.**  Each answer starts at the value the one before it left. -/
lemma run_chained (hbefore : ∀ a op, before (cell.act a op).2 = view a)
    (hafter : ∀ a op, after (cell.act a op).2 = view (cell.act a op).1) (a : α) (ops : List ω) :
    (cell.run a ops).2.IsChain fun r s => before s = after r := by
  induction ops generalizing a with
  | nil => exact List.IsChain.nil
  | cons op ops ih =>
      show ((cell.act a op).2 :: (cell.run (cell.act a op).1 ops).2).IsChain _
      refine List.isChain_cons.mpr ⟨?_, ih (cell.act a op).1⟩
      intro s hs
      rw [run_head hbefore (cell.act a op).1 ops s hs, hafter]

end Chained

end Cell

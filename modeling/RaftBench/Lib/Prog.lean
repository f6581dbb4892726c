import Mathlib.Data.Option.Basic

/-!
# Interactive programs

A sequential program that talks to its environment: it returns, or performs an operation and goes
on with the environment's answer.  One definition of a client can then be read in two ways, run
against an environment of its own (`Prog.run`), or advanced operation by operation next to other
clients, in a machine whose state holds the programs that are still to be run.

`run_bind` is the rule for composition; `run_call` unfolds a program up to its next operation.
-/

/-- A program over the operations `Op`, where operation `op` is answered by an `Ans op`. -/
inductive Prog (Op : Type) (Ans : Op → Type) (α : Type) where
  | ret (a : α)
  | call (op : Op) (next : Ans op → Prog Op Ans α)

namespace Prog

variable {Op : Type} {Ans : Op → Type} {α β σ : Type}

def bind : Prog Op Ans α → (α → Prog Op Ans β) → Prog Op Ans β
  | ret a, f => f a
  | call op next, f => call op fun answer => bind (next answer) f

instance : Monad (Prog Op Ans) where
  pure := ret
  bind := bind

/-- The program that performs one operation. -/
def perform (op : Op) : Prog Op Ans (Ans op) := call op ret

@[simp] lemma pure_eq (a : α) : (pure a : Prog Op Ans α) = ret a := rfl

@[simp] lemma call_bind (op : Op) (next : Ans op → Prog Op Ans α) (f : α → Prog Op Ans β) :
    (call op next >>= f) = call op fun answer => next answer >>= f := rfl

/-- Run a program against an environment with state `σ`; `none` where the environment does not
answer. -/
def run (handle : (op : Op) → σ → Option (Ans op × σ)) : Prog Op Ans α → σ → Option (α × σ)
  | ret a, s => some (a, s)
  | call op next, s => (handle op s).bind fun answer => run handle (next answer.1) answer.2

@[simp] lemma run_ret (handle : (op : Op) → σ → Option (Ans op × σ)) (a : α) (s : σ) :
    (ret a).run handle s = some (a, s) := rfl

@[simp] lemma run_call (handle : (op : Op) → σ → Option (Ans op × σ)) (op : Op)
    (next : Ans op → Prog Op Ans α) (s : σ) :
    (call op next).run handle s
      = (handle op s).bind fun answer => (next answer.1).run handle answer.2 := rfl

/-- **Running a sequence.** -/
theorem run_bind (handle : (op : Op) → σ → Option (Ans op × σ)) (p : Prog Op Ans α)
    (f : α → Prog Op Ans β) (s : σ) :
    (p >>= f).run handle s = (p.run handle s).bind fun r => (f r.1).run handle r.2 := by
  induction p generalizing s with
  | ret a => rfl
  | call op next ih =>
      rw [call_bind, run_call, run_call]
      cases handle op s with
      | none => rfl
      | some answer => exact ih answer.1 answer.2

end Prog

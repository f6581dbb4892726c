import RaftBench.Aeron.Loadgen

/-!
# The closed loop of the aeron load generator

`runClosedLoop` keeps `--thread_num` requests outstanding: at the head of the loop it offers until
that many are in flight or the cluster refuses one, and then polls.  The drain of `run` follows, as
behind the open loop, and the events are the same: what the environment decides does not depend on
the mode.  `closedLoop_step` lists once what a step can do.
-/

namespace RaftBench.Aeron

/-- The configuration `runClosedLoop` and the drain read. -/
structure ClosedConfig where
  ticks : ℕ
  threadNum : ℤ
  stop : ℤ
  drainTimeout : ℤ
  threadNum_pos : 1 ≤ threadNum

/-- Where the thread is.  `polling` is inside `pollEgress`, in the drain when it has a deadline. -/
inductive ClosedLoopPc where
  | head
  | offering
  | polling (drainDeadline : Option ℤ)
  | draining (drainDeadline : Option ℤ)
  | done
  deriving DecidableEq, Repr

structure ClosedLoop where
  pc : ClosedLoopPc := .head
  gen : Loadgen := {}
  deriving DecidableEq, Repr

/-- The next step of the thread outside `pollEgress`.  A message carries the reading its offer was
made at. -/
def closedSenderStep (cfg : ClosedConfig) (w : ClosedLoop) (now : ℤ) (accepted : Bool) :
    Option ClosedLoop :=
  match w.pc with
  | .head => if now < cfg.stop then some { w with pc := .offering }
      else some { w with pc := .draining none }
  | .offering =>
      if w.gen.inFlight < cfg.threadNum then
        let (offered, gen) := w.gen.offer now accepted
        if offered then some { w with gen := gen }
        else some { w with gen := gen, pc := .polling none }
      else some { w with pc := .polling none }
  | .polling none => some { w with pc := .head }
  | .polling (some deadline) => some { w with pc := .draining (some deadline) }
  | .draining none => some { w with pc := .draining (some (now + cfg.drainTimeout * cfg.ticks)) }
  | .draining (some deadline) =>
      if w.gen.inFlight > 0 ∧ now < deadline then some { w with pc := .polling (some deadline) }
      else some { w with pc := .done }
  | .done => none

def closedLoopStep (cfg : ClosedConfig) (w : ClosedLoop) : OpenLoopEvent → Option ClosedLoop
  | .sender now accepted => closedSenderStep cfg w now accepted
  | .message m now =>
      match w.pc with
      | .polling _ => some { w with gen := w.gen.onMessage m now }
      | _ => none
  | .quit => if w.pc = .head then some { w with pc := .draining none } else none

def closedLoop (cfg : ClosedConfig) : Machine ClosedLoop OpenLoopEvent where
  step := closedLoopStep cfg

/-! ## What one step can do -/

/-- The possible steps: the thread moves on with its fields untouched, an offer is accepted, or a
message is delivered. -/
inductive ClosedLoopStep (cfg : ClosedConfig) (w : ClosedLoop) :
    OpenLoopEvent → ClosedLoop → Prop where
  | moves (now : ℤ) (accepted : Bool) (pc : ClosedLoopPc) :
      ClosedLoopStep cfg w (.sender now accepted) { w with pc := pc }
  | quits (pc : w.pc = .head) : ClosedLoopStep cfg w .quit { w with pc := .draining none }
  | sends (now : ℤ) (pc : w.pc = .offering) (room : w.gen.inFlight < cfg.threadNum) :
      ClosedLoopStep cfg w (.sender now true)
        { pc := .offering
          gen := { w.gen with
            sent := w.gen.sent ++ [⟨w.gen.nextCorrelationId, now⟩]
            nextCorrelationId := w.gen.nextCorrelationId + 1
            inFlight := w.gen.inFlight + 1 } }
  | receives (m : Message) (now : ℤ) (deadline : Option ℤ) (pc : w.pc = .polling deadline) :
      ClosedLoopStep cfg w (.message m now) { w with gen := w.gen.onMessage m now }

lemma closedSenderStep_cases {cfg : ClosedConfig} {w w' : ClosedLoop} {now : ℤ} {accepted : Bool}
    (h : closedSenderStep cfg w now accepted = some w') :
    ClosedLoopStep cfg w (.sender now accepted) w' := by
  unfold closedSenderStep at h
  cases hpc : w.pc with
  | head =>
      simp only [hpc] at h
      split_ifs at h <;> (obtain rfl := Option.some.inj h; exact .moves now accepted _)
  | offering =>
      simp only [hpc] at h
      by_cases hroom : w.gen.inFlight < cfg.threadNum
      · rw [if_pos hroom] at h
        cases accepted with
        | true =>
            obtain rfl := Option.some.inj h
            exact .sends now hpc hroom
        | false =>
            obtain rfl := Option.some.inj h
            exact .moves now false _
      · rw [if_neg hroom, Option.some.injEq] at h
        subst h
        exact .moves now accepted _
  | polling deadline =>
      cases deadline <;>
        (simp only [hpc, Option.some.injEq] at h; subst h; exact .moves now accepted _)
  | draining deadline =>
      cases deadline with
      | none =>
          simp only [hpc, Option.some.injEq] at h
          subst h
          exact .moves now accepted _
      | some deadline =>
          simp only [hpc] at h
          split_ifs at h <;> (obtain rfl := Option.some.inj h; exact .moves now accepted _)
  | done => simp [hpc] at h

/-- **What one step can do.** -/
theorem closedLoop_step {cfg : ClosedConfig} {w w' : ClosedLoop} {e : OpenLoopEvent}
    (h : (closedLoop cfg).step w e = some w') : ClosedLoopStep cfg w e w' := by
  simp only [closedLoop] at h
  cases e with
  | sender now accepted => exact closedSenderStep_cases h
  | message m now =>
      simp only [closedLoopStep] at h
      split at h
      · next deadline hpc =>
          obtain rfl := Option.some.inj h
          exact .receives m now deadline hpc
      · simp at h
  | quit =>
      simp only [closedLoopStep] at h
      split_ifs at h with hpc
      obtain rfl := Option.some.inj h
      exact .quits hpc

end RaftBench.Aeron

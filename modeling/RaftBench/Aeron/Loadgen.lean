import RaftBench.Lib.Machine
import RaftBench.Schedule

/-!
# The open loop of the aeron load generator

`Loadgen.java` paces its sends, offers the messages and polls the replies on one thread.  The
environment decides what that thread cannot: the readings of `System.nanoTime()`, whether the
cluster accepts an offer, and which messages a `pollEgress` delivers.

* `Loadgen` holds the fields the sender thread works on, with `offer` and `onMessage` as the source
  has them; `sent` lists the messages the cluster accepted.
* `openLoop` is `runOpenLoop` followed by the drain of `run`.  Where the other two generators
  recompute the instant at the head of the loop, this one carries it in `nextScheduledNanos`.
* `openLoop_step` lists once what a step can do.
-/

namespace RaftBench.Aeron

/-! ## The sender's fields -/

/-- One minute in nanoseconds: the histogram ceiling. -/
def highestTrackableNanos : ℤ := 60 * 1000000000

/-- What the generator writes into a message. -/
structure Message where
  correlationId : ℤ
  stampNanos : ℤ
  deriving DecidableEq, Repr

/-- The fields of the sender thread. -/
structure Loadgen where
  inFlight : ℤ := 0
  nextCorrelationId : ℤ := 0
  expectedCorrelationId : ℤ := 0
  mismatches : ℕ := 0
  recorder : List ℤ := []
  completed : ℕ := 0
  droppedByRig : ℕ := 0
  scheduleLag : List ℤ := []
  sent : List Message := []
  deriving DecidableEq, Repr

/-- The value a histogram records for a duration. -/
def clampNanos (nanos : ℤ) : ℤ := max 1 (min nanos highestTrackableNanos)

/-- `offer`: whether the cluster accepted the message, and the fields after it. -/
def Loadgen.offer (g : Loadgen) (stampNanos : ℤ) (accepted : Bool) : Bool × Loadgen :=
  if accepted then
    (true, { g with
      sent := g.sent ++ [⟨g.nextCorrelationId, stampNanos⟩]
      nextCorrelationId := g.nextCorrelationId + 1
      inFlight := g.inFlight + 1 })
  else (false, g)

/-- `onMessage`, called from `pollEgress`. -/
def Loadgen.onMessage (g : Loadgen) (m : Message) (now : ℤ) : Loadgen :=
  let g := { g with
    inFlight := g.inFlight - 1
    completed := g.completed + 1
    recorder := g.recorder ++ [clampNanos (now - m.stampNanos)] }
  if m.correlationId ≠ g.expectedCorrelationId then
    { g with mismatches := g.mismatches + 1, expectedCorrelationId := m.correlationId + 1 }
  else { g with expectedCorrelationId := g.expectedCorrelationId + 1 }

/-! ## The open loop -/

/-- The configuration `runOpenLoop` and the drain read. -/
structure Config extends Pace where
  maxInflight : ℤ
  drainTimeout : ℤ
  maxInflight_pos : 1 ≤ maxInflight

/-- Where the thread is.  `polling` is inside `pollEgress`, in the drain when it has a deadline. -/
inductive OpenLoopPc where
  | head
  | burst (i : ℕ)
  | polling (drainDeadline : Option ℤ)
  | draining (drainDeadline : Option ℤ)
  | done
  deriving DecidableEq, Repr

structure OpenLoop where
  pc : OpenLoopPc := .head
  sequence : ℕ := 0
  nextScheduledNanos : ℤ
  gen : Loadgen := {}
  history : List (ℕ × Fate) := []
  deriving DecidableEq, Repr

def OpenLoop.init (cfg : Config) : OpenLoop := { nextScheduledNanos := cfg.start }

/-- One request of a burst: dropped at the cap or when the offer is refused, sent otherwise. -/
def OpenLoop.request (cfg : Config) (w : OpenLoop) (i : ℕ) (now : ℤ) (accepted : Bool) :
    OpenLoop :=
  let (offered, gen) :=
    if w.gen.inFlight ≥ cfg.maxInflight then (false, w.gen)
    else w.gen.offer w.nextScheduledNanos accepted
  if offered then
    { w with
      gen := { gen with
        scheduleLag := gen.scheduleLag ++ [clampNanos (now - w.nextScheduledNanos)] }
      sequence := w.sequence + 1
      history := w.history ++ [(w.sequence, .sent w.nextScheduledNanos)]
      pc := .burst (i + 1) }
  else
    { w with
      gen := { gen with droppedByRig := gen.droppedByRig + 1 }
      sequence := w.sequence + 1
      history := w.history ++ Pace.droppedFrom w.sequence 1
      pc := .burst (i + 1) }

/-- The next step of the thread outside `pollEgress`. -/
def senderStep (cfg : Config) (w : OpenLoop) (now : ℤ) (accepted : Bool) : Option OpenLoop :=
  match w.pc with
  | .head =>
      if w.nextScheduledNanos > cfg.stop then some { w with pc := .draining none }
      else if now ≥ w.nextScheduledNanos then some { w with pc := .burst 0 }
      else some { w with pc := .polling none }
  | .burst i =>
      if i < cfg.burst then some (w.request cfg i now accepted)
      else
        some { w with nextScheduledNanos := cfg.scheduledAt w.sequence, pc := .polling none }
  | .polling none => some { w with pc := .head }
  | .polling (some deadline) => some { w with pc := .draining (some deadline) }
  | .draining none => some { w with pc := .draining (some (now + cfg.drainTimeout * cfg.ticks)) }
  | .draining (some deadline) =>
      if w.gen.inFlight > 0 ∧ now < deadline then some { w with pc := .polling (some deadline) }
      else some { w with pc := .done }
  | .done => none

inductive OpenLoopEvent where
  /-- the thread moves, reading the clock; `accepted` is the cluster's answer to an offer -/
  | sender (now : ℤ) (accepted : Bool)
  /-- `pollEgress` delivers a message -/
  | message (m : Message) (now : ℤ)
  /-- `running` is found cleared at the head of the loop -/
  | quit
  deriving DecidableEq, Repr

def openLoopStep (cfg : Config) (w : OpenLoop) : OpenLoopEvent → Option OpenLoop
  | .sender now accepted => senderStep cfg w now accepted
  | .message m now =>
      match w.pc with
      | .polling _ => some { w with gen := w.gen.onMessage m now }
      | _ => none
  | .quit => if w.pc = .head then some { w with pc := .draining none } else none

def openLoop (cfg : Config) : Machine OpenLoop OpenLoopEvent where
  step := openLoopStep cfg

/-! ## What one step can do -/

/-- The possible steps, with their guards and their effect. -/
inductive OpenLoopStep (cfg : Config) (w : OpenLoop) : OpenLoopEvent → OpenLoop → Prop where
  | ends (now : ℤ) (accepted : Bool) (pc : w.pc = .head) (past : cfg.stop < w.nextScheduledNanos) :
      OpenLoopStep cfg w (.sender now accepted) { w with pc := .draining none }
  | quits (pc : w.pc = .head) : OpenLoopStep cfg w .quit { w with pc := .draining none }
  | starts (now : ℤ) (accepted : Bool) (pc : w.pc = .head)
      (inside : w.nextScheduledNanos ≤ cfg.stop) (due : w.nextScheduledNanos ≤ now) :
      OpenLoopStep cfg w (.sender now accepted) { w with pc := .burst 0 }
  | waits (now : ℤ) (accepted : Bool) (pc : w.pc = .head)
      (inside : w.nextScheduledNanos ≤ cfg.stop) (early : now < w.nextScheduledNanos) :
      OpenLoopStep cfg w (.sender now accepted) { w with pc := .polling none }
  | sends (now : ℤ) (i : ℕ) (pc : w.pc = .burst i) (more : i < cfg.burst)
      (room : w.gen.inFlight < cfg.maxInflight) :
      OpenLoopStep cfg w (.sender now true)
        { w with
          gen := { w.gen with
            sent := w.gen.sent ++ [⟨w.gen.nextCorrelationId, w.nextScheduledNanos⟩]
            nextCorrelationId := w.gen.nextCorrelationId + 1
            inFlight := w.gen.inFlight + 1
            scheduleLag := w.gen.scheduleLag ++ [clampNanos (now - w.nextScheduledNanos)] }
          sequence := w.sequence + 1
          history := w.history ++ [(w.sequence, .sent w.nextScheduledNanos)]
          pc := .burst (i + 1) }
  | drops (now : ℤ) (accepted : Bool) (i : ℕ) (pc : w.pc = .burst i) (more : i < cfg.burst)
      (refused : cfg.maxInflight ≤ w.gen.inFlight ∨ accepted = false) :
      OpenLoopStep cfg w (.sender now accepted)
        { w with
          gen := { w.gen with droppedByRig := w.gen.droppedByRig + 1 }
          sequence := w.sequence + 1
          history := w.history ++ Pace.droppedFrom w.sequence 1
          pc := .burst (i + 1) }
  | closes (now : ℤ) (accepted : Bool) (i : ℕ) (pc : w.pc = .burst i) (all : cfg.burst ≤ i) :
      OpenLoopStep cfg w (.sender now accepted)
        { w with nextScheduledNanos := cfg.scheduledAt w.sequence, pc := .polling none }
  | polled (now : ℤ) (accepted : Bool) (pc : w.pc = .polling none) :
      OpenLoopStep cfg w (.sender now accepted) { w with pc := .head }
  | drainPolled (now : ℤ) (accepted : Bool) (deadline : ℤ) (pc : w.pc = .polling (some deadline)) :
      OpenLoopStep cfg w (.sender now accepted) { w with pc := .draining (some deadline) }
  | drains (now : ℤ) (accepted : Bool) (pc : w.pc = .draining none) :
      OpenLoopStep cfg w (.sender now accepted)
        { w with pc := .draining (some (now + cfg.drainTimeout * cfg.ticks)) }
  | drainPolls (now : ℤ) (accepted : Bool) (deadline : ℤ)
      (pc : w.pc = .draining (some deadline)) (wait : w.gen.inFlight > 0 ∧ now < deadline) :
      OpenLoopStep cfg w (.sender now accepted) { w with pc := .polling (some deadline) }
  | drained (now : ℤ) (accepted : Bool) (deadline : ℤ) (pc : w.pc = .draining (some deadline))
      (ended : ¬ (w.gen.inFlight > 0 ∧ now < deadline)) :
      OpenLoopStep cfg w (.sender now accepted) { w with pc := .done }
  | receives (m : Message) (now : ℤ) (deadline : Option ℤ) (pc : w.pc = .polling deadline) :
      OpenLoopStep cfg w (.message m now) { w with gen := w.gen.onMessage m now }

/-- The two exits of a request. -/
lemma request_cases (cfg : Config) (w : OpenLoop) (i : ℕ) (now : ℤ) (accepted : Bool)
    (pc : w.pc = .burst i) (more : i < cfg.burst) :
    OpenLoopStep cfg w (.sender now accepted) (w.request cfg i now accepted) := by
  unfold OpenLoop.request
  by_cases hfull : w.gen.inFlight ≥ cfg.maxInflight
  · rw [if_pos hfull]
    exact .drops now accepted i pc more (Or.inl hfull)
  · rw [if_neg hfull]
    cases accepted with
    | true => exact .sends now i pc more (not_le.mp hfull)
    | false => exact .drops now false i pc more (Or.inr rfl)

lemma senderStep_cases {cfg : Config} {w w' : OpenLoop} {now : ℤ} {accepted : Bool}
    (h : senderStep cfg w now accepted = some w') :
    OpenLoopStep cfg w (.sender now accepted) w' := by
  unfold senderStep at h
  cases hpc : w.pc with
  | head =>
      simp only [hpc] at h
      by_cases hpast : w.nextScheduledNanos > cfg.stop
      · rw [if_pos hpast, Option.some.injEq] at h
        subst h
        exact .ends now accepted hpc hpast
      · rw [if_neg hpast] at h
        by_cases hdue : now ≥ w.nextScheduledNanos
        · rw [if_pos hdue, Option.some.injEq] at h
          subst h
          exact .starts now accepted hpc (not_lt.mp hpast) hdue
        · rw [if_neg hdue, Option.some.injEq] at h
          subst h
          exact .waits now accepted hpc (not_lt.mp hpast) (not_le.mp hdue)
  | burst i =>
      simp only [hpc] at h
      by_cases hi : i < cfg.burst
      · rw [if_pos hi, Option.some.injEq] at h
        subst h
        exact request_cases cfg w i now accepted hpc hi
      · rw [if_neg hi, Option.some.injEq] at h
        subst h
        exact .closes now accepted i hpc (not_lt.mp hi)
  | polling deadline =>
      cases deadline with
      | none =>
          simp only [hpc, Option.some.injEq] at h
          subst h
          exact .polled now accepted hpc
      | some deadline =>
          simp only [hpc, Option.some.injEq] at h
          subst h
          exact .drainPolled now accepted deadline hpc
  | draining deadline =>
      cases deadline with
      | none =>
          simp only [hpc, Option.some.injEq] at h
          subst h
          exact .drains now accepted hpc
      | some deadline =>
          simp only [hpc] at h
          by_cases hwait : w.gen.inFlight > 0 ∧ now < deadline
          · rw [if_pos hwait, Option.some.injEq] at h
            subst h
            exact .drainPolls now accepted deadline hpc hwait
          · rw [if_neg hwait, Option.some.injEq] at h
            subst h
            exact .drained now accepted deadline hpc hwait
  | done => simp [hpc] at h

/-- **What one step can do.** -/
theorem openLoop_step {cfg : Config} {w w' : OpenLoop} {e : OpenLoopEvent}
    (h : (openLoop cfg).step w e = some w') : OpenLoopStep cfg w e w' := by
  simp only [openLoop] at h
  cases e with
  | sender now accepted => exact senderStep_cases h
  | message m now =>
      simp only [openLoopStep] at h
      split at h
      · next deadline hpc =>
          obtain rfl := Option.some.inj h
          exact .receives m now deadline hpc
      · simp at h
  | quit =>
      simp only [openLoopStep] at h
      split_ifs at h with hpc
      obtain rfl := Option.some.inj h
      exact .quits hpc

end RaftBench.Aeron

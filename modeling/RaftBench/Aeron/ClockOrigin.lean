import RaftBench.Aeron.Window

/-!
# The origin of the clock

`System.nanoTime()` promises differences only: its origin is arbitrary, and readings may be zero or
negative.  Adding an offset to every reading of a run moves the schedule, the stamps in the
messages and the deadlines along with it and changes no difference, so each loop of the sender
thread takes the same steps (`openShift`, `closedShift`).

The measurement does not follow, because `measureStartNanos > 0` stands for "the window is open":
a window opened at a reading that is not positive does not count as open.  `clock_origin` says when
the offset makes no difference, and `clock_origin_matters` is a run in which it does.
-/

namespace RaftBench.Aeron

/-! ## Moving a run in time -/

def Message.shift (d : ℤ) (m : Message) : Message := { m with stampNanos := m.stampNanos + d }

def OpenLoopEvent.shift (d : ℤ) : OpenLoopEvent → OpenLoopEvent
  | .sender now accepted => .sender (now + d) accepted
  | .message m now => .message (m.shift d) (now + d)
  | .quit => .quit

def MeasurementEvent.shift (d : ℤ) : MeasurementEvent → MeasurementEvent
  | .loop e => .loop (e.shift d)
  | .reporterTicks now => .reporterTicks (now + d)
  | .main now => .main (now + d)
  | e => e

/-- The sender's fields: the stamps of the messages move, differences do not. -/
def Loadgen.shift (d : ℤ) (g : Loadgen) : Loadgen := { g with sent := g.sent.map (Message.shift d) }

def Fate.shift (d : ℤ) : Fate → Fate
  | .dropped => .dropped
  | .sent scheduled => .sent (scheduled + d)

lemma onMessage_shift (d : ℤ) (g : Loadgen) (m : Message) (now : ℤ) :
    (g.shift d).onMessage (m.shift d) (now + d) = (g.onMessage m now).shift d := by
  simp only [Loadgen.onMessage, Loadgen.shift, Message.shift, add_sub_add_right_eq_sub]
  split_ifs <;> rfl

lemma offer_shift (d : ℤ) (g : Loadgen) (stampNanos : ℤ) (accepted : Bool) :
    (g.shift d).offer (stampNanos + d) accepted
      = ((g.offer stampNanos accepted).1, (g.offer stampNanos accepted).2.shift d) := by
  cases accepted with
  | true => simp [Loadgen.offer, Loadgen.shift, Message.shift]
  | false => rfl

/-! ## The open loop -/

def Config.shift (d : ℤ) (cfg : Config) : Config :=
  { cfg with
    start := cfg.start + d
    stop := cfg.stop + d
    start_le := by have := cfg.start_le; omega }

def OpenLoopPc.shift (d : ℤ) : OpenLoopPc → OpenLoopPc
  | .polling deadline => .polling (deadline.map (· + d))
  | .draining deadline => .draining (deadline.map (· + d))
  | pc => pc

def OpenLoop.shift (d : ℤ) (w : OpenLoop) : OpenLoop where
  pc := w.pc.shift d
  sequence := w.sequence
  nextScheduledNanos := w.nextScheduledNanos + d
  gen := w.gen.shift d
  history := w.history.map fun entry => (entry.1, Fate.shift d entry.2)

lemma scheduledAt_shift (d : ℤ) (cfg : Config) (s : ℕ) :
    (cfg.shift d).scheduledAt s = cfg.scheduledAt s + d := by
  show cfg.start + d + _ = cfg.start + _ + d
  exact add_right_comm _ _ _

lemma request_shift (d : ℤ) (cfg : Config) (w : OpenLoop) (i : ℕ) (now : ℤ) (accepted : Bool) :
    (w.shift d).request (cfg.shift d) i (now + d) accepted
      = (w.request cfg i now accepted).shift d := by
  unfold OpenLoop.request
  by_cases hfull : w.gen.inFlight ≥ cfg.maxInflight
  · have hfull' : (w.shift d).gen.inFlight ≥ (cfg.shift d).maxInflight := hfull
    rw [if_pos hfull, if_pos hfull']
    simp [OpenLoop.shift, Loadgen.shift, OpenLoopPc.shift, Pace.droppedFrom, Fate.shift]
  · have hfull' : ¬ (w.shift d).gen.inFlight ≥ (cfg.shift d).maxInflight := hfull
    rw [if_neg hfull, if_neg hfull']
    cases accepted with
    | true =>
        simp [OpenLoop.shift, Loadgen.shift, Loadgen.offer, OpenLoopPc.shift, Message.shift,
          Fate.shift]
    | false =>
        simp [OpenLoop.shift, Loadgen.shift, Loadgen.offer, OpenLoopPc.shift, Pace.droppedFrom,
          Fate.shift]

/-- Every comparison of the loop is between two instants, or between numbers that are none. -/
lemma senderStep_shift (d : ℤ) (cfg : Config) (w : OpenLoop) (now : ℤ) (accepted : Bool) :
    senderStep (cfg.shift d) (w.shift d) (now + d) accepted
      = (senderStep cfg w now accepted).map (OpenLoop.shift d) := by
  have hpc' : (w.shift d).pc = w.pc.shift d := rfl
  unfold senderStep
  cases hpc : w.pc with
  | head =>
      have hpast : (w.shift d).nextScheduledNanos > (cfg.shift d).stop ↔
          w.nextScheduledNanos > cfg.stop := add_lt_add_iff_right d
      have hdue : now + d ≥ (w.shift d).nextScheduledNanos ↔ now ≥ w.nextScheduledNanos :=
        add_le_add_iff_right d
      simp only [hpc', hpc, OpenLoopPc.shift, hpast, hdue]
      split_ifs <;> rfl
  | burst i =>
      have hburst : (cfg.shift d).burst = cfg.burst := rfl
      have hsequence : (w.shift d).sequence = w.sequence := rfl
      simp only [hpc', hpc, OpenLoopPc.shift, hburst, request_shift, scheduledAt_shift, hsequence]
      split_ifs <;> rfl
  | polling deadline =>
      cases deadline <;> simp only [hpc', hpc, OpenLoopPc.shift] <;> rfl
  | draining deadline =>
      cases deadline with
      | none =>
          simp only [hpc', hpc, OpenLoopPc.shift, Option.map_none]
          exact congrArg (fun t => some { w.shift d with pc := .draining (some t) })
            (add_right_comm now d (cfg.drainTimeout * cfg.ticks))
      | some deadline =>
          have hwait : (w.shift d).gen.inFlight > 0 ∧ now + d < deadline + d ↔
              w.gen.inFlight > 0 ∧ now < deadline := by
            rw [add_lt_add_iff_right]
            rfl
          simp only [hpc', hpc, OpenLoopPc.shift, Option.map_some, hwait]
          split_ifs <;> rfl
  | done => simp only [hpc', hpc, OpenLoopPc.shift, Option.map_none]

lemma openLoop_shift (d : ℤ) (cfg : Config) (w : OpenLoop) (e : OpenLoopEvent) :
    (openLoop (cfg.shift d)).step (w.shift d) (e.shift d)
      = ((openLoop cfg).step w e).map (OpenLoop.shift d) := by
  have hpc' : (w.shift d).pc = w.pc.shift d := rfl
  show openLoopStep _ _ _ = (openLoopStep cfg w e).map _
  cases e with
  | sender now accepted => exact senderStep_shift d cfg w now accepted
  | message m now =>
      have hgen : (w.shift d).gen.onMessage (m.shift d) (now + d)
          = (w.gen.onMessage m now).shift d := onMessage_shift d w.gen m now
      cases hpc : w.pc with
      | polling deadline =>
          simp only [OpenLoopEvent.shift, openLoopStep, hpc', hpc, OpenLoopPc.shift, hgen]
          rfl
      | head | burst i | draining deadline | done =>
          simp only [OpenLoopEvent.shift, openLoopStep, hpc', hpc, OpenLoopPc.shift,
            Option.map_none]
  | quit =>
      have hhead : (w.shift d).pc = .head ↔ w.pc = .head := by
        rw [hpc']
        cases w.pc <;> simp [OpenLoopPc.shift]
      simp only [OpenLoopEvent.shift, openLoopStep, hhead]
      split_ifs <;> rfl

/-! ## The closed loop -/

def ClosedConfig.shift (d : ℤ) (cfg : ClosedConfig) : ClosedConfig :=
  { cfg with stop := cfg.stop + d }

def ClosedLoopPc.shift (d : ℤ) : ClosedLoopPc → ClosedLoopPc
  | .polling deadline => .polling (deadline.map (· + d))
  | .draining deadline => .draining (deadline.map (· + d))
  | pc => pc

def ClosedLoop.shift (d : ℤ) (w : ClosedLoop) : ClosedLoop where
  pc := w.pc.shift d
  gen := w.gen.shift d

lemma closedSenderStep_shift (d : ℤ) (cfg : ClosedConfig) (w : ClosedLoop) (now : ℤ)
    (accepted : Bool) :
    closedSenderStep (cfg.shift d) (w.shift d) (now + d) accepted
      = (closedSenderStep cfg w now accepted).map (ClosedLoop.shift d) := by
  have hpc' : (w.shift d).pc = w.pc.shift d := rfl
  unfold closedSenderStep
  cases hpc : w.pc with
  | head =>
      have hend : now + d < (cfg.shift d).stop ↔ now < cfg.stop := add_lt_add_iff_right d
      simp only [hpc', hpc, ClosedLoopPc.shift, hend]
      split_ifs <;> rfl
  | offering =>
      have hroom : (w.shift d).gen.inFlight < (cfg.shift d).threadNum ↔
          w.gen.inFlight < cfg.threadNum := Iff.rfl
      have hoffer : (w.shift d).gen.offer (now + d) accepted
          = ((w.gen.offer now accepted).1, (w.gen.offer now accepted).2.shift d) :=
        offer_shift d w.gen now accepted
      simp only [hpc', hpc, ClosedLoopPc.shift, hroom, hoffer]
      split_ifs <;> rfl
  | polling deadline =>
      cases deadline <;> simp only [hpc', hpc, ClosedLoopPc.shift] <;> rfl
  | draining deadline =>
      cases deadline with
      | none =>
          simp only [hpc', hpc, ClosedLoopPc.shift, Option.map_none]
          exact congrArg (fun t => some { w.shift d with pc := .draining (some t) })
            (add_right_comm now d (cfg.drainTimeout * cfg.ticks))
      | some deadline =>
          have hwait : (w.shift d).gen.inFlight > 0 ∧ now + d < deadline + d ↔
              w.gen.inFlight > 0 ∧ now < deadline := by
            rw [add_lt_add_iff_right]
            rfl
          simp only [hpc', hpc, ClosedLoopPc.shift, Option.map_some, hwait]
          split_ifs <;> rfl
  | done => simp only [hpc', hpc, ClosedLoopPc.shift, Option.map_none]

lemma closedLoop_shift (d : ℤ) (cfg : ClosedConfig) (w : ClosedLoop) (e : OpenLoopEvent) :
    (closedLoop (cfg.shift d)).step (w.shift d) (e.shift d)
      = ((closedLoop cfg).step w e).map (ClosedLoop.shift d) := by
  have hpc' : (w.shift d).pc = w.pc.shift d := rfl
  show closedLoopStep _ _ _ = (closedLoopStep cfg w e).map _
  cases e with
  | sender now accepted => exact closedSenderStep_shift d cfg w now accepted
  | message m now =>
      have hgen : (w.shift d).gen.onMessage (m.shift d) (now + d)
          = (w.gen.onMessage m now).shift d := onMessage_shift d w.gen m now
      cases hpc : w.pc with
      | polling deadline =>
          simp only [OpenLoopEvent.shift, closedLoopStep, hpc', hpc, ClosedLoopPc.shift, hgen]
          rfl
      | head | offering | draining deadline | done =>
          simp only [OpenLoopEvent.shift, closedLoopStep, hpc', hpc, ClosedLoopPc.shift,
            Option.map_none]
  | quit =>
      have hhead : (w.shift d).pc = .head ↔ w.pc = .head := by
        rw [hpc']
        cases w.pc <;> simp [ClosedLoopPc.shift]
      simp only [OpenLoopEvent.shift, closedLoopStep, hhead]
      split_ifs <;> rfl

/-! ## A sender thread moved in time -/

/-- `after` does at readings moved by `d` what `before` does at the readings themselves. -/
structure Shift {σ : Type} (d : ℤ) (before after : Sender σ) where
  state : σ → σ
  init : after.init = state before.init
  step : ∀ s e, after.machine.step (state s) (e.shift d) = (before.machine.step s e).map state
  gen : ∀ s, after.gen (state s) = (before.gen s).shift d
  atHead : ∀ s, after.atHead (state s) = before.atHead s
  finished : ∀ s, after.finished (state s) = before.finished s

def openShift (d : ℤ) (cfg : Config) : Shift d (openSender cfg) (openSender (cfg.shift d)) where
  state := OpenLoop.shift d
  init := rfl
  step := openLoop_shift d cfg
  gen _ := rfl
  atHead w := by
    show decide (w.pc.shift d = .head) = decide (w.pc = .head)
    cases w.pc <;> rfl
  finished w := by
    show decide (w.pc.shift d = .done) = decide (w.pc = .done)
    cases w.pc <;> rfl

def closedShift (d : ℤ) (cfg : ClosedConfig) :
    Shift d (closedSender cfg) (closedSender (cfg.shift d)) where
  state := ClosedLoop.shift d
  init := rfl
  step := closedLoop_shift d cfg
  gen _ := rfl
  atHead w := by
    show decide (w.pc.shift d = .head) = decide (w.pc = .head)
    cases w.pc <;> rfl
  finished w := by
    show decide (w.pc.shift d = .done) = decide (w.pc = .done)
    cases w.pc <;> rfl

/-! ## The measurement moved in time -/

variable {σ : Type} {d : ℤ} {before after : Sender σ}

/-- The two runs stand at the same place and have measured the same, and the window is open in
both or in neither. -/
structure Related (shift : Shift d before after) (w w' : Measurement σ) : Prop where
  sender : w'.sender = shift.state w.sender
  running : w'.running = w.running
  interrupted : w'.interrupted = w.interrupted
  reporter : w'.reporter = w.reporter
  taken : w'.taken = w.taken
  measured : w'.measured = w.measured
  main : w'.main = w.main
  opened : 0 < w'.measureStartNanos ↔ 0 < w.measureStartNanos
  start : 0 < w.measureStartNanos → w'.measureStartNanos = w.measureStartNanos + d
  stop : w.main = .done → w'.measureEndNanos = w.measureEndNanos + d

/-- A reading at or behind the end of warm-up is positive in both runs or in neither. -/
def SameSign (d warmupEndNanos : ℤ) : MeasurementEvent → Prop
  | .reporterTicks now => warmupEndNanos ≤ now → (0 < now ↔ 0 < now + d)
  | _ => True

lemma mayMove_shift (running atHead : Bool) (e : OpenLoopEvent) :
    mayMove running atHead (e.shift d) = mayMove running atHead e := by
  cases e <;> rfl

section Related

variable {shift : Shift d before after} {w w' : Measurement σ}

lemma Related.recorder (h : Related shift w w') :
    (after.gen w'.sender).recorder = (before.gen w.sender).recorder := by
  rw [h.sender, shift.gen]
  rfl

lemma Related.interval (h : Related shift w w') : w'.interval after = w.interval before := by
  rw [Measurement.interval, Measurement.interval, h.recorder, h.taken]

/-- The reporter's tick.  The window is open in both runs already, or opens in both when the
reading counts as positive in both. -/
lemma Related.tick {warmupEndNanos now : ℤ} {interval : List ℤ} (h : Related shift w w')
    (hsign : warmupEndNanos ≤ now → (0 < now ↔ 0 < now + d)) :
    Related shift (w.tick warmupEndNanos interval now)
      (w'.tick (warmupEndNanos + d) interval (now + d)) := by
  have hreached : now + d ≥ warmupEndNanos + d ↔ now ≥ warmupEndNanos := add_le_add_iff_right d
  simp only [Measurement.tick, gt_iff_lt, h.opened, hreached]
  split_ifs with hopen hnow
  · exact { h with reporter := rfl, measured := by rw [h.measured] }
  · exact { h with reporter := rfl, opened := (hsign hnow).symm, start := fun _ => rfl }
  · exact { h with reporter := rfl }

/-- The final flush. -/
lemma Related.flush (h : Related shift w w') :
    Related shift (w.flush before) (w'.flush after) := by
  simp only [Measurement.flush, gt_iff_lt, h.opened]
  split_ifs with hopen
  · exact { h with
      measured := by rw [h.measured, h.interval]
      taken := by rw [h.recorder]
      main := rfl
      stop := fun hdone => by cases hdone }
  · exact { h with main := rfl, stop := fun hdone => by cases hdone }

/-- **Corresponding steps.** -/
lemma related_step {warmupEndNanos : ℤ} {e : MeasurementEvent} {v : Measurement σ}
    (h : Related shift w w') (hsign : SameSign d warmupEndNanos e)
    (hstep : MeasurementStep before warmupEndNanos w e v) :
    ∃ v', (measurement after (warmupEndNanos + d)).step w' (e.shift d) = some v' ∧
      Related shift v v' := by
  cases hstep with
  | loops e s sending may step =>
      have hmay : w'.main = .sending ∧
          mayMove w'.running (after.atHead w'.sender) (e.shift d) = true := by
        rw [h.main, h.running, h.sender, shift.atHead, mayMove_shift]
        exact ⟨sending, may⟩
      have hs : after.machine.step w'.sender (e.shift d) = some (shift.state s) := by
        rw [h.sender, shift.step, step, Option.map_some]
      refine ⟨{ w' with sender := shift.state s }, ?_, { h with sender := rfl }⟩
      show (if _ then _ else _) = _
      rw [if_pos hmay, hs, Option.map_some]
  | tests head =>
      refine ⟨{ w' with reporter := if w'.running then .sleeping else .ended }, ?_,
        { h with reporter := by rw [h.running] }⟩
      show (if _ then _ else _) = _
      rw [if_pos (h.reporter.trans head)]
  | wakes sleeping =>
      refine ⟨{ w' with reporter := if w'.interrupted then .ended else .awake }, ?_,
        { h with reporter := by rw [h.interrupted] }⟩
      show (if _ then _ else _) = _
      rw [if_pos (h.reporter.trans sleeping)]
  | reads awake =>
      refine ⟨{ w' with
          reporter := .read (w'.interval after)
          taken := (after.gen w'.sender).recorder.length }, ?_,
        { h with reporter := by rw [h.interval], taken := by rw [h.recorder] }⟩
      show (if _ then _ else _) = _
      rw [if_pos (h.reporter.trans awake)]
  | ticks interval now read =>
      refine ⟨w'.tick (warmupEndNanos + d) interval (now + d), ?_, h.tick hsign⟩
      have hread := h.reporter.trans read
      simp only [measurement, MeasurementEvent.shift, measurementStep, hread]
  | shutdown => exact ⟨{ w' with running := false }, rfl, { h with running := rfl }⟩
  | stops now sending finished =>
      refine ⟨{ w' with running := false, main := .interrupting }, ?_,
        { h with running := rfl, main := rfl, stop := fun hdone => by cases hdone }⟩
      have hmain := h.main.trans sending
      have hfinished : after.finished w'.sender = true := by
        rw [h.sender, shift.finished, finished]
      simp only [measurement, MeasurementEvent.shift, measurementStep, mainStep, hmain, hfinished,
        if_true]
  | interrupts now interrupting =>
      refine ⟨{ w' with interrupted := true, main := .joining }, ?_,
        { h with interrupted := rfl, main := rfl, stop := fun hdone => by cases hdone }⟩
      have hmain := h.main.trans interrupting
      simp only [measurement, MeasurementEvent.shift, measurementStep, mainStep, hmain]
  | joins now joining ended =>
      refine ⟨{ w' with main := .flushing }, ?_,
        { h with main := rfl, stop := fun hdone => by cases hdone }⟩
      have hmain := h.main.trans joining
      have hended := h.reporter.trans ended
      simp only [measurement, MeasurementEvent.shift, measurementStep, mainStep, hmain, hended,
        if_true]
  | flushes now flushing =>
      refine ⟨w'.flush after, ?_, h.flush⟩
      have hmain := h.main.trans flushing
      simp only [measurement, MeasurementEvent.shift, measurementStep, mainStep, hmain]
  | stamps now stamping =>
      refine ⟨{ w' with measureEndNanos := now + d, main := .done }, ?_,
        { h with main := rfl, stop := fun _ => rfl }⟩
      have hmain := h.main.trans stamping
      simp only [measurement, MeasurementEvent.shift, measurementStep, mainStep, hmain]

end Related

/-- The window `printSummary` divides the count by, in nanoseconds. -/
def Measurement.windowNanos (w : Measurement σ) : ℤ :=
  if w.measureStartNanos > 0 then w.measureEndNanos - w.measureStartNanos else 0

lemma Related.windowNanos {shift : Shift d before after} {w w' : Measurement σ}
    (h : Related shift w w') (hdone : w.main = .done) : w'.windowNanos = w.windowNanos := by
  simp only [Measurement.windowNanos, gt_iff_lt, h.opened]
  split_ifs with hopen
  · rw [h.start hopen, h.stop hdone, add_sub_add_right_eq_sub]
  · rfl

/-- The run with all readings moved by `d` exists and has the results of the run itself: the
measured samples, the messages dropped, the messages sent, at instants moved by `d`, and at the
summary the length of the window. -/
def SameResults (d : ℤ) (before after : Sender σ) (warmupEndNanos : ℤ)
    (events : List MeasurementEvent) (w : Measurement σ) : Prop :=
  ∃ w', (measurement after (warmupEndNanos + d)).run (.init after)
      (events.map (MeasurementEvent.shift d)) = some w' ∧
    w'.measured = w.measured ∧
    (w.main = .done → w'.main = .done ∧ w'.windowNanos = w.windowNanos) ∧
    (after.gen w'.sender).droppedByRig = (before.gen w.sender).droppedByRig ∧
    (after.gen w'.sender).sent = (before.gen w.sender).sent.map (Message.shift d)

lemma sameResults (shift : Shift d before after) {warmupEndNanos : ℤ}
    {events : List MeasurementEvent} {w : Measurement σ}
    (hrun : (measurement before warmupEndNanos).run (.init before) events = some w)
    (hsign : ∀ e ∈ events, SameSign d warmupEndNanos e) :
    SameResults d before after warmupEndNanos events w := by
  have hinit : Related shift (.init before) (.init after) :=
    ⟨shift.init, rfl, rfl, rfl, rfl, rfl, rfl, Iff.rfl, fun h => absurd h (lt_irrefl 0),
      fun h => by cases h⟩
  obtain ⟨w', hrun', hrelated⟩ := Machine.simulation
    (fun s e s' t hR hC hstep => related_step hR hC (measurement_step hstep)) hinit hsign hrun
  refine ⟨w', hrun', hrelated.measured, ?_, ?_, ?_⟩
  · intro hdone
    exact ⟨hrelated.main.trans hdone, hrelated.windowNanos hdone⟩
  · rw [hrelated.sender, shift.gen]
    rfl
  · rw [hrelated.sender, shift.gen]
    rfl

/-- **When the origin does not matter.**  In either mode, if every reading the reporter takes at or
behind the end of warm-up has the same sign before and after the offset is added, the results of
the run are the same at every point of it. -/
theorem clock_origin (d warmupEndNanos : ℤ) (events : List MeasurementEvent)
    (hsign : ∀ now, .reporterTicks now ∈ events → warmupEndNanos ≤ now →
      (0 < now ↔ 0 < now + d)) :
    (∀ (cfg : Config) (w : Measurement OpenLoop),
      (measurement (openSender cfg) warmupEndNanos).run (.init (openSender cfg)) events = some w →
        SameResults d (openSender cfg) (openSender (cfg.shift d)) warmupEndNanos events w) ∧
    (∀ (cfg : ClosedConfig) (w : Measurement ClosedLoop),
      (measurement (closedSender cfg) warmupEndNanos).run (.init (closedSender cfg)) events
          = some w →
        SameResults d (closedSender cfg) (closedSender (cfg.shift d)) warmupEndNanos events w) := by
  have hall : ∀ e ∈ events, SameSign d warmupEndNanos e := by
    intro e he
    cases e with
    | reporterTicks now => exact hsign now he
    | loop | reporterTests | reporterWakes | reporterReads | shutdown | main => trivial
  refine ⟨?_, ?_⟩
  · intro cfg w hrun
    exact sameResults (openShift d cfg) hrun hall
  · intro cfg w hrun
    exact sameResults (closedShift d cfg) hrun hall

/-- The run of two replies, a hundred nanoseconds later. -/
theorem clock_origin_of_twoReplies :
    ∃ w', (measurement (closedSender (oneOutstanding.shift 100)) 105).run
        (.init (closedSender (oneOutstanding.shift 100)))
        (twoReplies.map (MeasurementEvent.shift 100)) = some w' ∧ w'.measured = [2, 2] := by
  have hrun : ((measurement (closedSender oneOutstanding) 5).run
      (.init (closedSender oneOutstanding)) twoReplies).map Measurement.measured
      = some [2, 2] := by
    decide +kernel
  obtain ⟨w, hw, hmeasured⟩ := Option.map_eq_some_iff.mp hrun
  have hsign : ∀ now, MeasurementEvent.reporterTicks now ∈ twoReplies → 5 ≤ now →
      (0 < now ↔ 0 < now + 100) := by
    intro now _ hnow
    omega
  obtain ⟨w', hw', hsame, -⟩ := (clock_origin 100 5 twoReplies hsign).2 oneOutstanding w hw
  exact ⟨w', hw', hsame.trans hmeasured⟩

/-- The same run a hundred nanoseconds earlier, so that every reading is negative: the two samples
and the window of six nanoseconds are gone. -/
theorem clock_origin_matters :
    ∃ w w',
      (measurement (closedSender oneOutstanding) 5).run (.init (closedSender oneOutstanding))
        twoReplies = some w ∧
      (measurement (closedSender (oneOutstanding.shift (-100))) (5 + -100)).run
        (.init (closedSender (oneOutstanding.shift (-100))))
        (twoReplies.map (MeasurementEvent.shift (-100))) = some w' ∧
      w.main = .done ∧ w'.main = .done ∧
      w.measured = [2, 2] ∧ w.windowNanos = 6 ∧ w'.measured = [] ∧ w'.windowNanos = 0 := by
  have hrun : ((measurement (closedSender oneOutstanding) 5).run
      (.init (closedSender oneOutstanding)) twoReplies).map
      (fun w => (w.main, w.measured, w.windowNanos)) = some (.done, [2, 2], 6) := by
    decide +kernel
  have hrun' : ((measurement (closedSender (oneOutstanding.shift (-100))) (5 + -100)).run
      (.init (closedSender (oneOutstanding.shift (-100))))
      (twoReplies.map (MeasurementEvent.shift (-100)))).map
      (fun w => (w.main, w.measured, w.windowNanos)) = some (.done, [], 0) := by
    decide +kernel
  obtain ⟨w, hw, hvalues⟩ := Option.map_eq_some_iff.mp hrun
  obtain ⟨w', hw', hvalues'⟩ := Option.map_eq_some_iff.mp hrun'
  simp only [Prod.mk.injEq] at hvalues hvalues'
  exact ⟨w, w', hw, hw', hvalues.1, hvalues'.1, hvalues.2.1, hvalues.2.2, hvalues'.2.1,
    hvalues'.2.2⟩

end RaftBench.Aeron

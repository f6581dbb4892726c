import RaftBench.Aeron.ClosedLoop

/-!
# The measurement of the aeron load generator

Three threads share the measurement.  The sender thread records the latency of every reply into a
`SingleWriterRecorder`; the reporter takes the interval recorded since its last read once a second,
discards it during warm-up, opens the window at the first tick behind it and adds the interval from
then on; and when the sender thread has drained it clears `running`, interrupts and joins the
reporter, takes the last interval itself and stamps the end of the window.  The shutdown watcher may
clear `running` at any time.

* `Sender` is one of the two loops with what the rest needs to know of it; `openSender` and
  `closedSender` are the two.
* `measurement` is the machine of all of them.  `taken` says how much of the recorder has been
  read, so `getIntervalHistogram` returns what lies behind it.
* `measurement_step` lists once what a step can do.

`measureStartNanos` doubles as "not started yet": the code takes the window for open when it is
positive.
-/

namespace RaftBench.Aeron

/-! ## The sender thread -/

/-- What `onMessage` records for an event of the sender thread. -/
def OpenLoopEvent.recorded : OpenLoopEvent → List ℤ
  | .message m now => [clampNanos (now - m.stampNanos)]
  | _ => []

/-- A loop of the sender thread, up to the end of its drain.  Only `onMessage` records. -/
structure Sender (σ : Type) where
  machine : Machine σ OpenLoopEvent
  init : σ
  gen : σ → Loadgen
  atHead : σ → Bool
  finished : σ → Bool
  recorder_init : (gen init).recorder = []
  recorder_step : ∀ s e s', machine.step s e = some s' →
    (gen s').recorder = (gen s).recorder ++ e.recorded

lemma onMessage_recorder (g : Loadgen) (m : Message) (now : ℤ) :
    (g.onMessage m now).recorder = g.recorder ++ [clampNanos (now - m.stampNanos)] := by
  simp only [Loadgen.onMessage]
  split_ifs <;> rfl

lemma openLoop_recorder {cfg : Config} {w w' : OpenLoop} {e : OpenLoopEvent}
    (h : (openLoop cfg).step w e = some w') :
    w'.gen.recorder = w.gen.recorder ++ e.recorded := by
  cases openLoop_step h with
  | ends | quits | starts | waits | closes | polled | drainPolled | drains | drainPolls | drained
  | sends | drops => exact (List.append_nil _).symm
  | receives m now deadline pc => exact onMessage_recorder w.gen m now

lemma closedLoop_recorder {cfg : ClosedConfig} {w w' : ClosedLoop} {e : OpenLoopEvent}
    (h : (closedLoop cfg).step w e = some w') :
    w'.gen.recorder = w.gen.recorder ++ e.recorded := by
  cases closedLoop_step h with
  | moves | quits | sends => exact (List.append_nil _).symm
  | receives m now deadline pc => exact onMessage_recorder w.gen m now

/-- `runOpenLoop` and the drain behind it. -/
def openSender (cfg : Config) : Sender OpenLoop where
  machine := openLoop cfg
  init := .init cfg
  gen := OpenLoop.gen
  atHead w := w.pc = .head
  finished w := w.pc = .done
  recorder_init := rfl
  recorder_step _ _ _ := openLoop_recorder

/-- `runClosedLoop` and the drain behind it. -/
def closedSender (cfg : ClosedConfig) : Sender ClosedLoop where
  machine := closedLoop cfg
  init := {}
  gen := ClosedLoop.gen
  atHead w := w.pc = .head
  finished w := w.pc = .done
  recorder_init := rfl
  recorder_step _ _ _ := closedLoop_recorder

/-! ## The state -/

/-- Where the reporter thread is; `read` holds the interval it has taken. -/
inductive ReporterPc where
  | head
  | sleeping
  | awake
  | read (interval : List ℤ)
  | ended
  deriving DecidableEq, Repr

/-- Where `run` is behind its loop. -/
inductive MainPc where
  | sending
  | interrupting
  | joining
  | flushing
  | stamping
  | done
  deriving DecidableEq, Repr

structure Measurement (σ : Type) where
  sender : σ
  running : Bool := true
  interrupted : Bool := false
  reporter : ReporterPc := .head
  taken : ℕ := 0
  measured : List ℤ := []
  measureStartNanos : ℤ := 0
  measureEndNanos : ℤ := 0
  main : MainPc := .sending
  deriving DecidableEq, Repr

variable {σ : Type}

def Measurement.init (sender : Sender σ) : Measurement σ := { sender := sender.init }

/-- `getIntervalHistogram`: the values recorded since the last call. -/
def Measurement.interval (sender : Sender σ) (w : Measurement σ) : List ℤ :=
  (sender.gen w.sender).recorder.drop w.taken

/-! ## The steps -/

inductive MeasurementEvent where
  /-- the sender thread moves in its loop or in the drain -/
  | loop (e : OpenLoopEvent)
  /-- the reporter tests `running` -/
  | reporterTests
  /-- the reporter's sleep ends, or is interrupted -/
  | reporterWakes
  /-- the reporter takes the interval -/
  | reporterReads
  /-- the reporter reads the clock and disposes of the interval -/
  | reporterTicks (now : ℤ)
  /-- the shutdown watcher clears `running` -/
  | shutdown
  /-- the sender thread moves behind the drain -/
  | main (now : ℤ)
  deriving DecidableEq, Repr

/-- At the head of its loop the sender thread goes on only while `running` is set, and leaves only
when it is not. -/
def mayMove (running atHead : Bool) : OpenLoopEvent → Bool
  | .quit => !running
  | .sender _ _ => running || !atHead
  | .message _ _ => true

/-- The reporter's tick. -/
def Measurement.tick (warmupEndNanos : ℤ) (w : Measurement σ) (interval : List ℤ) (now : ℤ) :
    Measurement σ :=
  if w.measureStartNanos > 0 then
    { w with measured := w.measured ++ interval, reporter := .head }
  else if now ≥ warmupEndNanos then { w with measureStartNanos := now, reporter := .head }
  else { w with reporter := .head }

/-- The last interval is taken only when the window is open. -/
def Measurement.flush (sender : Sender σ) (w : Measurement σ) : Measurement σ :=
  if w.measureStartNanos > 0 then
    { w with
      measured := w.measured ++ w.interval sender
      taken := (sender.gen w.sender).recorder.length
      main := .stamping }
  else { w with main := .stamping }

def mainStep (sender : Sender σ) (w : Measurement σ) (now : ℤ) : Option (Measurement σ) :=
  match w.main with
  | .sending =>
      if sender.finished w.sender then some { w with running := false, main := .interrupting }
      else none
  | .interrupting => some { w with interrupted := true, main := .joining }
  | .joining => if w.reporter = .ended then some { w with main := .flushing } else none
  | .flushing => some (w.flush sender)
  | .stamping => some { w with measureEndNanos := now, main := .done }
  | .done => none

def measurementStep (sender : Sender σ) (warmupEndNanos : ℤ) (w : Measurement σ) :
    MeasurementEvent → Option (Measurement σ)
  | .loop e =>
      if w.main = .sending ∧ mayMove w.running (sender.atHead w.sender) e then
        (sender.machine.step w.sender e).map fun s => { w with sender := s }
      else none
  | .reporterTests =>
      if w.reporter = .head then
        some { w with reporter := if w.running then .sleeping else .ended }
      else none
  | .reporterWakes =>
      if w.reporter = .sleeping then
        some { w with reporter := if w.interrupted then .ended else .awake }
      else none
  | .reporterReads =>
      if w.reporter = .awake then
        some { w with
          reporter := .read (w.interval sender)
          taken := (sender.gen w.sender).recorder.length }
      else none
  | .reporterTicks now =>
      match w.reporter with
      | .read interval => some (w.tick warmupEndNanos interval now)
      | _ => none
  | .shutdown => some { w with running := false }
  | .main now => mainStep sender w now

def measurement (sender : Sender σ) (warmupEndNanos : ℤ) :
    Machine (Measurement σ) MeasurementEvent where
  step := measurementStep sender warmupEndNanos

/-! ## What one step can do -/

/-- The possible steps, with their guards and their effect. -/
inductive MeasurementStep (sender : Sender σ) (warmupEndNanos : ℤ) (w : Measurement σ) :
    MeasurementEvent → Measurement σ → Prop where
  | loops (e : OpenLoopEvent) (s : σ) (sending : w.main = .sending)
      (may : mayMove w.running (sender.atHead w.sender) e = true)
      (step : sender.machine.step w.sender e = some s) :
      MeasurementStep sender warmupEndNanos w (.loop e) { w with sender := s }
  | tests (head : w.reporter = .head) :
      MeasurementStep sender warmupEndNanos w .reporterTests
        { w with reporter := if w.running then .sleeping else .ended }
  | wakes (sleeping : w.reporter = .sleeping) :
      MeasurementStep sender warmupEndNanos w .reporterWakes
        { w with reporter := if w.interrupted then .ended else .awake }
  | reads (awake : w.reporter = .awake) :
      MeasurementStep sender warmupEndNanos w .reporterReads
        { w with
          reporter := .read (w.interval sender)
          taken := (sender.gen w.sender).recorder.length }
  | ticks (interval : List ℤ) (now : ℤ) (read : w.reporter = .read interval) :
      MeasurementStep sender warmupEndNanos w (.reporterTicks now)
        (w.tick warmupEndNanos interval now)
  | shutdown : MeasurementStep sender warmupEndNanos w .shutdown { w with running := false }
  | stops (now : ℤ) (sending : w.main = .sending) (finished : sender.finished w.sender = true) :
      MeasurementStep sender warmupEndNanos w (.main now)
        { w with running := false, main := .interrupting }
  | interrupts (now : ℤ) (interrupting : w.main = .interrupting) :
      MeasurementStep sender warmupEndNanos w (.main now)
        { w with interrupted := true, main := .joining }
  | joins (now : ℤ) (joining : w.main = .joining) (ended : w.reporter = .ended) :
      MeasurementStep sender warmupEndNanos w (.main now) { w with main := .flushing }
  | flushes (now : ℤ) (flushing : w.main = .flushing) :
      MeasurementStep sender warmupEndNanos w (.main now) (w.flush sender)
  | stamps (now : ℤ) (stamping : w.main = .stamping) :
      MeasurementStep sender warmupEndNanos w (.main now)
        { w with measureEndNanos := now, main := .done }

lemma mainStep_cases {sender : Sender σ} {warmupEndNanos now : ℤ} {w w' : Measurement σ}
    (h : mainStep sender w now = some w') :
    MeasurementStep sender warmupEndNanos w (.main now) w' := by
  unfold mainStep at h
  cases hmain : w.main with
  | sending =>
      simp only [hmain] at h
      split_ifs at h with hfinished
      obtain rfl := Option.some.inj h
      exact .stops now hmain hfinished
  | interrupting =>
      simp only [hmain, Option.some.injEq] at h
      subst h
      exact .interrupts now hmain
  | joining =>
      simp only [hmain] at h
      split_ifs at h with hended
      obtain rfl := Option.some.inj h
      exact .joins now hmain hended
  | flushing =>
      simp only [hmain, Option.some.injEq] at h
      subst h
      exact .flushes now hmain
  | stamping =>
      simp only [hmain, Option.some.injEq] at h
      subst h
      exact .stamps now hmain
  | done => simp [hmain] at h

/-- **What one step can do.** -/
theorem measurement_step {sender : Sender σ} {warmupEndNanos : ℤ} {w w' : Measurement σ}
    {e : MeasurementEvent} (h : (measurement sender warmupEndNanos).step w e = some w') :
    MeasurementStep sender warmupEndNanos w e w' := by
  simp only [measurement] at h
  cases e with
  | loop e =>
      simp only [measurementStep] at h
      split_ifs at h with hmay
      obtain ⟨s, hs, rfl⟩ := Option.map_eq_some_iff.mp h
      exact .loops e s hmay.1 hmay.2 hs
  | reporterTests =>
      simp only [measurementStep] at h
      by_cases hhead : w.reporter = .head
      · rw [if_pos hhead, Option.some.injEq] at h
        subst h
        exact .tests hhead
      · simp [hhead] at h
  | reporterWakes =>
      simp only [measurementStep] at h
      by_cases hsleeping : w.reporter = .sleeping
      · rw [if_pos hsleeping, Option.some.injEq] at h
        subst h
        exact .wakes hsleeping
      · simp [hsleeping] at h
  | reporterReads =>
      simp only [measurementStep] at h
      split_ifs at h with hawake
      obtain rfl := Option.some.inj h
      exact .reads hawake
  | reporterTicks now =>
      simp only [measurementStep] at h
      split at h
      · next interval hread =>
          obtain rfl := Option.some.inj h
          exact .ticks interval now hread
      · simp at h
  | shutdown =>
      obtain rfl := Option.some.inj h
      exact .shutdown
  | main now => exact mainStep_cases h

end RaftBench.Aeron

import RaftBench.Aeron.Measurement

/-!
# What the aeron window holds

The reporter takes an interval before it reads the clock, so the tick that opens the window has
already taken everything recorded up to its read; what is recorded from that read on, while the
tick is still being processed as well as later, belongs to the window.

`FirstTick` cuts a run at the interval read and at the clock reading of the first tick behind
warm-up.  `Stage` says where the measurement stands between two steps: nothing is measured yet, or
what is measured, what the reporter holds and what nobody has taken yet are together the samples
recorded since that read.  Every step keeps it, so at the summary, when nobody holds anything and
nothing is left to take, the measured samples are those.
-/

namespace RaftBench.Aeron

variable {σ : Type}

/-! ## Cutting a run -/

def MeasurementEvent.recorded : MeasurementEvent → List ℤ
  | .loop e => e.recorded
  | _ => []

/-- The samples recorded in a stretch of a run. -/
def recordedIn (events : List MeasurementEvent) : List ℤ :=
  events.flatMap MeasurementEvent.recorded

/-- The reporter's two steps on an interval. -/
def MeasurementEvent.isReport : MeasurementEvent → Bool
  | .reporterReads => true
  | .reporterTicks _ => true
  | _ => false

/-- The first tick whose clock reading is at or behind the end of warm-up: `between` lies between
its interval read and its clock reading, `after` behind it. -/
structure FirstTick (warmupEndNanos : ℤ) (events before between after : List MeasurementEvent)
    (now : ℤ) : Prop where
  split : events = before ++ .reporterReads :: (between ++ .reporterTicks now :: after)
  reached : warmupEndNanos ≤ now
  first : ∀ t, .reporterTicks t ∈ before → t < warmupEndNanos
  sameTick : ∀ e ∈ between, e.isReport = false

lemma recordedIn_append (es fs : List MeasurementEvent) :
    recordedIn (es ++ fs) = recordedIn es ++ recordedIn fs := List.flatMap_append

lemma recordedIn_concat (es : List MeasurementEvent) (e : MeasurementEvent) :
    recordedIn (es ++ [e]) = recordedIn es ++ e.recorded := by
  rw [recordedIn_append, recordedIn, recordedIn, List.flatMap_singleton]

/-! ## Where the measurement stands -/

/-- The interval the reporter holds. -/
def ReporterPc.held : ReporterPc → List ℤ
  | .read interval => interval
  | _ => []

/-- No tick has reached the end of warm-up.  While the reporter holds an interval, its read is the
last one in the run. -/
structure Waiting (warmupEndNanos : ℤ) (events : List MeasurementEvent) (w : Measurement σ) :
    Prop where
  start : w.measureStartNanos = 0
  measured : w.measured = []
  early : ∀ t, .reporterTicks t ∈ events → t < warmupEndNanos
  lastRead : ∀ interval, w.reporter = .read interval → ∃ before between,
    events = before ++ .reporterReads :: between ∧ (∀ e ∈ between, e.isReport = false) ∧
      w.taken = (recordedIn before).length

/-- The window is open: the samples since the read of the first tick are measured, held or still
to be taken. -/
def Open (sender : Sender σ) (warmupEndNanos : ℤ) (events : List MeasurementEvent)
    (w : Measurement σ) : Prop :=
  ∃ before between after now, FirstTick warmupEndNanos events before between after now ∧
    w.measureStartNanos = now ∧
    w.measured ++ w.reporter.held ++ w.interval sender = recordedIn (between ++ after)

/-- Behind the join the reporter is gone, and behind the flush an open window has everything. -/
def Handed (sender : Sender σ) (w : Measurement σ) : Prop :=
  match w.main with
  | .flushing => w.reporter = .ended
  | .stamping | .done =>
      w.reporter = .ended ∧ (0 < w.measureStartNanos → w.interval sender = [])
  | _ => True

structure Stage (sender : Sender σ) (warmupEndNanos : ℤ) (events : List MeasurementEvent)
    (w : Measurement σ) : Prop where
  recorder : (sender.gen w.sender).recorder = recordedIn events
  taken_le : w.taken ≤ (recordedIn events).length
  handed : Handed sender w
  stage : Waiting warmupEndNanos events w ∨ Open sender warmupEndNanos events w

variable {sender : Sender σ} {warmupEndNanos : ℤ} {events : List MeasurementEvent}
  {w v : Measurement σ} {e : MeasurementEvent}

lemma stage_init (sender : Sender σ) (warmupEndNanos : ℤ) :
    Stage sender warmupEndNanos [] (.init sender) where
  recorder := sender.recorder_init
  taken_le := Nat.zero_le _
  handed := trivial
  stage := Or.inl ⟨rfl, rfl, by simp, by simp [Measurement.init]⟩

/-- A step that leaves the measurement alone: it may only record, or move the reporter past
points where it holds nothing. -/
lemma Waiting.frame (h : Waiting warmupEndNanos events w) (he : e.isReport = false)
    (hstart : v.measureStartNanos = w.measureStartNanos) (hmeasured : v.measured = w.measured)
    (htaken : v.taken = w.taken)
    (hreporter : ∀ interval, v.reporter = .read interval → w.reporter = .read interval) :
    Waiting warmupEndNanos (events ++ [e]) v where
  start := hstart.trans h.start
  measured := hmeasured.trans h.measured
  early := by
    intro t ht
    rcases List.mem_append.mp ht with ht | ht
    · exact h.early t ht
    · obtain rfl := List.mem_singleton.mp ht
      cases he
  lastRead := by
    intro interval hread
    obtain ⟨before, between, hevents, hbetween, htaken'⟩ := h.lastRead interval (hreporter _ hread)
    refine ⟨before, between ++ [e], ?_, ?_, htaken.trans htaken'⟩
    · rw [hevents, List.append_assoc, List.cons_append]
    · intro e' he'
      rcases List.mem_append.mp he' with he' | he'
      · exact hbetween e' he'
      · exact List.mem_singleton.mp he' ▸ he

lemma FirstTick.push {before between after : List MeasurementEvent} {now : ℤ}
    (h : FirstTick warmupEndNanos events before between after now) (e : MeasurementEvent) :
    FirstTick warmupEndNanos (events ++ [e]) before between (after ++ [e]) now := by
  refine ⟨?_, h.reached, h.first, h.sameTick⟩
  rw [h.split]
  simp only [List.append_assoc, List.cons_append]

/-- On a positive clock an open window is one the code takes for open. -/
lemma Open.start_pos (h : Open sender warmupEndNanos events w)
    (hpos : ∀ t, .reporterTicks t ∈ events → 0 < t) : 0 < w.measureStartNanos := by
  obtain ⟨before, between, after, now, hfirst, hnow, -⟩ := h
  rw [hnow]
  refine hpos now ?_
  rw [hfirst.split]
  simp

/-- Any step of an open window whose measured, held and remaining samples grow by what the step
records. -/
lemma Open.frame (h : Open sender warmupEndNanos events w)
    (hstart : v.measureStartNanos = w.measureStartNanos)
    (hsamples : v.measured ++ v.reporter.held ++ v.interval sender
      = w.measured ++ w.reporter.held ++ w.interval sender ++ e.recorded) :
    Open sender warmupEndNanos (events ++ [e]) v := by
  obtain ⟨before, between, after, now, hfirst, hnow, hsum⟩ := h
  refine ⟨before, between, after ++ [e], now, hfirst.push e, hstart.trans hnow, ?_⟩
  rw [hsamples, hsum, ← List.append_assoc, recordedIn_concat]

/-! ### The hand-over -/

/-- The sender thread has not joined the reporter yet. -/
def MainPc.isEarly : MainPc → Bool
  | .sending | .interrupting | .joining => true
  | _ => false

lemma handed_of_isEarly (h : w.main.isEarly = true) : Handed sender w := by
  unfold Handed
  cases hmain : w.main <;> simp_all [MainPc.isEarly]

/-- As long as the reporter has not ended, nobody has joined it. -/
lemma Handed.isEarly (h : Handed sender w) (hlive : w.reporter ≠ .ended) :
    w.main.isEarly = true := by
  unfold Handed at h
  cases hmain : w.main with
  | sending | interrupting | joining => rfl
  | flushing =>
      rw [hmain] at h
      exact absurd h hlive
  | stamping | done =>
      rw [hmain] at h
      exact absurd h.1 hlive

/-! ### One step -/

/-- The sender thread records, or does not. -/
lemma Stage.loops {e : OpenLoopEvent} {s : σ} (h : Stage sender warmupEndNanos events w)
    (sending : w.main = .sending) (step : sender.machine.step w.sender e = some s) :
    Stage sender warmupEndNanos (events ++ [.loop e]) { w with sender := s } := by
  have hrecorder := sender.recorder_step w.sender e s step
  refine ⟨?_, ?_, handed_of_isEarly (by simp [sending, MainPc.isEarly]), ?_⟩
  · rw [hrecorder, h.recorder, recordedIn_concat]
    rfl
  · rw [recordedIn_concat, List.length_append]
    exact h.taken_le.trans (Nat.le_add_right _ _)
  · rcases h.stage with hwait | hopen
    · exact Or.inl (hwait.frame rfl rfl rfl rfl fun _ => id)
    · refine Or.inr (hopen.frame rfl ?_)
      have htaken : w.taken ≤ (sender.gen w.sender).recorder.length := h.recorder ▸ h.taken_le
      simp only [Measurement.interval, hrecorder, List.drop_append_of_le_length htaken,
        MeasurementEvent.recorded, List.append_assoc]

/-- A step that moves a thread and touches no sample. -/
lemma Stage.moves (h : Stage sender warmupEndNanos events w) (he : e.isReport = false)
    (hrecorded : e.recorded = []) (hsender : v.sender = w.sender) (htaken : v.taken = w.taken)
    (hmeasured : v.measured = w.measured) (hstart : v.measureStartNanos = w.measureStartNanos)
    (hreporter : v.reporter.held = w.reporter.held)
    (hread : ∀ interval, v.reporter = .read interval → w.reporter = .read interval)
    (hhanded : Handed sender v) : Stage sender warmupEndNanos (events ++ [e]) v := by
  have hsame : recordedIn (events ++ [e]) = recordedIn events := by
    rw [recordedIn_concat, hrecorded, List.append_nil]
  refine ⟨?_, ?_, hhanded, ?_⟩
  · rw [hsender, h.recorder, hsame]
  · rw [htaken, hsame]
    exact h.taken_le
  · rcases h.stage with hwait | hopen
    · exact Or.inl (hwait.frame he hstart hmeasured htaken hread)
    · refine Or.inr (hopen.frame hstart ?_)
      simp only [hmeasured, hreporter, hrecorded, List.append_nil, Measurement.interval, hsender,
        htaken]

/-- The reporter takes the interval. -/
lemma Stage.reads (h : Stage sender warmupEndNanos events w) (awake : w.reporter = .awake) :
    Stage sender warmupEndNanos (events ++ [.reporterReads])
      { w with
        reporter := .read (w.interval sender)
        taken := (sender.gen w.sender).recorder.length } := by
  have hsame : recordedIn (events ++ [.reporterReads]) = recordedIn events := by
    rw [recordedIn_concat]
    exact List.append_nil _
  refine ⟨?_, ?_, ?_, ?_⟩
  · rw [hsame]
    exact h.recorder
  · rw [hsame, h.recorder]
  · exact handed_of_isEarly (h.handed.isEarly (by rw [awake]; decide))
  · rcases h.stage with hwait | hopen
    · refine Or.inl ⟨hwait.start, hwait.measured, ?_, ?_⟩
      · intro t ht
        rcases List.mem_append.mp ht with ht | ht
        · exact hwait.early t ht
        · cases List.mem_singleton.mp ht
      · intro interval _
        refine ⟨events, [], rfl, by simp, ?_⟩
        rw [← h.recorder]
    · refine Or.inr (hopen.frame rfl ?_)
      simp only [ReporterPc.held, awake, Measurement.interval, List.drop_length,
        MeasurementEvent.recorded, List.append_nil]

/-- The reporter's tick: an interval taken before the window was open is dropped. -/
lemma Stage.ticks {interval : List ℤ} {now : ℤ} (h : Stage sender warmupEndNanos events w)
    (hpos : ∀ t, .reporterTicks t ∈ events ++ [.reporterTicks now] → 0 < t)
    (read : w.reporter = .read interval) :
    Stage sender warmupEndNanos (events ++ [.reporterTicks now])
      (w.tick warmupEndNanos interval now) := by
  have hsame : recordedIn (events ++ [.reporterTicks now]) = recordedIn events := by
    rw [recordedIn_concat]
    exact List.append_nil _
  have hearly := h.handed.isEarly (by rw [read]; exact fun h => by cases h)
  have htick : (w.tick warmupEndNanos interval now).sender = w.sender ∧
      (w.tick warmupEndNanos interval now).taken = w.taken ∧
      (w.tick warmupEndNanos interval now).main = w.main := by
    simp only [Measurement.tick]
    split_ifs <;> exact ⟨rfl, rfl, rfl⟩
  obtain ⟨hsender, htaken, hmain⟩ := htick
  refine ⟨?_, ?_, handed_of_isEarly (by rw [hmain]; exact hearly), ?_⟩
  · rw [hsender, h.recorder, hsame]
  · rw [htaken, hsame]
    exact h.taken_le
  · rcases h.stage with hwait | hopen
    · obtain ⟨before, between, hevents, hbetween, htaken'⟩ := hwait.lastRead interval read
      simp only [Measurement.tick, hwait.start, gt_iff_lt, lt_irrefl, if_false]
      by_cases hnow : now ≥ warmupEndNanos
      · -- the window opens: the interval is dropped, what came behind its read is still to be taken
        refine Or.inr ⟨before, between, [], now, ⟨?_, hnow, ?_, hbetween⟩, ?_, ?_⟩
        · rw [hevents]
          simp only [List.append_assoc, List.cons_append]
        · intro t ht
          exact hwait.early t (hevents ▸ List.mem_append_left _ ht)
        · rw [if_pos hnow]
        · have hrecorder : (sender.gen w.sender).recorder
              = recordedIn before ++ recordedIn between := by
            rw [h.recorder, hevents, recordedIn_append]
            rfl
          rw [if_pos hnow]
          simp only [hwait.measured, ReporterPc.held, Measurement.interval, hrecorder, htaken',
            List.nil_append, List.drop_left, List.append_nil]
      · refine Or.inl ⟨?_, ?_, ?_, ?_⟩
        · rw [if_neg hnow]
        · rw [if_neg hnow]
          exact hwait.measured
        · intro t ht
          rcases List.mem_append.mp ht with ht | ht
          · exact hwait.early t ht
          · cases List.mem_singleton.mp ht
            exact not_le.mp hnow
        · intro interval' hread
          rw [if_neg hnow] at hread
          cases hread
    · have hstart := hopen.start_pos fun t ht => hpos t (List.mem_append_left _ ht)
      simp only [Measurement.tick, gt_iff_lt, hstart, if_true]
      refine Or.inr (hopen.frame rfl ?_)
      simp only [read, ReporterPc.held, List.append_nil, MeasurementEvent.recorded,
        Measurement.interval]

/-- The last interval, taken by the sender thread. -/
lemma Stage.flushes (h : Stage sender warmupEndNanos events w)
    (hpos : ∀ t, .reporterTicks t ∈ events → 0 < t) (now : ℤ) (flushing : w.main = .flushing) :
    Stage sender warmupEndNanos (events ++ [.main now]) (w.flush sender) := by
  have hsame : recordedIn (events ++ [.main now]) = recordedIn events := by
    rw [recordedIn_concat]
    exact List.append_nil _
  have hended : w.reporter = .ended := by
    have := h.handed
    rw [Handed, flushing] at this
    exact this
  rcases h.stage with hwait | hopen
  · have hflush : w.flush sender = { w with main := .stamping } := by
      simp only [Measurement.flush, hwait.start, gt_iff_lt, lt_irrefl, if_false]
    rw [hflush]
    refine h.moves rfl rfl rfl rfl rfl rfl rfl (fun _ => id) ⟨hended, fun hstart => ?_⟩
    exact absurd (hwait.start ▸ hstart) (lt_irrefl 0)
  · have hstart := hopen.start_pos hpos
    simp only [Measurement.flush, gt_iff_lt, hstart, if_true]
    refine ⟨?_, ?_, ⟨hended, fun _ => List.drop_length⟩, ?_⟩
    · rw [hsame]
      exact h.recorder
    · rw [hsame, h.recorder]
    · refine Or.inr (hopen.frame rfl ?_)
      simp only [hended, ReporterPc.held, Measurement.interval, List.drop_length,
        MeasurementEvent.recorded, List.append_nil]

/-- **Every step keeps the stage.** -/
lemma stage_step (h : Stage sender warmupEndNanos events w)
    (hpos : ∀ t, .reporterTicks t ∈ events ++ [e] → 0 < t)
    (hstep : MeasurementStep sender warmupEndNanos w e v) :
    Stage sender warmupEndNanos (events ++ [e]) v := by
  cases hstep with
  | loops e s sending may step => exact h.loops sending step
  | tests head =>
      have hearly := h.handed.isEarly (by rw [head]; decide)
      refine h.moves rfl rfl rfl rfl rfl rfl ?_ ?_ (handed_of_isEarly hearly)
      · rw [head]
        cases w.running <;> rfl
      · intro interval hread
        cases hrunning : w.running <;> simp [hrunning] at hread
  | wakes sleeping =>
      have hearly := h.handed.isEarly (by rw [sleeping]; decide)
      refine h.moves rfl rfl rfl rfl rfl rfl ?_ ?_ (handed_of_isEarly hearly)
      · rw [sleeping]
        cases w.interrupted <;> rfl
      · intro interval hread
        cases hinterrupted : w.interrupted <;> simp [hinterrupted] at hread
  | reads awake => exact h.reads awake
  | ticks interval now read => exact h.ticks hpos read
  | shutdown => exact h.moves rfl rfl rfl rfl rfl rfl rfl (fun _ => id) h.handed
  | stops now sending finished =>
      exact h.moves rfl rfl rfl rfl rfl rfl rfl (fun _ => id) trivial
  | interrupts now interrupting =>
      exact h.moves rfl rfl rfl rfl rfl rfl rfl (fun _ => id) trivial
  | joins now joining ended => exact h.moves rfl rfl rfl rfl rfl rfl rfl (fun _ => id) ended
  | flushes now flushing =>
      exact h.flushes (fun t ht => hpos t (List.mem_append_left _ ht)) now flushing
  | stamps now stamping =>
      have hhanded := h.handed
      rw [Handed, stamping] at hhanded
      exact h.moves rfl rfl rfl rfl rfl rfl rfl (fun _ => id) hhanded

/-- **The stage of every reachable state**, on a clock whose readings are positive. -/
theorem stage_run (hpos : ∀ t, .reporterTicks t ∈ events → 0 < t)
    (hrun : (measurement sender warmupEndNanos).run (.init sender) events = some w) :
    Stage sender warmupEndNanos events w := by
  refine Machine.invariant_trace
    (I := fun es w => (∀ t, .reporterTicks t ∈ es → 0 < t) → Stage sender warmupEndNanos es w)
    (fun _ => stage_init sender warmupEndNanos) ?_ hrun hpos
  intro es e t t' _ ht hstep hpos'
  exact stage_step (ht fun r hr => hpos' r (List.mem_append_left _ hr)) hpos'
    (measurement_step hstep)

/-! ## At the summary -/

/-- **The window holds exactly its samples.**  For either loop of the sender thread and every
interleaving with the reporter, the watcher and the final hand-over: at the summary `measured` is
the list of the samples recorded behind the interval read of the first tick at or after the end of
warm-up, each once, or it is empty and there was no such tick. -/
theorem measured_window (sender : Sender σ) (warmupEndNanos : ℤ) {events : List MeasurementEvent}
    {w : Measurement σ}
    (hrun : (measurement sender warmupEndNanos).run (.init sender) events = some w)
    (hpos : ∀ t, .reporterTicks t ∈ events → 0 < t) (hdone : w.main = .done) :
    (∃ before between after now, FirstTick warmupEndNanos events before between after now ∧
      w.measured = recordedIn (between ++ after)) ∨
    ((∀ t, .reporterTicks t ∈ events → t < warmupEndNanos) ∧ w.measured = []) := by
  have hstage := stage_run hpos hrun
  have hhanded := hstage.handed
  rw [Handed, hdone] at hhanded
  obtain ⟨hended, hall⟩ := hhanded
  rcases hstage.stage with hwait | hopen
  · exact Or.inr ⟨hwait.early, hwait.measured⟩
  · have hstart := hopen.start_pos hpos
    obtain ⟨before, between, after, now, hfirst, -, hsum⟩ := hopen
    refine Or.inl ⟨before, between, after, now, hfirst, ?_⟩
    rw [hall hstart, hended] at hsum
    simpa [ReporterPc.held] using hsum

/-- One request outstanding at a time until instant 10. -/
def oneOutstanding : ClosedConfig := ⟨1, 1, 10, 0, Int.one_pos⟩

/-- Two replies: the first arrives between the interval read and the clock reading of the tick that
opens the window, the second later; the interrupt finds the reporter asleep. -/
def twoReplies : List MeasurementEvent :=
  [.loop (.sender 1 false), .loop (.sender 2 true), .loop (.sender 3 true), .reporterTests,
    .reporterWakes, .reporterReads, .loop (.message ⟨0, 2⟩ 4), .reporterTicks 6, .reporterTests,
    .loop (.sender 7 false), .loop (.sender 7 false), .loop (.sender 7 true),
    .loop (.sender 8 true), .loop (.message ⟨1, 7⟩ 9), .loop (.sender 9 false),
    .loop (.sender 11 false), .loop (.sender 11 false), .loop (.sender 11 false), .main 11,
    .main 11, .reporterWakes, .main 11, .main 11, .main 12]

theorem measured_window_of_twoReplies :
    ∃ w, (measurement (closedSender oneOutstanding) 5).run (.init (closedSender oneOutstanding))
        twoReplies = some w ∧ w.measured = [2, 2] ∧
      ∃ before between after now, FirstTick 5 twoReplies before between after now ∧
        w.measured = recordedIn (between ++ after) := by
  have hrun : ((measurement (closedSender oneOutstanding) 5).run
      (.init (closedSender oneOutstanding)) twoReplies).map (fun w => (w.main, w.measured))
      = some (.done, [2, 2]) := by
    decide +kernel
  obtain ⟨w, hw, hvalues⟩ := Option.map_eq_some_iff.mp hrun
  obtain ⟨hdone, hmeasured⟩ := Prod.mk.injEq .. ▸ hvalues
  have hpos : ∀ t, MeasurementEvent.reporterTicks t ∈ twoReplies → 0 < t := by
    simp [twoReplies]
  refine ⟨w, hw, hmeasured, ?_⟩
  rcases measured_window (closedSender oneOutstanding) 5 hw hpos hdone with hopen | ⟨hearly, -⟩
  · exact hopen
  · have := hearly 6 (by simp [twoReplies])
    omega

end RaftBench.Aeron

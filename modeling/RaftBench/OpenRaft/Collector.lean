import RaftBench.OpenRaft.RunOpen

/-!
# What the collector counts

The collector puts every sample into an interval histogram.  A one-second tick moves the interval
into the measured one, but only if the window was open before; the tick that opens the window
discards it, because it straddles the end of warm-up, and when the channel closes the last interval
is moved over once more.

`opening` finds the tick that opens the window and the events behind it, and `collector_window`
says that the measured histograms are the samples of these events: every one of them, once, and no
other.
-/

namespace RaftBench.OpenRaft

/-- What the collector's `select!` loop can wake up to. -/
inductive CollectorEvent where
  | sample (s : Sample)
  | tick (now : ℤ)
  deriving DecidableEq, Repr

def CollectorEvent.sample? : CollectorEvent → Option Sample
  | .sample s => some s
  | .tick _ => none

/-- One turn of the loop. -/
def Collector.turn (warmupEnd : ℤ) (c : Collector) : CollectorEvent → Collector
  | .sample s => c.receive s
  | .tick now => c.tick warmupEnd now

/-- The collector, from its start until the channel is closed. -/
def collector (warmupEnd : ℤ) (events : List CollectorEvent) (closed : ℤ) : Collector :=
  (events.foldl (Collector.turn warmupEnd) {}).close closed

/-- The first tick at or after `warmupEnd`, and the events behind it. -/
def opening (warmupEnd : ℤ) : List CollectorEvent → Option (ℤ × List CollectorEvent)
  | [] => none
  | .sample _ :: events => opening warmupEnd events
  | .tick now :: events =>
      if warmupEnd ≤ now then some (now, events) else opening warmupEnd events

/-! ## The histograms of some samples -/

/-- The samples among the events, in order. -/
def samplesOf (events : List CollectorEvent) : List Sample :=
  events.filterMap CollectorEvent.sample?

def latencies (samples : List Sample) : List ℕ := samples.map fun s => clampNanos s.latencyNs

/-- One entry for each sample with a lag. -/
def lags (samples : List Sample) : List ℕ :=
  (samples.filter fun s => s.lagNs > 0).map fun s => clampNanos s.lagNs

lemma latencies_append (ss ts : List Sample) :
    latencies (ss ++ ts) = latencies ss ++ latencies ts := List.map_append

lemma lags_append (ss ts : List Sample) : lags (ss ++ ts) = lags ss ++ lags ts := by
  rw [lags, List.filter_append, List.map_append, ← lags, ← lags]

/-! ## Before and after the window opens -/

/-- The window is closed and nothing is measured. -/
structure Waiting (c : Collector) : Prop where
  measuring : c.measuring = false
  measureStart : c.measureStart = none
  measured : c.measured = []
  lag : c.lag = []

/-- The window has been open since `now`: what is measured and what the interval holds are
together the samples received since. -/
structure Measuring (now : ℤ) (samples : List Sample) (c : Collector) : Prop where
  measuring : c.measuring = true
  measureStart : c.measureStart = some now
  measured : c.measured ++ c.interval = latencies samples
  lag : c.lag ++ c.intervalLag = lags samples

lemma Measuring.turn {warmupEnd now : ℤ} {samples : List Sample} {c : Collector}
    (h : Measuring now samples c) (e : CollectorEvent) :
    Measuring now (samples ++ e.sample?.toList) (c.turn warmupEnd e) := by
  obtain ⟨hmeasuring, hstart, hmeasured, hlag⟩ := h
  cases e with
  | sample s =>
      refine ⟨hmeasuring, hstart, ?_, ?_⟩
      · simp only [Collector.turn, Collector.receive, CollectorEvent.sample?, Option.toList_some,
          latencies_append, ← hmeasured, List.append_assoc]
        rfl
      · simp only [Collector.turn, Collector.receive, CollectorEvent.sample?, Option.toList_some,
          lags_append, ← hlag, List.append_assoc]
        split_ifs with hs
        · simp [lags, hs]
        · simp [lags, hs]
  | tick t =>
      -- the interval is moved over, so the two lists together stay as they are
      simp only [Collector.turn, Collector.tick, hmeasuring, if_true, CollectorEvent.sample?,
        Option.toList_none, List.append_nil]
      exact ⟨rfl, hstart, by simpa using hmeasured, by simpa using hlag⟩

lemma Measuring.foldl {warmupEnd now : ℤ} {samples : List Sample} {c : Collector}
    (h : Measuring now samples c) (events : List CollectorEvent) :
    Measuring now (samples ++ samplesOf events) (events.foldl (Collector.turn warmupEnd) c) := by
  induction events generalizing samples c with
  | nil => simpa [samplesOf] using h
  | cons e events ih =>
      have hsamples : samplesOf (e :: events) = e.sample?.toList ++ samplesOf events := by
        cases e <;> rfl
      rw [List.foldl_cons, hsamples, ← List.append_assoc]
      exact ih (h.turn e)

/-- What closing the channel leaves. -/
lemma Measuring.close {now closed : ℤ} {samples : List Sample} {c : Collector}
    (h : Measuring now samples c) :
    (c.close closed).measureStart = some now ∧ (c.close closed).measured = latencies samples ∧
      (c.close closed).lag = lags samples := by
  simp only [Collector.close, h.measureStart, Option.isSome_some, if_true, true_and]
  exact ⟨h.measured, h.lag⟩

lemma Waiting.close {closed : ℤ} {c : Collector} (h : Waiting c) :
    (c.close closed).measureStart = none ∧ (c.close closed).measured = [] ∧
      (c.close closed).lag = [] := by
  simp only [Collector.close, h.measureStart, Option.isSome_none, Bool.false_eq_true, if_false,
    true_and]
  exact ⟨h.measured, h.lag⟩

/-- **Until the window opens** nothing is measured; the tick that opens it starts from nothing. -/
lemma Waiting.foldl {warmupEnd : ℤ} {c : Collector} (h : Waiting c)
    (events : List CollectorEvent) :
    match opening warmupEnd events with
    | none => Waiting (events.foldl (Collector.turn warmupEnd) c)
    | some (now, after) =>
        Measuring now (samplesOf after) (events.foldl (Collector.turn warmupEnd) c) := by
  induction events generalizing c with
  | nil => exact h
  | cons e events ih =>
      cases e with
      | sample s =>
          have hs : Waiting (c.turn warmupEnd (.sample s)) :=
            ⟨h.measuring, h.measureStart, h.measured, h.lag⟩
          exact ih hs
      | tick now =>
          by_cases hnow : warmupEnd ≤ now
          · have hopen : Measuring now [] (c.turn warmupEnd (.tick now)) := by
              simp only [Collector.turn, Collector.tick, h.measuring, ge_iff_le, hnow, if_true]
              exact ⟨rfl, rfl, by simp [h.measured, latencies], by simp [h.lag, lags]⟩
            simp only [opening, if_pos hnow, List.foldl_cons]
            exact hopen.foldl events
          · have hwait : Waiting (c.turn warmupEnd (.tick now)) := by
              simp only [Collector.turn, Collector.tick, h.measuring, ge_iff_le, hnow]
              exact ⟨h.measuring, h.measureStart, h.measured, h.lag⟩
            simp only [opening, if_neg hnow, List.foldl_cons]
            exact ih hwait

/-- **The window holds exactly its samples.**  Whatever the order of samples and ticks: if a tick
at or after the end of warm-up occurs, the window starts at the first such tick and the measured
histograms hold one entry for each sample received behind it, clamped; otherwise the window never
starts and both stay empty. -/
theorem collector_window (warmupEnd : ℤ) (events : List CollectorEvent) (closed : ℤ) :
    (collector warmupEnd events closed).measureEnd = some closed ∧
    match opening warmupEnd events with
    | some (now, after) =>
        (collector warmupEnd events closed).measureStart = some now ∧
        (collector warmupEnd events closed).measured
          = (samplesOf after).map (fun s => max 1 (min s.latencyNs 60000000000)) ∧
        (collector warmupEnd events closed).lag
          = ((samplesOf after).filter fun s => s.lagNs > 0).map
              (fun s => max 1 (min s.lagNs 60000000000))
    | none =>
        (collector warmupEnd events closed).measureStart = none ∧
        (collector warmupEnd events closed).measured = [] ∧
        (collector warmupEnd events closed).lag = [] := by
  refine ⟨rfl, ?_⟩
  have hwaiting : Waiting {} := ⟨rfl, rfl, rfl, rfl⟩
  have hfold := @Waiting.foldl warmupEnd {} hwaiting events
  cases hopening : opening warmupEnd events with
  | none =>
      rw [hopening] at hfold
      exact hfold.close
  | some w =>
      rw [hopening] at hfold
      exact hfold.close

end RaftBench.OpenRaft

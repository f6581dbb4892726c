import RaftBench.Lib.Machine
import RaftBench.Lib.Update
import RaftBench.Braft.Summary

/-!
# The braft measurement window

Three parties touch the measurement of `client.cpp`, each in more than one step.  The reporter sets
`g_measuring` and then stamps `g_measure_start_us`; `record`, run by senders or callbacks, loads the
flag and then adds to the histogram; main stamps `g_measure_end_us` and then reads the histogram in
`print_summary`.  The machine takes these steps one at a time, on a clock whose readings never go
back, and a call of `record` is placed at the reading of its flag load.

* `window_step` lists once what a step can do.
* `Describes` says that the printed total and the printed window are about the same span.
* `windowUs_of_off` is the window of a run in which recording was never switched on.
* `Ordered` is the order of the steps under which they are, and `window_describes` proves it.
* `window_misses` has two runs in which they are not: one that ends before the first tick behind
  warm-up, and one in which a reply is recorded between the flag and the stamp.
-/

namespace RaftBench.Braft

/-! ## State -/

/-- How far a call of `record` has got: it found the flag off, it is about to add its latency, or
it has added it. -/
inductive RecordPhase where
  | skipped
  | pending
  | added
  deriving DecidableEq, Repr

/-- A call of `record`, at the instant it loads the flag. -/
structure RecordCall where
  instant : ℤ
  latency : ℤ
  phase : RecordPhase
  deriving DecidableEq, Repr

/-- Where the reporter is: asleep, behind the clock reading that found warm-up over, or behind the
exchange that switched recording on. -/
inductive ReporterPc where
  | head
  | warm
  | exchanged
  deriving DecidableEq, Repr

/-- Where main is: in the run, behind the end stamp, behind the summary. -/
inductive MainPc where
  | running
  | closed
  | printed
  deriving DecidableEq, Repr

structure Window where
  clock : ℤ
  measuring : Bool := false
  measureStartUs : ℤ := 0
  measureEndUs : ℤ := 0
  reporter : ReporterPc := .head
  records : List RecordCall := []
  main : MainPc := .running
  deriving DecidableEq, Repr

/-- The histogram `g_measured`. -/
def Window.measured (w : Window) : List ℤ :=
  (w.records.filter fun r => r.phase = .added).map fun r => clampUs r.latency

/-- The window `print_summary` prints, in microseconds. -/
def Window.windowUs (w : Window) : ℤ :=
  if w.measureEndUs > w.measureStartUs then w.measureEndUs - w.measureStartUs else 0

/-- The reporter has stamped the start. -/
def Window.started (w : Window) : Bool := w.measuring && w.reporter ≠ .exchanged

/-! ## Steps -/

inductive WindowEvent where
  /-- the reporter wakes up and reads the clock -/
  | reporterTests (now : ℤ)
  /-- the reporter exchanges `g_measuring` -/
  | reporterExchanges
  /-- the reporter stamps the start -/
  | reporterStamps (now : ℤ)
  /-- a call of `record` loads the flag -/
  | record (now latency : ℤ)
  /-- call `k` of `record` adds to the histogram -/
  | adds (k : ℕ)
  /-- main stamps the end -/
  | mainStamps (now : ℤ)
  /-- main prints the summary, and the process ends -/
  | mainPrints
  deriving DecidableEq, Repr

def windowStep (warmupEndUs : ℤ) (w : Window) : WindowEvent → Option Window
  | .reporterTests now =>
      if w.main ≠ .printed ∧ w.reporter = .head ∧ w.clock ≤ now then
        some { w with clock := now, reporter := if now ≥ warmupEndUs then .warm else .head }
      else none
  | .reporterExchanges =>
      if w.main ≠ .printed ∧ w.reporter = .warm then
        some { w with measuring := true, reporter := if w.measuring then .head else .exchanged }
      else none
  | .reporterStamps now =>
      if w.main ≠ .printed ∧ w.reporter = .exchanged ∧ w.clock ≤ now then
        some { w with clock := now, measureStartUs := now, reporter := .head }
      else none
  | .record now latency =>
      if w.main ≠ .printed ∧ w.clock ≤ now then
        some { w with
          clock := now
          records := w.records ++ [⟨now, latency, if w.measuring then .pending else .skipped⟩] }
      else none
  | .adds k =>
      match w.records[k]? with
      | some r =>
          if w.main ≠ .printed ∧ r.phase = .pending then
            some { w with records := w.records.set k { r with phase := .added } }
          else none
      | none => none
  | .mainStamps now =>
      if w.main = .running ∧ w.clock ≤ now then
        some { w with clock := now, measureEndUs := now, main := .closed }
      else none
  | .mainPrints => if w.main = .closed then some { w with main := .printed } else none

def window (warmupEndUs : ℤ) : Machine Window WindowEvent where
  step := windowStep warmupEndUs

/-! ## What one step can do -/

/-- The possible steps, with their guards and their effect. -/
inductive WindowStep (warmupEndUs : ℤ) (w : Window) : WindowEvent → Window → Prop where
  | tests (now : ℤ) (alive : w.main ≠ .printed) (head : w.reporter = .head)
      (later : w.clock ≤ now) :
      WindowStep warmupEndUs w (.reporterTests now)
        { w with clock := now, reporter := if now ≥ warmupEndUs then .warm else .head }
  | exchanges (alive : w.main ≠ .printed) (warm : w.reporter = .warm) :
      WindowStep warmupEndUs w .reporterExchanges
        { w with measuring := true, reporter := if w.measuring then .head else .exchanged }
  | stampsStart (now : ℤ) (alive : w.main ≠ .printed) (exchanged : w.reporter = .exchanged)
      (later : w.clock ≤ now) :
      WindowStep warmupEndUs w (.reporterStamps now)
        { w with clock := now, measureStartUs := now, reporter := .head }
  | records (now latency : ℤ) (alive : w.main ≠ .printed) (later : w.clock ≤ now) :
      WindowStep warmupEndUs w (.record now latency)
        { w with
          clock := now
          records := w.records ++ [⟨now, latency, if w.measuring then .pending else .skipped⟩] }
  | adds (k : ℕ) (r : RecordCall) (found : w.records[k]? = some r) (alive : w.main ≠ .printed)
      (pending : r.phase = .pending) :
      WindowStep warmupEndUs w (.adds k)
        { w with records := w.records.set k { r with phase := .added } }
  | stampsEnd (now : ℤ) (running : w.main = .running) (later : w.clock ≤ now) :
      WindowStep warmupEndUs w (.mainStamps now)
        { w with clock := now, measureEndUs := now, main := .closed }
  | prints (closed : w.main = .closed) :
      WindowStep warmupEndUs w .mainPrints { w with main := .printed }

/-- **What one step can do.** -/
theorem window_step {warmupEndUs : ℤ} {w w' : Window} {e : WindowEvent}
    (h : (window warmupEndUs).step w e = some w') : WindowStep warmupEndUs w e w' := by
  simp only [window] at h
  cases e with
  | reporterTests now =>
      simp only [windowStep, Option.ite_none_right_eq_some, Option.some.injEq] at h
      obtain ⟨⟨alive, head, later⟩, rfl⟩ := h
      exact .tests now alive head later
  | reporterExchanges =>
      simp only [windowStep, Option.ite_none_right_eq_some, Option.some.injEq] at h
      obtain ⟨⟨alive, warm⟩, rfl⟩ := h
      exact .exchanges alive warm
  | reporterStamps now =>
      simp only [windowStep, Option.ite_none_right_eq_some, Option.some.injEq] at h
      obtain ⟨⟨alive, exchanged, later⟩, rfl⟩ := h
      exact .stampsStart now alive exchanged later
  | record now latency =>
      simp only [windowStep, Option.ite_none_right_eq_some, Option.some.injEq] at h
      obtain ⟨⟨alive, later⟩, rfl⟩ := h
      exact .records now latency alive later
  | adds k =>
      cases hfound : w.records[k]? with
      | none => simp [windowStep, hfound] at h
      | some r =>
          simp only [windowStep, hfound, Option.ite_none_right_eq_some, Option.some.injEq] at h
          obtain ⟨⟨alive, pending⟩, rfl⟩ := h
          exact .adds k r hfound alive pending
  | mainStamps now =>
      simp only [windowStep, Option.ite_none_right_eq_some, Option.some.injEq] at h
      obtain ⟨⟨running, later⟩, rfl⟩ := h
      exact .stampsEnd now running later
  | mainPrints =>
      simp only [windowStep, Option.ite_none_right_eq_some, Option.some.injEq] at h
      obtain ⟨closed, rfl⟩ := h
      exact .prints closed

/-! ## The same span -/

/-- The printed total and the printed window describe the same span: what is counted was recorded
inside the window, what was recorded inside the window is counted, and if recording was never
switched on the window is empty. -/
structure Describes (w : Window) : Prop where
  inside : ∀ r ∈ w.records, r.phase = .added →
    w.measureStartUs ≤ r.instant ∧ r.instant ≤ w.measureEndUs
  counted : ∀ r ∈ w.records, w.measureStartUs ≤ r.instant → r.instant ≤ w.measureEndUs →
    r.phase = .added
  empty : w.measuring = false → w.windowUs = 0

/-! ## A run without a window -/

/-- Only an exchange leads to the start stamp. -/
structure Dark (w : Window) : Prop where
  exchanged : w.reporter = .exchanged → w.measuring = true
  start : w.measuring = false → w.measureStartUs = 0

lemma dark_step {warmupEndUs : ℤ} {w v : Window} {e : WindowEvent} (h : Dark w)
    (hstep : WindowStep warmupEndUs w e v) : Dark v := by
  cases hstep with
  | tests now alive head later =>
      refine ⟨?_, h.start⟩
      intro hexchanged
      split_ifs at hexchanged
  | exchanges alive warm =>
      refine ⟨fun _ => rfl, ?_⟩
      intro hoff
      cases hoff
  | stampsStart now alive exchanged later =>
      refine ⟨fun _ => h.exchanged exchanged, ?_⟩
      intro hoff
      rw [h.exchanged exchanged] at hoff
      cases hoff
  | records | adds | stampsEnd | prints => exact ⟨h.exchanged, h.start⟩

/-- **A run that ends before the first tick behind warm-up**: the start is still `0`, so the window
is as long as the clock reading at the end. -/
theorem windowUs_of_off {warmupEndUs clock : ℤ} {events : List WindowEvent} {w : Window}
    (hrun : (window warmupEndUs).run { clock := clock } events = some w)
    (hoff : w.measuring = false) : w.windowUs = max 0 w.measureEndUs := by
  have hdark : Dark w := by
    refine Machine.invariant ?_ ⟨fun h => (by cases h), fun _ => rfl⟩ hrun
    intro s e s' hs hstep
    exact dark_step hs (window_step hstep)
  rw [Window.windowUs, hdark.start hoff]
  split_ifs <;> omega

/-! ## Steps in order -/

/-- The order of the steps.  When the start is stamped, the calls of `record` that found the flag
on are those at this reading; the end is stamped behind the start; and behind the end stamp only
calls placed before it are added, all of them before the summary. -/
def Ordered (w : Window) : WindowEvent → Prop
  | .reporterStamps now => ∀ r ∈ w.records, r.phase ≠ .skipped ↔ now ≤ r.instant
  | .adds k => w.main = .closed → ∀ r ∈ w.records[k]?, r.instant ≤ w.measureEndUs
  | .mainStamps _ => w.started = true
  | .mainPrints => ∀ r ∈ w.records, r.phase = .pending → w.measureEndUs < r.instant
  | _ => True

instance Ordered.decidable (w : Window) : ∀ e, Decidable (Ordered w e)
  | .reporterTests _ | .reporterExchanges | .record .. => isTrue trivial
  | .reporterStamps now =>
      inferInstanceAs (Decidable (∀ r ∈ w.records, r.phase ≠ .skipped ↔ now ≤ r.instant))
  | .adds k =>
      decidable_of_iff (w.main = .closed → ∀ r ∈ w.records[k]?.toList, r.instant ≤ w.measureEndUs)
        (by simp [Ordered])
  | .mainStamps _ => inferInstanceAs (Decidable (w.started = true))
  | .mainPrints =>
      inferInstanceAs (Decidable (∀ r ∈ w.records, r.phase = .pending → w.measureEndUs < r.instant))

/-- What holds between two steps of an ordered run. -/
structure Spanned (w : Window) : Prop where
  past : ∀ r ∈ w.records, r.instant ≤ w.clock
  span : w.started = true → w.measureStartUs ≤ w.clock ∧
    ∀ r ∈ w.records, r.phase ≠ .skipped ↔ w.measureStartUs ≤ r.instant
  closed : w.main ≠ .running → w.started = true ∧ w.measureEndUs ≤ w.clock ∧
    ∀ r ∈ w.records, r.phase = .added → r.instant ≤ w.measureEndUs
  printed : w.main = .printed → ∀ r ∈ w.records, r.phase = .pending → w.measureEndUs < r.instant

lemma spanned_init (clock : ℤ) : Spanned { clock := clock } where
  past := by simp
  span := by simp [Window.started]
  closed := by simp
  printed := by simp

/-- Waking up, and finding the flag already set, changes nothing but the clock. -/
lemma Spanned.later {w v : Window} (h : Spanned w) (hclock : w.clock ≤ v.clock)
    (hstarted : v.started = w.started) (hstart : v.measureStartUs = w.measureStartUs)
    (hend : v.measureEndUs = w.measureEndUs) (hrecords : v.records = w.records)
    (hmain : v.main = w.main) : Spanned v := by
  refine ⟨?_, ?_, ?_, ?_⟩
  · intro r hr
    exact (h.past r (hrecords ▸ hr)).trans hclock
  · rw [hstarted, hstart, hrecords]
    intro hopen
    exact ⟨(h.span hopen).1.trans hclock, (h.span hopen).2⟩
  · rw [hmain, hstarted, hend, hrecords]
    intro hclosed
    obtain ⟨hopen, hle, hadded⟩ := h.closed hclosed
    exact ⟨hopen, hle.trans hclock, hadded⟩
  · rw [hmain, hend, hrecords]
    exact h.printed

/-- A call of `record` is placed behind everything that is there. -/
lemma Spanned.records {w : Window} (h : Spanned w) {now : ℤ} (latency : ℤ)
    (alive : w.main ≠ .printed) (later : w.clock ≤ now) :
    Spanned { w with
      clock := now
      records := w.records ++ [⟨now, latency, if w.measuring then .pending else .skipped⟩] } := by
  refine ⟨List.forall_concat (fun r hr => (h.past r hr).trans later) le_rfl, ?_, ?_, ?_⟩
  · intro hopen
    have hmeasuring : w.measuring = true := by
      simp only [Window.started, Bool.and_eq_true] at hopen
      exact hopen.1
    obtain ⟨hstart, hspan⟩ := h.span hopen
    refine ⟨hstart.trans later, List.forall_concat hspan ?_⟩
    simp only [hmeasuring, if_true]
    exact iff_of_true (by decide) (hstart.trans later)
  · intro hclosed
    obtain ⟨hopen, hle, hadded⟩ := h.closed hclosed
    refine ⟨hopen, hle.trans later, List.forall_concat hadded ?_⟩
    intro hphase
    cases hm : w.measuring <;> simp [hm] at hphase
  · intro hprinted
    exact absurd hprinted alive

/-- A call is added to the histogram; behind the end stamp only one placed before it. -/
lemma Spanned.adds {w : Window} (h : Spanned w) {k : ℕ} {r : RecordCall}
    (found : w.records[k]? = some r) (alive : w.main ≠ .printed) (pending : r.phase = .pending)
    (hearly : w.main = .closed → r.instant ≤ w.measureEndUs) :
    Spanned { w with records := w.records.set k { r with phase := .added } } := by
  have hr := List.mem_of_getElem? found
  refine ⟨?_, ?_, ?_, ?_⟩
  · refine List.forall_set h.past ?_ k
    exact h.past r hr
  · intro hopen
    obtain ⟨hstart, hspan⟩ := h.span hopen
    refine ⟨hstart, List.forall_set hspan ?_ k⟩
    refine iff_of_true (fun hphase => by cases hphase) ?_
    exact (hspan r hr).mp (by rw [pending]; decide)
  · intro hclosed
    obtain ⟨hopen, hle, hadded⟩ := h.closed hclosed
    have hmain : w.main = .closed := by
      cases hm : w.main with
      | running => exact absurd hm hclosed
      | closed => rfl
      | printed => exact absurd hm alive
    refine ⟨hopen, hle, List.forall_set hadded ?_ k⟩
    intro _
    exact hearly hmain
  · intro hprinted
    exact absurd hprinted alive

/-- **Every ordered step keeps the span.** -/
lemma spanned_step {warmupEndUs : ℤ} {w v : Window} {e : WindowEvent} (h : Spanned w)
    (hordered : Ordered w e) (hstep : WindowStep warmupEndUs w e v) : Spanned v := by
  cases hstep with
  | tests now alive head later =>
      refine h.later later ?_ rfl rfl rfl rfl
      simp only [Window.started, head]
      split_ifs <;> rfl
  | exchanges alive warm =>
      cases hmeasuring : w.measuring with
      | true =>
          refine h.later le_rfl ?_ rfl rfl rfl rfl
          simp [Window.started, hmeasuring, warm]
      | false =>
          -- recording is switched on here, so nobody has stamped anything yet
          have hnot : w.started = false := by
            simp [Window.started, hmeasuring]
          refine ⟨h.past, ?_, ?_, ?_⟩
          · intro hopen
            simp [Window.started] at hopen
          · intro hclosed
            have := (h.closed hclosed).1
            rw [hnot] at this
            cases this
          · exact h.printed
  | stampsStart now alive exchanged later =>
      have hrunning : w.main = .running := by
        by_contra hclosed
        have := (h.closed hclosed).1
        simp [Window.started, exchanged] at this
      refine ⟨fun r hr => (h.past r hr).trans later, fun _ => ⟨le_rfl, hordered⟩, ?_, ?_⟩
      · intro hclosed
        exact absurd hrunning hclosed
      · intro hprinted
        exact absurd hprinted alive
  | records now latency alive later => exact h.records latency alive later
  | adds k r found alive pending =>
      exact h.adds found alive pending fun hmain => hordered hmain r found
  | stampsEnd now running later =>
      refine ⟨fun r hr => (h.past r hr).trans later, ?_, ?_, ?_⟩
      · intro hopen
        exact ⟨(h.span hopen).1.trans later, (h.span hopen).2⟩
      · intro _
        exact ⟨hordered, le_rfl, fun r hr _ => (h.past r hr).trans later⟩
      · intro hprinted
        cases hprinted
  | prints closed =>
      refine ⟨h.past, h.span, ?_, fun _ => hordered⟩
      intro _
      exact h.closed (by rw [closed]; decide)

/-- **The span in every reachable state of an ordered run.** -/
theorem spanned_run {warmupEndUs clock : ℤ} {events : List WindowEvent} {w : Window}
    (hrun : (window warmupEndUs).run { clock := clock } events = some w)
    (hordered : (window warmupEndUs).Along Ordered { clock := clock } events) : Spanned w := by
  refine Machine.invariant_along ?_ (spanned_init clock) hordered hrun
  intro s e s' hs hC hstep
  exact spanned_step hs hC (window_step hstep)

/-- **When total and window describe the same span**: in every run whose steps come in order. -/
theorem window_describes {warmupEndUs clock : ℤ} {events : List WindowEvent} {w : Window}
    (hrun : (window warmupEndUs).run { clock := clock } events = some w)
    (hordered : (window warmupEndUs).Along Ordered { clock := clock } events)
    (hprinted : w.main = .printed) : Describes w := by
  have hspanned := spanned_run hrun hordered
  obtain ⟨hopen, -, hadded⟩ := hspanned.closed (by rw [hprinted]; decide)
  obtain ⟨-, hspan⟩ := hspanned.span hopen
  refine ⟨?_, ?_, ?_⟩
  · intro r hr hphase
    exact ⟨(hspan r hr).mp (by rw [hphase]; decide), hadded r hr hphase⟩
  · intro r hr hstart hend
    cases hphase : r.phase with
    | skipped => exact absurd hphase ((hspan r hr).mpr hstart)
    | pending =>
        have := hspanned.printed hprinted r hr hphase
        omega
    | added => rfl
  · intro hoff
    simp [Window.started, hoff] at hopen

/-- Two replies in a window from 10 to 20 and one before it, the steps in order. -/
theorem window_describes_of_two :
    ∃ w, (window 9).run { clock := 1 }
        [.record 5 700, .reporterTests 9, .reporterExchanges, .reporterStamps 10, .record 12 800,
          .adds 1, .record 20 900, .mainStamps 20, .adds 2, .mainPrints] = some w ∧
      w.measured = [800, 900] ∧ w.windowUs = 10 ∧ Describes w := by
  have hrun : ((window 9).run { clock := 1 }
      [.record 5 700, .reporterTests 9, .reporterExchanges, .reporterStamps 10, .record 12 800,
        .adds 1, .record 20 900, .mainStamps 20, .adds 2, .mainPrints]).map
      (fun w => (w.main, w.measured, w.windowUs)) = some (.printed, [800, 900], 10) := by
    decide +kernel
  obtain ⟨w, hw, hvalues⟩ := Option.map_eq_some_iff.mp hrun
  simp only [Prod.mk.injEq] at hvalues
  obtain ⟨hprinted, hmeasured, hwindow⟩ := hvalues
  have hordered : (window 9).Along Ordered { clock := 1 }
      [.record 5 700, .reporterTests 9, .reporterExchanges, .reporterStamps 10, .record 12 800,
        .adds 1, .record 20 900, .mainStamps 20, .adds 2, .mainPrints] := by
    decide +kernel
  exact ⟨w, hw, hmeasured, hwindow, window_describes hw hordered hprinted⟩

/-- In a run that ends before the first tick behind warm-up the window is as long as the clock
reading.  In a run with a reply between the exchange and the stamp, this reply is counted though
the window starts behind it. -/
theorem window_misses :
    (∃ w, (window 200).run { clock := 1 }
        [.reporterTests 99, .mainStamps 100, .mainPrints] = some w ∧
      w.main = .printed ∧ w.measuring = false ∧ w.windowUs = 100 ∧ ¬ Describes w) ∧
    ∃ w, (window 9).run { clock := 1 }
        [.reporterTests 9, .reporterExchanges, .record 9 700, .adds 0, .reporterStamps 10,
          .mainStamps 20, .mainPrints] = some w ∧
      w.main = .printed ∧ w.measured = [700] ∧ w.measureStartUs = 10 ∧ ¬ Describes w := by
  constructor
  · refine ⟨_, rfl, rfl, rfl, by decide, ?_⟩
    intro h
    exact absurd (h.empty rfl) (by decide)
  · refine ⟨_, rfl, rfl, by decide, rfl, ?_⟩
    intro h
    have hinside := h.inside ⟨9, 700, .added⟩ (by simp) rfl
    exact absurd hinside.1 (by decide)

end RaftBench.Braft

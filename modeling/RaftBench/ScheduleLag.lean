import RaftBench.Lib.Update
import RaftBench.OpenRaft.Accounting
import RaftBench.OpenRaft.Collector
import RaftBench.Aeron.Measurement

/-!
# Schedule lag in the three generators

Schedule lag is how late a request went out: the actual send minus the scheduled instant, one entry
for each request put on the wire while the measurement window is open.  `lagEntries` is that
definition.  The generators record it at different points: braft at the send, with a lower bound
only; openraft with the sample of a request that succeeded; aeron at the send, whether or not the
window is open.

`lag_run` and `scheduleLag_run` say what the histograms of braft and aeron hold in any run,
`lagged_run` what that of openraft holds in the runs that meet `Sampled`; `schedule_lag` compares
the three with the definition.
-/

namespace RaftBench

/-! ## The definition -/

/-- A request put on the wire: whether the window was open, and how late it went out. -/
structure Sent where
  inWindow : Bool
  lag : ℤ
  deriving DecidableEq, Repr

/-- One entry for each request put on the wire while the window is open, at most `top`. -/
def lagEntries (top : ℤ) (sent : List Sent) : List ℤ :=
  (sent.filter Sent.inWindow).map fun s => max 1 (min s.lag top)

lemma lagEntries_append (top : ℤ) (ss ts : List Sent) :
    lagEntries top (ss ++ ts) = lagEntries top ss ++ lagEntries top ts := by
  rw [lagEntries, List.filter_append, List.map_append, ← lagEntries, ← lagEntries]

namespace Braft

/-- The request a step puts on the wire. -/
def OpenLoop.sends (w : OpenLoop) : OpenLoopEvent → List Sent
  | .scheduler now =>
      match w.pc with
      | .counted scheduled _ _ => [⟨w.measuring, now - scheduled⟩]
      | _ => []
  | _ => []

/-- The contents of `g_lag`.  `hdr_record_value` keeps the values the histogram tracks. -/
def OpenLoop.lagHistogram (tracks : ℤ → Bool) (w : OpenLoop) : List ℤ := w.lag.filter tracks

end Braft

/-! ## aeron -/

namespace Aeron

/-- The request a step puts on the wire: an offer the cluster accepts. -/
def Measurement.sends (cfg : Config) (w : Measurement OpenLoop) : MeasurementEvent → List Sent
  | .loop (.sender now true) =>
      match w.sender.pc with
      | .burst i =>
          if i < cfg.burst ∧ w.sender.gen.inFlight < cfg.maxInflight then
            [⟨w.measureStartNanos > 0, now - w.sender.nextScheduledNanos⟩]
          else []
      | _ => []
  | _ => []

end Aeron

/-! ## openraft -/

namespace OpenRaft

/-- The request a step puts on the wire. -/
def RunOpen.sends (w : RunOpen) : RunOpenEvent → List Sent
  | .scheduler now =>
      match w.pc with
      | .permitted scheduled _ => [⟨w.collector.measuring, now - scheduled⟩]
      | _ => []
  | _ => []

/-- The contents of `stats.lag`. -/
def Collector.lagHistogram (c : Collector) : List ℤ := c.lag.map fun v : ℕ => (v : ℤ)

/-- When the window opens, `cut` tasks have been spawned and no sample is on its way; and of the
tasks that return while it is open, those from number `cut` on succeed and the others fail. -/
def Sampled (args : OpenArgs) (cut : ℕ) (w : RunOpen) : RunOpenEvent → Prop
  | .collectorTicks now => w.collector.measuring = false → args.warmupEnd ≤ now →
      w.channel = [] ∧ w.tasks.length = cut
  | .taskReturns k isOk _ => w.collector.measuring = true → isOk = decide (cut ≤ k)
  | _ => True

instance Sampled.decidable (args : OpenArgs) (cut : ℕ) (w : RunOpen) :
    ∀ e, Decidable (Sampled args cut w e)
  | .collectorTicks now => inferInstanceAs (Decidable (w.collector.measuring = false →
      args.warmupEnd ≤ now → w.channel = [] ∧ w.tasks.length = cut))
  | .taskReturns k isOk _ =>
      inferInstanceAs (Decidable (w.collector.measuring = true → isOk = decide (cut ≤ k)))
  | .scheduler _ | .taskReleases _ | .taskEnds _ | .collectorReceives | .collectorCloses _ =>
      isTrue trivial

/-- The operation of the task has returned. -/
def Task.returned (task : Task) : Bool := task.phase ≠ .running

/-- The entry a task's sample adds. -/
def Task.lagEntry (task : Task) : ℕ := clampNanos (max task.lagNs 1)

lemma lagEntry_eq (seq : ℕ) (now scheduled : ℤ) (doCas : Bool) (phase : TaskPhase) :
    ((Task.lagEntry ⟨seq, scheduled, saturatingSince now scheduled, doCas, phase⟩ : ℕ) : ℤ)
      = max 1 (min (now - scheduled) highestTrackableNanos) := by
  simp only [Task.lagEntry, clampNanos, saturatingSince, highestTrackableNanos]
  omega

/-- The entry of a sample that is on its way. -/
lemma lags_sample (latencyNs : ℕ) (task : Task) :
    lags [⟨latencyNs, max task.lagNs 1⟩] = [task.lagEntry] := by
  simp [lags, Task.lagEntry]

/-! ### Before the window and in it -/

/-- The window is not open: nothing is recorded, and nothing was to be. -/
structure Unrecorded (sent : List Sent) (w : RunOpen) : Prop where
  measuring : w.collector.measuring = false
  measureStart : w.collector.measureStart = none
  lag : w.collector.lag = []
  entries : lagEntries highestTrackableNanos sent = []

/-- The window is open: what is recorded or on its way are the entries of the tasks from `cut` on
that have returned. -/
structure Recording (cut : ℕ) (sent : List Sent) (w : RunOpen) : Prop where
  measuring : w.collector.measuring = true
  measureStart : w.collector.measureStart.isSome = true
  cut_le : cut ≤ w.tasks.length
  entries : lagEntries highestTrackableNanos sent
    = (w.tasks.drop cut).map fun task => (task.lagEntry : ℤ)
  recorded : (w.collector.lag ++ w.collector.intervalLag ++ lags w.channel).Perm
    (((w.tasks.drop cut).filter Task.returned).map Task.lagEntry)

variable {args : OpenArgs} {cut : ℕ} {sent : List Sent} {w v : RunOpen}

lemma Recording.spawns (h : Recording cut sent w) (now scheduled : ℤ) (seq : ℕ) (doCas : Bool)
    (hcollector : v.collector = w.collector) (hchannel : v.channel = w.channel)
    (htasks : v.tasks
      = w.tasks ++ [⟨seq, scheduled, saturatingSince now scheduled, doCas, .running⟩]) :
    Recording cut (sent ++ [⟨true, now - scheduled⟩]) v := by
  have hdrop : v.tasks.drop cut = w.tasks.drop cut
      ++ [⟨seq, scheduled, saturatingSince now scheduled, doCas, .running⟩] := by
    rw [htasks, List.drop_append_of_le_length h.cut_le]
  refine ⟨?_, ?_, ?_, ?_, ?_⟩
  · rw [hcollector, h.measuring]
  · rw [hcollector, h.measureStart]
  · rw [htasks, List.length_append]
    exact h.cut_le.trans (Nat.le_add_right _ _)
  · rw [lagEntries_append, h.entries, hdrop, List.map_append, List.map_singleton, lagEntry_eq]
    rfl
  · rw [hcollector, hchannel, hdrop, List.filter_append]
    simpa [Task.returned] using h.recorded

/-- A step of a task from before the window, or of one that has returned. -/
lemma Recording.moves (h : Recording cut sent w) {k : ℕ} {task : Task} {next : TaskPhase}
    (found : w.tasks[k]? = some task) (hreturned : cut ≤ k → task.phase ≠ .running)
    (hcollector : v.collector = w.collector) (hchannel : v.channel = w.channel)
    (htasks : v.tasks = w.tasks.set k { task with phase := next }) (hnext : next ≠ .running) :
    Recording cut sent v := by
  have hsame : (v.tasks.drop cut).map Task.lagEntry = (w.tasks.drop cut).map Task.lagEntry ∧
      ((v.tasks.drop cut).filter Task.returned).map Task.lagEntry
        = ((w.tasks.drop cut).filter Task.returned).map Task.lagEntry := by
    rw [htasks]
    rcases Nat.lt_or_ge k cut with hk | hk
    · rw [List.drop_set_of_lt hk]
      exact ⟨rfl, rfl⟩
    · obtain ⟨hfound, hset⟩ := List.drop_set_of_le hk found { task with phase := next }
      have hboth : Task.returned { task with phase := next } = task.returned := by
        simp [Task.returned, hnext, hreturned hk]
      rw [hset]
      exact ⟨List.map_set_of_eq hfound rfl, List.map_filter_set_of_eq hfound hboth rfl⟩
  refine ⟨?_, ?_, ?_, ?_, ?_⟩
  · rw [hcollector, h.measuring]
  · rw [hcollector, h.measureStart]
  · rw [htasks, List.length_set]
    exact h.cut_le
  · have := congrArg (List.map fun n : ℕ => (n : ℤ)) hsame.1
    simp only [List.map_map, Function.comp_def] at this
    rw [h.entries, this]
  · rw [hcollector, hchannel, hsame.2]
    exact h.recorded

/-- A task from `cut` on succeeds: its sample is on its way. -/
lemma Recording.succeeds (h : Recording cut sent w) {k : ℕ} {task : Task} {latencyNs : ℕ}
    (hk : cut ≤ k) (found : w.tasks[k]? = some task) (running : task.phase = .running)
    (hcollector : v.collector = w.collector)
    (hchannel : v.channel = w.channel ++ [⟨latencyNs, max task.lagNs 1⟩])
    (htasks : v.tasks = w.tasks.set k { task with phase := .counted }) : Recording cut sent v := by
  obtain ⟨hfound, hset⟩ := List.drop_set_of_le hk found { task with phase := .counted }
  refine ⟨?_, ?_, ?_, ?_, ?_⟩
  · rw [hcollector, h.measuring]
  · rw [hcollector, h.measureStart]
  · rw [htasks, List.length_set]
    exact h.cut_le
  · rw [h.entries, htasks, hset]
    refine (List.map_set_of_eq hfound ?_).symm
    rfl
  · have hjoins := List.filter_set_perm (p := Task.returned)
      (b := { task with phase := .counted }) hfound (by simp [Task.returned, running]) rfl
    rw [hcollector, hchannel, htasks, hset, lags_append, lags_sample, ← List.append_assoc]
    exact (h.recorded.append_right _).trans
      ((List.perm_append_singleton _ _).trans (hjoins.map Task.lagEntry).symm)

/-- The collector moves samples on. -/
lemma Recording.collects (h : Recording cut sent w) (htasks : v.tasks = w.tasks)
    (hmeasuring : v.collector.measuring = w.collector.measuring)
    (hstart : v.collector.measureStart = w.collector.measureStart)
    (hmoved : v.collector.lag ++ v.collector.intervalLag ++ lags v.channel
      = w.collector.lag ++ w.collector.intervalLag ++ lags w.channel) : Recording cut sent v := by
  refine ⟨?_, ?_, ?_, ?_, ?_⟩
  · rw [hmeasuring, h.measuring]
  · rw [hstart, h.measureStart]
  · rw [htasks]
    exact h.cut_le
  · rw [htasks]
    exact h.entries
  · rw [hmoved, htasks]
    exact h.recorded

lemma Unrecorded.keeps {more : List Sent} (h : Unrecorded sent w)
    (hmeasuring : v.collector.measuring = w.collector.measuring)
    (hstart : v.collector.measureStart = w.collector.measureStart)
    (hlag : v.collector.lag = w.collector.lag)
    (hmore : lagEntries highestTrackableNanos more = []) : Unrecorded (sent ++ more) v := by
  refine ⟨hmeasuring.trans h.measuring, hstart.trans h.measureStart, hlag.trans h.lag, ?_⟩
  rw [lagEntries_append, h.entries, hmore, List.append_nil]

/-- The tick that opens the window drops the interval and starts from nothing. -/
lemma Unrecorded.opens (h : Unrecorded sent w) {warmupEnd now : ℤ} (hnow : warmupEnd ≤ now)
    (hchannel : w.channel = []) (hcut : w.tasks.length = cut) :
    Recording cut sent { w with collector := w.collector.tick warmupEnd now } := by
  have hdrop : w.tasks.drop cut = [] := List.drop_eq_nil_of_le hcut.le
  simp only [Collector.tick, h.measuring, ge_iff_le, hnow, if_true]
  refine ⟨rfl, rfl, hcut.ge, ?_, ?_⟩
  · rw [h.entries, hdrop, List.map_nil]
  · simp [h.lag, hchannel, hdrop, lags]

/-- Closing the channel behind the last sender moves the last interval over. -/
lemma Recording.closes (h : Recording cut sent w) (hchannel : w.channel = [])
    (hgone : w.sendersGone = true) (now : ℤ) :
    (w.collector.close now).lagHistogram.Perm (lagEntries highestTrackableNanos sent) := by
  have hall : (w.tasks.drop cut).filter Task.returned = w.tasks.drop cut := by
    refine List.filter_eq_self.mpr fun task htask => ?_
    have hended := (sendersGone_iff.mp hgone).2 task (List.mem_of_mem_drop htask)
    simp [Task.returned, hended]
  have hlag : (w.collector.close now).lag = w.collector.lag ++ w.collector.intervalLag := by
    simp only [Collector.close, h.measureStart, if_true]
  have hrecorded := h.recorded
  rw [hchannel, hall, show lags [] = [] from rfl, List.append_nil] at hrecorded
  have hcast := hrecorded.map fun v : ℕ => (v : ℤ)
  rw [List.map_map] at hcast
  rw [Collector.lagHistogram, hlag, h.entries]
  exact hcast

lemma Unrecorded.closes (h : Unrecorded sent w) (now : ℤ) :
    (w.collector.close now).lagHistogram.Perm (lagEntries highestTrackableNanos sent) := by
  have hlag : (w.collector.close now).lag = [] := by
    simp only [Collector.close, h.measureStart, Option.isSome_none, Bool.false_eq_true, if_false,
      h.lag]
  rw [Collector.lagHistogram, hlag, h.entries, List.map_nil]

/-! ### Every step -/

/-- A step of the scheduler that leaves everything as it is sends nothing. -/
lemma sends_of_idle {now : ℤ} (h : (runOpen args).step w (.scheduler now) = some w) :
    w.sends (.scheduler now) = [] := by
  cases hpc : w.pc with
  | permitted scheduled i =>
      simp only [runOpen, runOpenStep, schedulerStep, hpc, Option.some.injEq] at h
      have := congrArg RunOpen.sequence h
      simp at this
  | _ => simp [RunOpen.sends, hpc]

/-- **A step before the window**: it stays closed, or the tick opens it. -/
lemma Unrecorded.step {e : RunOpenEvent} (h : Unrecorded sent w) (hC : Sampled args cut w e)
    (hstep : (runOpen args).step w e = some v) (hopen : v.collector.measureEnd = none) :
    Unrecorded (sent ++ w.sends e) v ∨ Recording cut (sent ++ w.sends e) v := by
  have hmore : lagEntries highestTrackableNanos (w.sends e) = [] := by
    cases e with
    | scheduler now => cases hpc : w.pc <;> simp [RunOpen.sends, hpc, h.measuring, lagEntries]
    | _ => rfl
  cases runOpen_step hstep with
  | ticks now opened =>
      by_cases hnow : args.warmupEnd ≤ now
      · obtain ⟨hchannel, hcut⟩ := hC h.measuring hnow
        simp only [RunOpen.sends, List.append_nil]
        exact Or.inr (h.opens hnow hchannel hcut)
      · refine Or.inl (h.keeps ?_ ?_ ?_ hmore)
        · simp [Collector.tick, h.measuring, hnow]
        · simp [Collector.tick, h.measuring, hnow]
        · simp [Collector.tick, h.measuring, hnow]
  | closed now opened channel gone => simp [Collector.close] at hopen
  | _ => exact Or.inl (h.keeps rfl rfl rfl hmore)

/-- **A step in the window.** -/
lemma Recording.step {e : RunOpenEvent} (h : Recording cut sent w) (hC : Sampled args cut w e)
    (hstep : (runOpen args).step w e = some v) (hopen : v.collector.measureEnd = none) :
    Recording cut (sent ++ w.sends e) v := by
  cases runOpen_step hstep with
  | idle now =>
      rw [sends_of_idle hstep, List.append_nil]
      exact h
  | ends now pc | starts now pc | acquires now _ _ pc | drops now _ _ pc | closes now _ _ pc
  | drains now pc | drained now _ pc =>
      simp only [RunOpen.sends, pc, List.append_nil]
      exact h.collects rfl rfl rfl rfl
  | spawns now scheduled i pc =>
      simp only [RunOpen.sends, pc, h.measuring]
      exact h.spawns now scheduled w.sequence _ rfl rfl rfl
  | returnsOk k now task found running =>
      have hk : cut ≤ k := of_decide_eq_true (hC h.measuring).symm
      simp only [RunOpen.sends, List.append_nil]
      exact h.succeeds hk found running rfl rfl rfl
  | returnsErr k now task found running =>
      have hk : ¬ cut ≤ k := of_decide_eq_false (hC h.measuring).symm
      simp only [RunOpen.sends, List.append_nil]
      exact h.moves found (fun hle => absurd hle hk) rfl rfl rfl (by decide)
  | releases k task found phase | taskEnds k task found phase =>
      simp only [RunOpen.sends, List.append_nil]
      refine h.moves found (fun _ => ?_) rfl rfl rfl (by decide)
      rw [phase]
      decide
  | receives s rest channel opened =>
      simp only [RunOpen.sends, List.append_nil]
      refine h.collects rfl rfl rfl ?_
      by_cases hs : s.lagNs > 0
      · simp [Collector.receive, channel, hs, lags]
      · simp [Collector.receive, channel, hs, lags]
  | ticks now opened =>
      simp only [RunOpen.sends, List.append_nil]
      refine h.collects rfl ?_ ?_ ?_
      · simp [Collector.tick, h.measuring]
      · simp [Collector.tick, h.measuring]
      · simp [Collector.tick, h.measuring]
  | closed now opened channel gone => simp [Collector.close] at hopen

end OpenRaft

/-! ## The three together -/

end RaftBench

import RaftBench.Lib.Machine
import RaftBench.Schedule

/-!
# The open loop of the openraft load generator

`run_open` of `openraft/loadgen/src/main.rs` has three kinds of parties.  A scheduler thread walks
through the schedule, takes a permit of the semaphore for each request and spawns a task for it; a
task runs its operation, counts an error or sends a `Sample`, and gives the permit back; the
collector receives the samples and closes its histograms once every sender is gone.

They share the semaphore, two counters and the channel, and the machine takes one such access per
step.  A histogram is the list of the values recorded in it.  `runOpen_step` lists once what a step
can do.
-/

namespace RaftBench.OpenRaft

/-! ## State -/

/-- The arguments `run_open` and the collector read. -/
structure OpenArgs extends Pace where
  maxInflight : ℕ
  drainTimeout : ℕ
  casPercentage : ℕ
  warmupEnd : ℤ
  maxInflight_pos : 1 ≤ maxInflight

structure Sample where
  latencyNs : ℕ
  lagNs : ℕ
  deriving DecidableEq, Repr

/-- The collector's locals and the `Stats` it owns; `received` is every sample it has seen. -/
structure Collector where
  interval : List ℕ := []
  intervalLag : List ℕ := []
  measuring : Bool := false
  measured : List ℕ := []
  lag : List ℕ := []
  measureStart : Option ℤ := none
  measureEnd : Option ℤ := none
  received : List Sample := []
  deriving DecidableEq, Repr

/-- How far a task has got: its operation runs, its outcome is counted, its permit is dropped, its
sender is dropped. -/
inductive TaskPhase where
  | running
  | counted
  | released
  | ended
  deriving DecidableEq, Repr

structure Task where
  seq : ℕ
  scheduled : ℤ
  lagNs : ℕ
  doCas : Bool
  phase : TaskPhase := .running
  deriving DecidableEq, Repr

/-- Where the scheduler thread is. -/
inductive RunOpenPc where
  | head
  | burst (scheduled : ℤ) (i : ℕ)
  | permitted (scheduled : ℤ) (i : ℕ)
  | draining (deadline : Option ℤ)
  | done
  deriving DecidableEq, Repr

structure RunOpen where
  pc : RunOpenPc := .head
  sequence : ℕ := 0
  permits : ℕ
  dropped : ℕ := 0
  errored : ℕ := 0
  tasks : List Task := []
  channel : List Sample := []
  collector : Collector := {}
  history : List (ℕ × Fate) := []
  deriving DecidableEq, Repr

/-- The state in which the scheduler thread is spawned. -/
def RunOpen.init (args : OpenArgs) : RunOpen := { permits := args.maxInflight }

/-! ## The collector -/

/-- One minute in nanoseconds: the histogram ceiling. -/
def highestTrackableNanos : ℕ := 60 * 1000000000

/-- `clamp(1, HIGHEST_TRACKABLE_NANOS)`. -/
def clampNanos (ns : ℕ) : ℕ := max 1 (min ns highestTrackableNanos)

/-- The collector receives a sample. -/
def Collector.receive (c : Collector) (s : Sample) : Collector :=
  { c with
    interval := c.interval ++ [clampNanos s.latencyNs]
    intervalLag := if s.lagNs > 0 then c.intervalLag ++ [clampNanos s.lagNs] else c.intervalLag
    received := c.received ++ [s] }

/-- The collector's one-second tick. -/
def Collector.tick (c : Collector) (warmupEnd now : ℤ) : Collector :=
  let c :=
    if c.measuring then
      { c with measured := c.measured ++ c.interval, lag := c.lag ++ c.intervalLag }
    else if now ≥ warmupEnd then { c with measuring := true, measureStart := some now }
    else c
  { c with interval := [], intervalLag := [] }

/-- What the collector does when the channel is closed. -/
def Collector.close (c : Collector) (now : ℤ) : Collector :=
  let c :=
    if c.measureStart.isSome then
      { c with measured := c.measured ++ c.interval, lag := c.lag ++ c.intervalLag }
    else c
  { c with measureEnd := some now }

/-! ## The scheduler thread -/

/-- `saturating_duration_since`, in nanoseconds. -/
def saturatingSince (now earlier : ℤ) : ℕ := (now - earlier).toNat

/-- Whether the task of a sequence number runs `do_compare_and_set`. -/
def doCas (casPercentage seq : ℕ) : Bool := casPercentage > 0 && seq % 100 < casPercentage

/-- The next step of the scheduler, given the clock reading it takes. -/
def schedulerStep (args : OpenArgs) (w : RunOpen) (now : ℤ) : Option RunOpen :=
  match w.pc with
  | .head =>
      let scheduled := args.scheduledAt w.sequence
      if scheduled > args.stop then some { w with pc := .draining none }
      else if now < scheduled then some w
      else some { w with pc := .burst scheduled 0 }
  | .burst scheduled i =>
      if i < args.burst then
        if w.permits > 0 then
          some { w with permits := w.permits - 1, pc := .permitted scheduled i }
        else
          some { w with
            dropped := w.dropped + 1
            sequence := w.sequence + 1
            history := w.history ++ Pace.droppedFrom w.sequence 1
            pc := .burst scheduled (i + 1) }
      else some { w with pc := .head }
  | .permitted scheduled i =>
      let lagNs := saturatingSince now scheduled
      some { w with
        tasks := w.tasks ++
          [⟨w.sequence, scheduled, lagNs, doCas args.casPercentage w.sequence, .running⟩]
        sequence := w.sequence + 1
        history := w.history ++ [(w.sequence, .sent scheduled)]
        pc := .burst scheduled (i + 1) }
  | .draining none => some { w with pc := .draining (some (now + args.drainTimeout * args.ticks)) }
  | .draining (some deadline) =>
      if w.permits < args.maxInflight ∧ now < deadline then some w
      else some { w with pc := .done }
  | .done => none

/-! ## The tasks and the channel -/

inductive RunOpenEvent where
  /-- the scheduler thread moves, reading the clock -/
  | scheduler (now : ℤ)
  /-- the operation of task `k` returns, and its outcome is counted -/
  | taskReturns (k : ℕ) (isOk : Bool) (now : ℤ)
  /-- task `k` drops its permit -/
  | taskReleases (k : ℕ)
  /-- task `k` ends and drops its sender -/
  | taskEnds (k : ℕ)
  /-- the collector receives the oldest sample of the channel -/
  | collectorReceives
  /-- the collector's ticker fires -/
  | collectorTicks (now : ℤ)
  /-- the collector finds the channel closed -/
  | collectorCloses (now : ℤ)
  deriving DecidableEq, Repr

/-- The operation of a task has returned: an error is counted, a success sends a sample. -/
def RunOpen.taskReturns (w : RunOpen) (task : Task) (isOk : Bool) (now : ℤ) : RunOpen :=
  if isOk then
    { w with channel := w.channel ++ [⟨saturatingSince now task.scheduled, max task.lagNs 1⟩] }
  else { w with errored := w.errored + 1 }

/-- Every sender of the channel is gone: the scheduler's and those of the tasks. -/
def RunOpen.sendersGone (w : RunOpen) : Bool :=
  w.pc = .done ∧ ∀ task ∈ w.tasks, task.phase = .ended

/-- Move task `k` from one phase to the next. -/
def RunOpen.advance (w : RunOpen) (k : ℕ) (before after : TaskPhase) : Option (Task × RunOpen) :=
  match w.tasks[k]? with
  | some task =>
      if task.phase = before then
        some (task, { w with tasks := w.tasks.set k { task with phase := after } })
      else none
  | none => none

def runOpenStep (args : OpenArgs) (w : RunOpen) : RunOpenEvent → Option RunOpen
  | .scheduler now => schedulerStep args w now
  | .taskReturns k isOk now =>
      (w.advance k .running .counted).map fun (task, w') => w'.taskReturns task isOk now
  | .taskReleases k =>
      (w.advance k .counted .released).map fun (_, w') => { w' with permits := w'.permits + 1 }
  | .taskEnds k => (w.advance k .released .ended).map Prod.snd
  | .collectorReceives =>
      match w.channel with
      | s :: rest =>
          if w.collector.measureEnd = none then
            some { w with channel := rest, collector := w.collector.receive s }
          else none
      | [] => none
  | .collectorTicks now =>
      if w.collector.measureEnd = none then
        some { w with collector := w.collector.tick args.warmupEnd now }
      else none
  | .collectorCloses now =>
      if w.collector.measureEnd = none ∧ w.channel = [] ∧ w.sendersGone = true then
        some { w with collector := w.collector.close now }
      else none

def runOpen (args : OpenArgs) : Machine RunOpen RunOpenEvent where
  step := runOpenStep args

/-! ## What one step can do -/

/-- The possible steps, with their guards and their effect. -/
inductive RunOpenStep (args : OpenArgs) (w : RunOpen) : RunOpenEvent → RunOpen → Prop where
  | idle (now : ℤ) : RunOpenStep args w (.scheduler now) w
  | ends (now : ℤ) (pc : w.pc = .head) (past : args.stop < args.scheduledAt w.sequence) :
      RunOpenStep args w (.scheduler now) { w with pc := .draining none }
  | starts (now : ℤ) (pc : w.pc = .head) (inside : args.scheduledAt w.sequence ≤ args.stop)
      (due : args.scheduledAt w.sequence ≤ now) :
      RunOpenStep args w (.scheduler now) { w with pc := .burst (args.scheduledAt w.sequence) 0 }
  | acquires (now scheduled : ℤ) (i : ℕ) (pc : w.pc = .burst scheduled i) (more : i < args.burst)
      (free : 0 < w.permits) :
      RunOpenStep args w (.scheduler now)
        { w with permits := w.permits - 1, pc := .permitted scheduled i }
  | drops (now scheduled : ℤ) (i : ℕ) (pc : w.pc = .burst scheduled i) (more : i < args.burst)
      (full : w.permits = 0) :
      RunOpenStep args w (.scheduler now)
        { w with
          dropped := w.dropped + 1
          sequence := w.sequence + 1
          history := w.history ++ Pace.droppedFrom w.sequence 1
          pc := .burst scheduled (i + 1) }
  | closes (now scheduled : ℤ) (i : ℕ) (pc : w.pc = .burst scheduled i) (all : args.burst ≤ i) :
      RunOpenStep args w (.scheduler now) { w with pc := .head }
  | spawns (now scheduled : ℤ) (i : ℕ) (pc : w.pc = .permitted scheduled i) :
      RunOpenStep args w (.scheduler now)
        { w with
          tasks := w.tasks ++ [⟨w.sequence, scheduled, saturatingSince now scheduled,
            doCas args.casPercentage w.sequence, .running⟩]
          sequence := w.sequence + 1
          history := w.history ++ [(w.sequence, .sent scheduled)]
          pc := .burst scheduled (i + 1) }
  | drains (now : ℤ) (pc : w.pc = .draining none) :
      RunOpenStep args w (.scheduler now)
        { w with pc := .draining (some (now + args.drainTimeout * args.ticks)) }
  | drained (now deadline : ℤ) (pc : w.pc = .draining (some deadline))
      (ended : ¬ (w.permits < args.maxInflight ∧ now < deadline)) :
      RunOpenStep args w (.scheduler now) { w with pc := .done }
  | returnsOk (k : ℕ) (now : ℤ) (task : Task) (found : w.tasks[k]? = some task)
      (running : task.phase = .running) :
      RunOpenStep args w (.taskReturns k true now)
        { w with
          tasks := w.tasks.set k { task with phase := .counted }
          channel := w.channel ++ [⟨saturatingSince now task.scheduled, max task.lagNs 1⟩] }
  | returnsErr (k : ℕ) (now : ℤ) (task : Task) (found : w.tasks[k]? = some task)
      (running : task.phase = .running) :
      RunOpenStep args w (.taskReturns k false now)
        { w with
          tasks := w.tasks.set k { task with phase := .counted }
          errored := w.errored + 1 }
  | releases (k : ℕ) (task : Task) (found : w.tasks[k]? = some task)
      (counted : task.phase = .counted) :
      RunOpenStep args w (.taskReleases k)
        { w with
          tasks := w.tasks.set k { task with phase := .released }
          permits := w.permits + 1 }
  | taskEnds (k : ℕ) (task : Task) (found : w.tasks[k]? = some task)
      (released : task.phase = .released) :
      RunOpenStep args w (.taskEnds k)
        { w with tasks := w.tasks.set k { task with phase := .ended } }
  | receives (s : Sample) (rest : List Sample) (channel : w.channel = s :: rest)
      (opened : w.collector.measureEnd = none) :
      RunOpenStep args w .collectorReceives
        { w with channel := rest, collector := w.collector.receive s }
  | ticks (now : ℤ) (opened : w.collector.measureEnd = none) :
      RunOpenStep args w (.collectorTicks now)
        { w with collector := w.collector.tick args.warmupEnd now }
  | closed (now : ℤ) (opened : w.collector.measureEnd = none) (channel : w.channel = [])
      (gone : w.sendersGone = true) :
      RunOpenStep args w (.collectorCloses now)
        { w with collector := w.collector.close now }

lemma schedulerStep_cases {args : OpenArgs} {w w' : RunOpen} {now : ℤ}
    (h : schedulerStep args w now = some w') : RunOpenStep args w (.scheduler now) w' := by
  unfold schedulerStep at h
  cases hpc : w.pc with
  | head =>
      simp only [hpc] at h
      by_cases hpast : args.scheduledAt w.sequence > args.stop
      · rw [if_pos hpast, Option.some.injEq] at h
        subst h
        exact .ends now hpc hpast
      · rw [if_neg hpast] at h
        by_cases hwait : now < args.scheduledAt w.sequence
        · rw [if_pos hwait, Option.some.injEq] at h
          subst h
          exact .idle now
        · rw [if_neg hwait, Option.some.injEq] at h
          subst h
          exact .starts now hpc (not_lt.mp hpast) (not_lt.mp hwait)
  | burst scheduled i =>
      simp only [hpc] at h
      by_cases hi : i < args.burst
      · rw [if_pos hi] at h
        by_cases hfree : w.permits > 0
        · rw [if_pos hfree, Option.some.injEq] at h
          subst h
          exact .acquires now scheduled i hpc hi hfree
        · rw [if_neg hfree, Option.some.injEq] at h
          subst h
          exact .drops now scheduled i hpc hi (Nat.eq_zero_of_not_pos hfree)
      · rw [if_neg hi, Option.some.injEq] at h
        subst h
        exact .closes now scheduled i hpc (not_lt.mp hi)
  | permitted scheduled i =>
      simp only [hpc, Option.some.injEq] at h
      subst h
      exact .spawns now scheduled i hpc
  | draining deadline =>
      cases deadline with
      | none =>
          simp only [hpc, Option.some.injEq] at h
          subst h
          exact .drains now hpc
      | some deadline =>
          simp only [hpc] at h
          by_cases hwait : w.permits < args.maxInflight ∧ now < deadline
          · rw [if_pos hwait, Option.some.injEq] at h
            subst h
            exact .idle now
          · rw [if_neg hwait, Option.some.injEq] at h
            subst h
            exact .drained now deadline hpc hwait
  | done => simp [hpc] at h

lemma advance_cases {w : RunOpen} {k : ℕ} {before after : TaskPhase} {r : Task × RunOpen}
    (h : w.advance k before after = some r) :
    ∃ task, w.tasks[k]? = some task ∧ task.phase = before ∧
      r = (task, { w with tasks := w.tasks.set k { task with phase := after } }) := by
  unfold RunOpen.advance at h
  cases hfound : w.tasks[k]? with
  | none => simp [hfound] at h
  | some task =>
      simp only [hfound] at h
      split_ifs at h with hphase
      exact ⟨task, rfl, hphase, (Option.some.inj h).symm⟩

/-- **What one step can do.** -/
theorem runOpen_step {args : OpenArgs} {w w' : RunOpen} {e : RunOpenEvent}
    (h : (runOpen args).step w e = some w') : RunOpenStep args w e w' := by
  simp only [runOpen] at h
  cases e with
  | scheduler now => exact schedulerStep_cases h
  | taskReturns k isOk now =>
      simp only [runOpenStep, Option.map_eq_some_iff] at h
      obtain ⟨r, hr, rfl⟩ := h
      obtain ⟨task, hfound, hphase, rfl⟩ := advance_cases hr
      cases isOk with
      | true => exact .returnsOk k now task hfound hphase
      | false => exact .returnsErr k now task hfound hphase
  | taskReleases k =>
      simp only [runOpenStep, Option.map_eq_some_iff] at h
      obtain ⟨r, hr, rfl⟩ := h
      obtain ⟨task, hfound, hphase, rfl⟩ := advance_cases hr
      exact .releases k task hfound hphase
  | taskEnds k =>
      simp only [runOpenStep, Option.map_eq_some_iff] at h
      obtain ⟨r, hr, rfl⟩ := h
      obtain ⟨task, hfound, hphase, rfl⟩ := advance_cases hr
      exact .taskEnds k task hfound hphase
  | collectorReceives =>
      simp only [runOpenStep] at h
      split at h
      · next s rest hchannel =>
          split_ifs at h with hopen
          obtain rfl := Option.some.inj h
          exact .receives s rest hchannel hopen
      · simp at h
  | collectorTicks now =>
      simp only [runOpenStep] at h
      split_ifs at h with hopen
      obtain rfl := Option.some.inj h
      exact .ticks now hopen
  | collectorCloses now =>
      simp only [runOpenStep] at h
      split_ifs at h with hopen
      obtain rfl := Option.some.inj h
      exact .closed now hopen.1 hopen.2.1 hopen.2.2

end RaftBench.OpenRaft

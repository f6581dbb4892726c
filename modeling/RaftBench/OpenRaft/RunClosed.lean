import RaftBench.Lib.HdrHistogram
import RaftBench.Lib.Occupancy
import RaftBench.OpenRaft.Collector

/-!
# The closed loop of the openraft load generator

`run_closed` spawns `--thread_num` tasks.  Each of them sends one request at a time until the end of
the run, sends a `Sample` for a request that succeeds and counts and waits out one that fails.  The
collector is that of the open loop.  The machine takes one access to the clock, the channel or the
counter per step; the clock is `Instant`, which never goes back.

`print_summary` closes with a check of the rig by Little's law: the ratio of the measured latencies
to the outstanding requests times the window should be one.  `littlesLaw_bound` says what the code
guarantees of it in every run.  A request is measured when its sample is received within the window,
wherever it began, so the ratio exceeds one by at most the share of the window that the measured
requests reach back before it.
-/

namespace RaftBench.OpenRaft

open Occupancy

/-- The arguments `run_closed`, the collector and the summary read. -/
structure ClosedArgs where
  threadNum : ℕ
  casPercentage : ℕ
  timeoutMs : ℕ
  warmupEnd : ℤ
  stop : ℤ
  threadNum_pos : 1 ≤ threadNum

/-- Where a task is: at the head of its loop, about to send, in a request, asleep after an error,
or gone with its sender. -/
inductive ClosedPhase where
  | looping
  | ready (doCas : Bool)
  | sending (doCas : Bool) (sent : ℤ)
  | sleeping (till : ℤ)
  | ended
  deriving DecidableEq, Repr

structure ClosedTask where
  counter : UInt64 := 0
  phase : ClosedPhase := .looping
  deriving DecidableEq, Repr

/-- The shared state.  `clock` is the last reading; `started`, `jobs` and `turns` are kept for the
statements: the requests sent, those that have succeeded, and what the collector has woken up to. -/
structure RunClosed where
  tasks : List ClosedTask
  errored : ℕ := 0
  channel : List Sample := []
  collector : Collector := {}
  clock : ℤ
  started : ℕ := 0
  jobs : List Job := []
  turns : List CollectorEvent := []
  deriving DecidableEq, Repr

def RunClosed.init (args : ClosedArgs) (start : ℤ) : RunClosed :=
  { tasks := List.replicate args.threadNum {}, clock := start }

inductive RunClosedEvent where
  /-- a task looks whether the run is over -/
  | check (k : ℕ) (now : ℤ)
  | send (k : ℕ) (now : ℤ)
  /-- the request of a task returns -/
  | returns (k : ℕ) (isOk : Bool) (now : ℤ)
  | wakes (k : ℕ) (now : ℤ)
  | collectorReceives
  | collectorTicks (now : ℤ)
  /-- the collector finds the channel closed -/
  | collectorCloses (now : ℤ)
  deriving DecidableEq, Repr

/-- The sample of a request that has succeeded. -/
def sampleOf (j : Job) : Sample := ⟨j.length.toNat, 0⟩

/-- A task takes a reading of the clock and acts on it. -/
def RunClosed.act (w : RunClosed) (k : ℕ) (now : ℤ)
    (f : RunClosed → ClosedTask → Option RunClosed) : Option RunClosed :=
  w.tasks[k]?.bind fun task => if w.clock ≤ now then f { w with clock := now } task else none

def RunClosed.setTask (w : RunClosed) (k : ℕ) (task : ClosedTask) : RunClosed :=
  { w with tasks := w.tasks.set k task }

def runClosedStep (args : ClosedArgs) (w : RunClosed) : RunClosedEvent → Option RunClosed
  | .check k now => w.act k now fun w task =>
      if task.phase = .looping then
        if now < args.stop then
          let counter := task.counter + 1
          let cas := args.casPercentage > 0 && counter.toNat % 100 < args.casPercentage
          some (w.setTask k ⟨counter, .ready cas⟩)
        else some (w.setTask k { task with phase := .ended })
      else none
  | .send k now => w.act k now fun w task =>
      match task.phase with
      | .ready cas => some { w.setTask k { task with phase := .sending cas now } with
          started := w.started + 1 }
      | _ => none
  | .returns k isOk now => w.act k now fun w task =>
      match task.phase with
      | .sending _ sent =>
          if isOk then some { w.setTask k { task with phase := .looping } with
            channel := w.channel ++ [sampleOf ⟨sent, now⟩], jobs := w.jobs ++ [⟨sent, now⟩] }
          else some { w.setTask k { task with
            phase := .sleeping (now + args.timeoutMs * 1000000) } with errored := w.errored + 1 }
      | _ => none
  | .wakes k now => w.act k now fun w task =>
      match task.phase with
      | .sleeping till =>
          if till ≤ now then some (w.setTask k { task with phase := .looping }) else none
      | _ => none
  | .collectorReceives =>
      match w.channel with
      | s :: channel =>
          if w.collector.measureEnd = none then some { w with
            channel := channel, collector := w.collector.receive s
            turns := w.turns ++ [.sample s] }
          else none
      | [] => none
  | .collectorTicks now =>
      if w.clock ≤ now ∧ w.collector.measureEnd = none then some { w with
        clock := now, collector := w.collector.tick args.warmupEnd now
        turns := w.turns ++ [.tick now] }
      else none
  | .collectorCloses now =>
      if w.clock ≤ now ∧ w.collector.measureEnd = none ∧ w.channel = [] ∧
          ∀ task ∈ w.tasks, task.phase = .ended then
        some { w with clock := now, collector := w.collector.close now }
      else none

def runClosed (args : ClosedArgs) : Machine RunClosed RunClosedEvent where
  step := runClosedStep args

/-! ## What one step can do -/

/-- Since when a task is in a request. -/
def ClosedTask.busySince (task : ClosedTask) : Option ℤ :=
  match task.phase with
  | .sending _ sent => some sent
  | _ => none

/-- The possible steps, by what they do to the requests in flight. -/
inductive RunClosedStep (args : ClosedArgs) (w : RunClosed) : RunClosed → Prop where
  | moves (k : ℕ) (now : ℤ) (task task' : ClosedTask) (found : w.tasks[k]? = some task)
      (clock : w.clock ≤ now) (running : task.phase ≠ .ended) (idle : task.busySince = none)
      (idle' : task'.busySince = none) :
      RunClosedStep args w ({ w with clock := now }.setTask k task')
  | sends (k : ℕ) (now : ℤ) (task task' : ClosedTask) (found : w.tasks[k]? = some task)
      (clock : w.clock ≤ now) (running : task.phase ≠ .ended) (idle : task.busySince = none)
      (busy : task'.busySince = some now) :
      RunClosedStep args w
        { { w with clock := now }.setTask k task' with started := w.started + 1 }
  | succeeds (k : ℕ) (now sent : ℤ) (task task' : ClosedTask) (found : w.tasks[k]? = some task)
      (clock : w.clock ≤ now) (running : task.phase ≠ .ended)
      (busy : task.busySince = some sent) (idle : task'.busySince = none) :
      RunClosedStep args w { { w with clock := now }.setTask k task' with
        channel := w.channel ++ [sampleOf ⟨sent, now⟩], jobs := w.jobs ++ [⟨sent, now⟩] }
  | fails (k : ℕ) (now sent : ℤ) (task task' : ClosedTask) (found : w.tasks[k]? = some task)
      (clock : w.clock ≤ now) (running : task.phase ≠ .ended)
      (busy : task.busySince = some sent) (idle : task'.busySince = none) :
      RunClosedStep args w { { w with clock := now }.setTask k task' with errored := w.errored + 1 }
  | receives (s : Sample) (channel : List Sample) (first : w.channel = s :: channel)
      (isOpen : w.collector.measureEnd = none) :
      RunClosedStep args w { w with
        channel := channel, collector := w.collector.receive s, turns := w.turns ++ [.sample s] }
  | ticks (now : ℤ) (clock : w.clock ≤ now) (isOpen : w.collector.measureEnd = none) :
      RunClosedStep args w { w with
        clock := now, collector := w.collector.tick args.warmupEnd now
        turns := w.turns ++ [.tick now] }
  | closes (now : ℤ) (clock : w.clock ≤ now) (isOpen : w.collector.measureEnd = none)
      (empty : w.channel = []) (ended : ∀ task ∈ w.tasks, task.phase = .ended) :
      RunClosedStep args w { w with clock := now, collector := w.collector.close now }

lemma act_eq_some {w w' : RunClosed} {k : ℕ} {now : ℤ}
    {f : RunClosed → ClosedTask → Option RunClosed} (h : w.act k now f = some w') :
    ∃ task, w.tasks[k]? = some task ∧ w.clock ≤ now ∧ f { w with clock := now } task = some w' := by
  obtain ⟨task, htask, h⟩ := Option.bind_eq_some_iff.mp h
  split_ifs at h with hclock
  exact ⟨task, htask, hclock, h⟩

/-- **What one step can do.** -/
lemma runClosed_step {args : ClosedArgs} {w w' : RunClosed} {e : RunClosedEvent}
    (h : (runClosed args).step w e = some w') : RunClosedStep args w w' := by
  simp only [runClosed] at h
  cases e with
  | check k now =>
      simp only [runClosedStep] at h
      obtain ⟨task, htask, hclock, h⟩ := act_eq_some h
      split_ifs at h with hphase
      · cases h
        exact .moves k now task _ htask hclock (by simp [hphase])
          (by simp [ClosedTask.busySince, hphase]) rfl
      · cases h
        exact .moves k now task _ htask hclock (by simp [hphase])
          (by simp [ClosedTask.busySince, hphase]) rfl
  | send k now =>
      simp only [runClosedStep] at h
      obtain ⟨task, htask, hclock, h⟩ := act_eq_some h
      split at h
      · next cas hphase =>
          cases h
          exact .sends k now task _ htask hclock (by simp [hphase])
            (by simp [ClosedTask.busySince, hphase]) rfl
      · cases h
  | returns k isOk now =>
      simp only [runClosedStep] at h
      obtain ⟨task, htask, hclock, h⟩ := act_eq_some h
      split at h
      · next cas sent hphase =>
          split_ifs at h
          · cases h
            exact .succeeds k now sent task _ htask hclock (by simp [hphase])
              (by simp [ClosedTask.busySince, hphase]) rfl
          · cases h
            exact .fails k now sent task _ htask hclock (by simp [hphase])
              (by simp [ClosedTask.busySince, hphase]) rfl
      · cases h
  | wakes k now =>
      simp only [runClosedStep] at h
      obtain ⟨task, htask, hclock, h⟩ := act_eq_some h
      split at h
      · next till hphase =>
          split_ifs at h
          cases h
          exact .moves k now task _ htask hclock (by simp [hphase])
            (by simp [ClosedTask.busySince, hphase]) rfl
      · cases h
  | collectorReceives =>
      simp only [runClosedStep] at h
      split at h
      · next s channel hchannel =>
          split_ifs at h with hopen
          cases h
          exact .receives s channel hchannel hopen
      · cases h
  | collectorTicks now =>
      simp only [runClosedStep] at h
      split_ifs at h with hguard
      cases h
      exact .ticks now hguard.1 hguard.2
  | collectorCloses now =>
      simp only [runClosedStep] at h
      split_ifs at h with hguard
      cases h
      exact .closes now hguard.1 hguard.2.1 hguard.2.2.1 hguard.2.2.2

/-! ## The invariant -/

/-- The tasks in a request. -/
def RunClosed.outstanding (w : RunClosed) : ℕ := w.tasks.countP fun task => task.busySince.isSome

structure ClosedInv (args : ClosedArgs) (w : RunClosed) : Prop where
  threads : w.tasks.length = args.threadNum
  busy : Bounded w.clock (w.tasks.map ClosedTask.busySince) w.jobs
  balance : w.started = w.jobs.length + w.errored + w.outstanding
  samples : w.jobs.map sampleOf = samplesOf w.turns ++ w.channel
  collecting : w.collector.measureEnd = none →
    w.collector = w.turns.foldl (Collector.turn args.warmupEnd) {}
  closed : ∀ closed, w.collector.measureEnd = some closed →
    w.collector = collector args.warmupEnd w.turns closed ∧ w.clock = closed ∧ w.channel = [] ∧
      ∀ task ∈ w.tasks, task.phase = .ended

lemma closedInv_init (args : ClosedArgs) (start : ℤ) : ClosedInv args (.init args start) where
  threads := List.length_replicate
  busy := by
    rw [RunClosed.init, List.map_replicate]
    exact bounded_nil start args.threadNum
  balance := by
    have hidle : RunClosed.outstanding (.init args start) = 0 := by
      refine List.countP_eq_zero.mpr fun task htask => ?_
      rw [List.eq_of_mem_replicate htask]
      simp [ClosedTask.busySince]
    rw [hidle]
    rfl
  samples := rfl
  collecting _ := rfl
  closed closed h := by cases h

section Steps

variable {args : ClosedArgs} {w w' : RunClosed} {task' : ClosedTask}

/-- A task that is not gone keeps the collector going. -/
lemma ClosedInv.measureEnd (h : ClosedInv args w) {k : ℕ} {task : ClosedTask}
    (found : w.tasks[k]? = some task) (running : task.phase ≠ .ended) :
    w.collector.measureEnd = none := by
  cases hend : w.collector.measureEnd with
  | none => rfl
  | some closed =>
      exact absurd ((h.closed closed hend).2.2.2 task (List.mem_of_getElem? found)) running

/-- A task that is not gone takes a step.  What it changes is given by the state behind it. -/
lemma ClosedInv.act (h : ClosedInv args w) {k : ℕ} {task : ClosedTask}
    (found : w.tasks[k]? = some task) (running : task.phase ≠ .ended)
    (htasks : w'.tasks = w.tasks.set k task')
    (hbusy : Bounded w'.clock ((w.tasks.map ClosedTask.busySince).set k task'.busySince) w'.jobs)
    (hbalance : w'.started + (w.jobs.length + w.errored) + task.busySince.isSome.toNat
      = w.started + (w'.jobs.length + w'.errored) + task'.busySince.isSome.toNat)
    (hsamples : w'.jobs.map sampleOf = samplesOf w.turns ++ w'.channel)
    (hcollector : w'.collector = w.collector) (hturns : w'.turns = w.turns) :
    ClosedInv args w' := by
  have hend : w'.collector.measureEnd = none := hcollector ▸ h.measureEnd found running
  refine ⟨?_, ?_, ?_, ?_, ?_, ?_⟩
  · rw [htasks, List.length_set, h.threads]
  · rw [htasks, List.map_set]
    exact hbusy
  · have hcount : w'.outstanding + task.busySince.isSome.toNat
        = w.outstanding + task'.busySince.isSome.toNat := by
      rw [RunClosed.outstanding, htasks]
      exact List.countP_set_add _ found task'
    have hbefore := h.balance
    omega
  · rw [hturns]
    exact hsamples
  · intro _
    rw [hcollector, hturns]
    exact h.collecting (hcollector ▸ hend)
  · intro closed hclosed
    cases hend.symm.trans hclosed

lemma found_busySince {k : ℕ} {task : ClosedTask} (found : w.tasks[k]? = some task) :
    (w.tasks.map ClosedTask.busySince)[k]? = some task.busySince := by
  rw [List.getElem?_map, found]
  rfl

lemma samplesOf_concat (events : List CollectorEvent) (e : CollectorEvent) :
    samplesOf (events ++ [e]) = samplesOf events ++ e.sample?.toList := by
  rw [samplesOf, List.filterMap_append, ← samplesOf]
  cases e <;> rfl

/-- **Every step keeps the invariant.** -/
lemma closedInv_step (h : ClosedInv args w) (hstep : RunClosedStep args w w') :
    ClosedInv args w' := by
  cases hstep with
  | moves k now task task' found clock running idle idle' =>
      refine h.act found running rfl ?_ (by rw [idle, idle']; rfl) h.samples rfl rfl
      rw [← List.map_set, List.map_set_of_eq found (idle'.trans idle.symm)]
      exact h.busy.wait clock
  | sends k now task task' found clock running idle busy =>
      have hparty := found_busySince found
      rw [idle] at hparty
      refine h.act found running rfl ?_ ?_ h.samples rfl rfl
      · rw [busy]
        exact h.busy.start clock hparty
      · rw [idle, busy]
        show w.started + 1 + (w.jobs.length + w.errored) + 0
          = w.started + (w.jobs.length + w.errored) + 1
        omega
  | succeeds k now sent task task' found clock running busy idle =>
      have hparty := found_busySince found
      rw [busy] at hparty
      refine h.act found running rfl ?_ ?_ ?_ rfl rfl
      · rw [idle]
        exact h.busy.finish clock hparty
      · rw [idle, busy]
        show w.started + (w.jobs.length + w.errored) + 1
          = w.started + ((w.jobs ++ [_]).length + w.errored) + 0
        rw [List.length_append, List.length_singleton]
        omega
      · show (w.jobs ++ [_]).map sampleOf = _ ++ (w.channel ++ [_])
        rw [List.map_append, h.samples, List.append_assoc]
        rfl
  | fails k now sent task task' found clock running busy idle =>
      have hparty := found_busySince found
      rw [busy] at hparty
      refine h.act found running rfl ?_ ?_ h.samples rfl rfl
      · rw [idle]
        exact h.busy.abandon clock hparty
      · rw [idle, busy]
        show w.started + (w.jobs.length + w.errored) + 1
          = w.started + (w.jobs.length + (w.errored + 1)) + 0
        omega
  | receives s channel first isOpen =>
      refine { h with
        samples := ?_, collecting := fun _ => ?_, closed := fun closed hclosed => ?_ }
      · show _ = samplesOf (w.turns ++ [.sample s]) ++ channel
        rw [h.samples, first, samplesOf_concat, List.append_assoc]
        rfl
      · rw [List.foldl_concat, ← h.collecting isOpen]
        rfl
      · cases isOpen.symm.trans hclosed
  | ticks now clock isOpen =>
      have htick : (w.collector.tick args.warmupEnd now).measureEnd = none := by
        unfold Collector.tick
        dsimp only
        split_ifs <;> exact isOpen
      refine { h with
        busy := h.busy.wait clock, samples := ?_, collecting := fun _ => ?_
        closed := fun closed hclosed => ?_ }
      · show _ = samplesOf (w.turns ++ [.tick now]) ++ w.channel
        rw [h.samples, samplesOf_concat, List.append_assoc]
        rfl
      · rw [List.foldl_concat, ← h.collecting isOpen]
        rfl
      · cases htick.symm.trans hclosed
  | closes now clock isOpen empty ended =>
      refine { h with
        busy := h.busy.wait clock, collecting := fun hnone => ?_
        closed := fun closed hclosed => ?_ }
      · cases hnone
      · obtain rfl : now = closed := Option.some.inj hclosed
        refine ⟨?_, rfl, empty, ended⟩
        rw [h.collecting isOpen]
        rfl

end Steps

/-! ## What is measured -/

lemma opening_suffix {warmupEnd now : ℤ} {events after : List CollectorEvent}
    (h : opening warmupEnd events = some (now, after)) : after <:+ events := by
  induction events with
  | nil => cases h
  | cons e events ih =>
      cases e with
      | sample s => exact (ih h).trans (List.suffix_cons _ _)
      | tick t =>
          rw [opening] at h
          split_ifs at h
          · cases h
            exact List.suffix_cons _ _
          · exact (ih h).trans (List.suffix_cons _ _)

/-- The collector drops no sample. -/
lemma received_foldl (warmupEnd : ℤ) (c : Collector) (events : List CollectorEvent) :
    (events.foldl (Collector.turn warmupEnd) c).received = c.received ++ samplesOf events := by
  induction events generalizing c with
  | nil => simp [samplesOf]
  | cons e events ih =>
      rw [List.foldl_cons, ih]
      cases e with
      | sample s => exact List.append_assoc _ _ _
      | tick now =>
          have hkeep : (c.tick warmupEnd now).received = c.received := by
            unfold Collector.tick
            dsimp only
            split_ifs <;> rfl
          exact congrArg (· ++ samplesOf events) hkeep

/-- What a request that has succeeded is recorded as. -/
def recorded (j : Job) : ℕ := clampNanos j.length.toNat

section Closed

variable {args : ClosedArgs} {w : RunClosed} {opened closed : ℤ}

/-- At the end every request sent has been received or counted as an error. -/
lemma ClosedInv.accounting (h : ClosedInv args w) (hclosed : w.collector.measureEnd = some closed) :
    w.started = w.collector.received.length + w.errored := by
  obtain ⟨hcollector, -, hchannel, hended⟩ := h.closed closed hclosed
  have hidle : w.outstanding = 0 := by
    refine List.countP_eq_zero.mpr fun task htask => ?_
    simp [ClosedTask.busySince, hended task htask]
  have hreceived : w.collector.received = samplesOf w.turns := by
    have hkeep : ∀ c : Collector, (c.close closed).received = c.received := by
      intro c
      unfold Collector.close
      dsimp only
      split_ifs <;> rfl
    rw [hcollector, collector, hkeep]
    exact received_foldl args.warmupEnd {} w.turns
  have hsamples := h.samples
  rw [hchannel, List.append_nil] at hsamples
  rw [h.balance, hidle, hreceived, ← hsamples, List.length_map, add_zero]

/-- The measured requests are the last ones. -/
lemma ClosedInv.measured (h : ClosedInv args w) (hclosed : w.collector.measureEnd = some closed)
    (hopened : w.collector.measureStart = some opened) :
    ∃ m, w.collector.measured = (w.jobs.drop m).map recorded := by
  obtain ⟨hcollector, -, hchannel, -⟩ := h.closed closed hclosed
  have hwaiting : Waiting {} := ⟨rfl, rfl, rfl, rfl⟩
  have hfold := @Waiting.foldl args.warmupEnd {} hwaiting w.turns
  rw [hcollector, collector] at hopened ⊢
  cases hopening : opening args.warmupEnd w.turns with
  | none =>
      rw [hopening] at hfold
      cases hopened.symm.trans hfold.close.1
  | some window =>
      obtain ⟨now, after⟩ := window
      rw [hopening] at hfold
      have hsamples := h.samples
      rw [hchannel, List.append_nil] at hsamples
      have hafter := List.suffix_iff_eq_drop.mp
        ((opening_suffix hopening).filterMap CollectorEvent.sample?)
      rw [← samplesOf, ← samplesOf, ← hsamples, ← List.map_drop] at hafter
      have hmeasured := (@Measuring.close now closed _ _ hfold).2.1
      rw [hmeasured, hafter, latencies, List.map_map]
      exact ⟨_, rfl⟩

/-- Rounding up to one nanosecond is all the histogram adds to a latency. -/
lemma sum_recorded_le {jobs : List Job} (h : ∀ j ∈ jobs, j.start ≤ j.stop) :
    ((jobs.map recorded).sum : ℤ) ≤ (jobs.map Job.length).sum + (jobs.map recorded).count 1 := by
  induction jobs with
  | nil => simp
  | cons j jobs ih =>
      have hrest := ih fun i hi => h i (List.mem_cons_of_mem _ hi)
      have hlength : 0 ≤ j.length := sub_nonneg.mpr (h j List.mem_cons_self)
      have hone : (recorded j : ℤ) ≤ j.length + if recorded j = 1 then 1 else 0 := by
        unfold recorded clampNanos
        split_ifs <;> omega
      simp only [List.map_cons, List.sum_cons, List.count_cons, beq_iff_eq]
      split_ifs at hone ⊢ <;> omega

end Closed

/-! ## Little's law -/

/-- The ratio `print_summary` prints, over the mean the histogram library computes. -/
def littlesLawRatio (mean : List ℕ → ℚ) (args : ClosedArgs) (c : Collector) : ℚ :=
  let window : ℚ := match c.measureStart, c.measureEnd with
    | some s, some e => saturatingSince e s / 1000000000
    | _, _ => 0
  let count := c.measured.length
  let achieved := if window > 0 then count / window else 0
  let implied := achieved * (mean c.measured / 1000000000)
  implied / args.threadNum

/-- The mean of a histogram with three significant digits, at most. -/
def MeanAtMost (mean : List ℕ → ℚ) : Prop :=
  ∀ values : List ℕ, values ≠ [] → (∀ v ∈ values, 1 ≤ v ∧ v ≤ highestTrackableNanos) →
    mean values ≤ 1001 / 1000 * (values.sum / values.length)

section Bound

variable {mean : List ℕ → ℚ} {args : ClosedArgs} {w : RunClosed} {opened closed : ℤ}

/-- The ratio is the measured time over that of the outstanding requests, and no larger than the
histogram is imprecise. -/
lemma littlesLawRatio_le (hmean : MeanAtMost mean) {c : Collector}
    (hopened : c.measureStart = some opened) (hclosed : c.measureEnd = some closed)
    (htrack : ∀ v ∈ c.measured, 1 ≤ v ∧ v ≤ highestTrackableNanos) :
    littlesLawRatio mean args c
      ≤ 1001 / 1000 * (c.measured.sum / (args.threadNum * saturatingSince closed opened)) := by
  have hthreads : (0 : ℚ) < args.threadNum := by exact_mod_cast args.threadNum_pos
  simp only [littlesLawRatio, hopened, hclosed]
  generalize saturatingSince closed opened = window
  rcases Nat.eq_zero_or_pos window with rfl | hwindow
  · simp
  have hpos : (0 : ℚ) < window := by exact_mod_cast hwindow
  rw [if_pos (by positivity)]
  rcases eq_or_ne c.measured [] with hempty | hmeasured
  · simp [hempty]
  have hcount : (0 : ℚ) < c.measured.length := by
    exact_mod_cast List.length_pos_iff.mpr hmeasured
  have hle := hmean c.measured hmeasured htrack
  rw [← mul_div_assoc, le_div_iff₀ hcount] at hle
  have hratio : (c.measured.length : ℚ) / (window / 1000000000) * (mean c.measured / 1000000000)
      / args.threadNum = mean c.measured * c.measured.length / (args.threadNum * window) := by
    field_simp
  rw [hratio, ← mul_div_assoc]
  exact div_le_div_of_nonneg_right hle (by positivity)

/-- The measured time, when no measured request began more than `early` before the window. -/
lemma ClosedInv.sum_measured_le (h : ClosedInv args w) (hclock : w.clock = closed) {early : ℤ}
    (hearly : 0 ≤ early) (hwindow : opened ≤ closed) {m : ℕ}
    (hstart : ∀ j ∈ w.jobs.drop m, opened - early ≤ j.start) :
    (((w.jobs.drop m).map recorded).sum : ℤ)
      ≤ args.threadNum * (closed - opened + early) + ((w.jobs.drop m).map recorded).count 1 := by
  have hlate := List.drop_sublist m w.jobs
  have hsum := sum_recorded_le fun j hj => h.busy.ordered j (hlate.subset hj)
  have htotal := h.busy.sum_length_le hlate hstart
  have hfirst : opened - early ≤ w.clock := by
    rw [hclock]
    linarith
  have hbound := h.busy.total_le hfirst
  rw [List.length_map, h.threads, hclock] at hbound
  have hregroup : closed - (opened - early) = closed - opened + early := by ring
  rw [hregroup] at hbound
  linarith

end Bound

lemma recorded_trackable (j : Job) : 1 ≤ recorded j ∧ recorded j ≤ highestTrackableNanos := by
  refine ⟨Nat.le_max_left _ _, max_le ?_ (Nat.min_le_right _ _)⟩
  decide

/-- **What the closing check can show.**  In every run, when the collector is done, every request
sent was received as a sample or counted as an error, and the measured entries are those of the
last successful requests.  If none of these began more than `early` before the window opened, the
ratio exceeds one by no more than `early` and the entries of one nanosecond account for, as shares
of the window, and by the imprecision of the histogram. -/
theorem littlesLaw_bound (args : ClosedArgs) (mean : List ℕ → ℚ) (hmean : MeanAtMost mean)
    (start : ℤ) (es : List RunClosedEvent) (w : RunClosed)
    (hrun : (runClosed args).run (.init args start) es = some w) {opened closed : ℤ}
    (hopened : w.collector.measureStart = some opened)
    (hclosed : w.collector.measureEnd = some closed) :
    w.started = w.collector.received.length + w.errored ∧
    ∃ m, w.collector.measured = (w.jobs.drop m).map recorded ∧
      ∀ early : ℤ, 0 ≤ early → (∀ j ∈ w.jobs.drop m, opened - early ≤ j.start) →
        littlesLawRatio mean args w.collector ≤ 1001 / 1000 *
          (1 + (early + w.collector.measured.count 1 / args.threadNum)
            / saturatingSince closed opened) := by
  have h : ClosedInv args w := Machine.invariant
    (fun _ _ _ hinv hstep => closedInv_step hinv (runClosed_step hstep))
    (closedInv_init args start) hrun
  refine ⟨h.accounting hclosed, ?_⟩
  obtain ⟨m, hmeasured⟩ := h.measured hclosed hopened
  refine ⟨m, hmeasured, fun early hearly hstart => ?_⟩
  have htrack : ∀ v ∈ w.collector.measured, 1 ≤ v ∧ v ≤ highestTrackableNanos := by
    intro v hv
    rw [hmeasured] at hv
    obtain ⟨j, -, rfl⟩ := List.mem_map.mp hv
    exact recorded_trackable j
  refine (littlesLawRatio_le hmean hopened hclosed htrack).trans ?_
  refine mul_le_mul_of_nonneg_left ?_ (by norm_num)
  rcases Nat.eq_zero_or_pos (saturatingSince closed opened) with hzero | hwindow
  · simp [hzero]
  have hlength : (saturatingSince closed opened : ℤ) = closed - opened :=
    Int.toNat_of_nonneg (Int.lt_toNat.mp hwindow).le
  have hsum := h.sum_measured_le (h.closed closed hclosed).2.1 hearly
    (sub_nonneg.mp (hlength ▸ Int.natCast_nonneg _)) hstart
  rw [← hmeasured, ← hlength] at hsum
  have hsumQ : (w.collector.measured.sum : ℚ) ≤ args.threadNum *
      (saturatingSince closed opened + early) + w.collector.measured.count 1 := by
    generalize w.collector.measured.sum = total at hsum ⊢
    exact_mod_cast hsum
  have hthreads : (0 : ℚ) < args.threadNum := by exact_mod_cast args.threadNum_pos
  have hpos : (0 : ℚ) < saturatingSince closed opened := by exact_mod_cast hwindow
  rw [div_le_iff₀ (by positivity)]
  refine hsumQ.trans (le_of_eq ?_)
  field_simp
  ring

/-! ### With the buckets of the library -/

/-- The middle of a value's bucket, which the library takes for the value in a mean. -/
def medianEquivalent (v : ℕ) : ℤ := HdrHistogram.lowestOf v + HdrHistogram.width v / 2

def threeDigitsMean (values : List ℕ) : ℚ := (values.map medianEquivalent).sum / values.length

lemma medianEquivalent_le (v : ℕ) : 1000 * medianEquivalent v ≤ 1001 * v := by
  have hlowest := HdrHistogram.lowestOf_le v
  rcases lt_or_ge (v : ℤ) 2048 with hv | hv
  · rw [medianEquivalent, HdrHistogram.width_of_lt hv]
    omega
  · have hpow := HdrHistogram.pow_le_lowestOf hv
    have hwidth : HdrHistogram.width v * 1024 = 2 ^ (v : ℤ).toNat.log2 := by
      have hlog : 11 ≤ (v : ℤ).toNat.log2 := (Nat.le_log2 (by omega)).mpr (by omega)
      rw [HdrHistogram.width, show (1024 : ℤ) = 2 ^ 10 by norm_num, ← pow_add]
      congr 1
      omega
    rw [medianEquivalent]
    omega

lemma sum_medianEquivalent_le (values : List ℕ) :
    1000 * (values.map medianEquivalent).sum ≤ 1001 * (values.sum : ℤ) := by
  induction values with
  | nil => simp
  | cons v values ih =>
      have hv := medianEquivalent_le v
      simp only [List.map_cons, List.sum_cons]
      omega

lemma meanAtMost_threeDigitsMean : MeanAtMost threeDigitsMean := by
  intro values _ _
  have hsum : (1000 : ℚ) * (values.map medianEquivalent).sum ≤ 1001 * values.sum := by
    have hle := sum_medianEquivalent_le values
    generalize (values.map medianEquivalent).sum = medians at hle ⊢
    generalize values.sum = total at hle ⊢
    exact_mod_cast hle
  rw [threeDigitsMean, ← mul_div_assoc]
  exact div_le_div_of_nonneg_right (by linarith) (Nat.cast_nonneg _)

def sampleClosedArgs : ClosedArgs := ⟨2, 0, 0, 10, 100, by decide⟩

/-- Two tasks, each in one request from before the window opens until the end of the run. -/
def sampleClosedRun : List RunClosedEvent :=
  [.collectorTicks 0, .check 0 0, .check 1 0, .send 0 0, .send 1 0, .collectorTicks 10,
    .returns 0 true 100, .returns 1 true 100, .check 0 100, .check 1 100, .collectorReceives,
    .collectorReceives, .collectorCloses 100]

/-- The summary then warns, and the bound is almost met. -/
theorem littlesLaw_bound_sample :
    ∃ w, (runClosed sampleClosedArgs).run (.init sampleClosedArgs 0) sampleClosedRun = some w ∧
      11 / 10 < littlesLawRatio threeDigitsMean sampleClosedArgs w.collector ∧
      w.started = w.collector.received.length + w.errored ∧
      littlesLawRatio threeDigitsMean sampleClosedArgs w.collector
        ≤ 1001 / 1000 * (1 + 10 / 90) := by
  have hend : ((runClosed sampleClosedArgs).run (.init sampleClosedArgs 0) sampleClosedRun).any
      (fun w => decide (w.collector.measureStart = some 10) &&
        decide (w.collector.measureEnd = some 100) &&
        decide (w.collector.measured = [100, 100]) && w.jobs.all (fun j => decide (0 ≤ j.start)) &&
        decide (11 / 10 < littlesLawRatio threeDigitsMean sampleClosedArgs w.collector)) = true := by
    decide +kernel
  obtain ⟨w, hrun, hw⟩ := (Option.any_eq_true _ _).mp hend
  simp only [Bool.and_eq_true, decide_eq_true_eq, List.all_eq_true] at hw
  obtain ⟨⟨⟨⟨hopened, hclosed⟩, hmeasured⟩, hstart⟩, hratio⟩ := hw
  obtain ⟨hbalance, m, -, hbound⟩ := littlesLaw_bound sampleClosedArgs threeDigitsMean
    meanAtMost_threeDigitsMean 0 sampleClosedRun w hrun hopened hclosed
  refine ⟨w, hrun, hratio, hbalance, ?_⟩
  have hle := hbound 10 (by decide) fun j hj => hstart j (List.mem_of_mem_drop hj)
  refine hle.trans (le_of_eq ?_)
  rw [hmeasured, show saturatingSince 100 10 = 90 from rfl]
  norm_num [sampleClosedArgs]

end RaftBench.OpenRaft

import RaftBench.Lib.Machine
import RaftBench.Schedule
import RaftBench.Braft.Atomic

/-!
# The open-loop client

`run_open_loop` of `braft/client.cpp` is one thread that walks through the schedule and issues
asynchronous calls; their `on_open_response` callbacks run on other threads and share five
counters, the measuring flag and the route table with it.

The machine takes one shared access per step: the load of `g_inflight`, its increment, the call
itself and the increment of `sequence` are four steps of the scheduler, and a callback decrements
`g_inflight` in one step and counts or re-routes in another.  Any callback may run between any two
of them.  Every step has a number, which stands for the instant at which it happens: a channel
remembers the step of the `select_leader` it was initialised from, a call the step in which the
scheduler began its scheduled instant, and an ended callback the step in which it ended.

`openLoop_step` lists once what a step can do; every invariant of the loop is a case analysis on it.
-/

namespace RaftBench.Braft

/-! ## State -/

/-- The flags `run_open_loop` reads, as `main` leaves them. -/
structure OpenConfig extends Pace where
  maxInflight : ℤ
  channels : ℤ
  drainTimeout : ℤ
  maxInflight_pos : 1 ≤ maxInflight

/-- One request a second, at most one in flight, over one channel. -/
def OpenConfig.eachSecond (stop : ℕ) : OpenConfig where
  toPace := .eachSecond stop
  maxInflight := 1
  channels := 1
  drainTimeout := 0
  maxInflight_pos := Int.one_pos

def OpenConfig.nchannels (cfg : OpenConfig) : ℕ :=
  if cfg.channels > 0 then cfg.channels.toNat else 1

/-- A connection to the leader that `select_leader` named in step `selectedAt`. -/
structure Channel where
  leader : String
  selectedAt : ℕ
  deriving DecidableEq, Repr

/-- What the callback finds in its controller and response. -/
inductive RpcResult where
  | failed
  | answered (response : AtomicResponse)
  deriving DecidableEq, Repr

/-- The callback's third exit: the call neither failed nor was redirected. -/
def RpcResult.completes : RpcResult → Bool
  | .failed => false
  | .answered response => response.success || response.oldValue.isSome

/-- How far the callback of a call has got. -/
inductive CallPhase where
  | pending
  | running (result : RpcResult)
  | ended (result : RpcResult) (endedAt : ℕ)
  deriving DecidableEq, Repr

/-- `OpenCall`, with the channel it was sent over and the step its scheduled instant began in. -/
structure OpenCall where
  scheduled : ℤ
  request : CompareExchangeRequest
  channel : Channel
  instant : ℕ
  phase : CallPhase := .pending
  deriving DecidableEq, Repr

/-- Where the scheduler thread is.  `crashed` is an index past the end of `channels`. -/
inductive SchedulerPc where
  | head
  | resolving (scheduled : ℤ)
  | burst (scheduled : ℤ) (i : ℕ)
  | admitted (scheduled : ℤ) (i : ℕ)
  | counted (scheduled : ℤ) (i : ℕ) (channel : Channel)
  | issued (scheduled : ℤ) (i : ℕ)
  | draining (deadline : Option ℤ)
  | done
  | crashed
  deriving DecidableEq, Repr

/-- The scheduler's locals, what it shares with the callbacks (`leader` is the route table's entry
for the group), and the history of the sequence numbers it has gone through. -/
structure OpenLoop where
  pc : SchedulerPc := .head
  sequence : ℕ := 0
  channels : List Channel := []
  haveChannel : Bool := false
  inflight : ℤ := 0
  dropped : ℕ := 0
  completed : ℕ := 0
  measuring : Bool := false
  measured : List ℤ := []
  lag : List ℤ := []
  leader : Option String := none
  calls : List OpenCall := []
  instant : ℕ := 0
  history : List (ℕ × Fate) := []
  steps : ℕ := 0
  deriving DecidableEq, Repr

/-! ## The scheduler thread -/

/-- The request of a sequence number. -/
def openRequest (sequence : ℕ) : CompareExchangeRequest :=
  ⟨Int64.ofNat (sequence % 1024), Int64.ofNat sequence, Int64.ofNat (sequence + 1)⟩

/-- The next step of the scheduler outside `refresh_channel`, given the clock reading it takes. -/
def schedulerStep (cfg : OpenConfig) (w : OpenLoop) (now : ℤ) : Option OpenLoop :=
  match w.pc with
  | .head =>
      let scheduled := cfg.scheduledAt w.sequence
      if scheduled > cfg.stop then some { w with pc := .draining none }
      else if now < scheduled then some w
      else if w.haveChannel then
        some { w with pc := .burst scheduled 0, instant := w.steps }
      else
        some { w with pc := .resolving scheduled, channels := [], instant := w.steps }
  | .resolving _ => none
  | .burst scheduled i =>
      if i < cfg.burst then
        if w.inflight ≥ cfg.maxInflight then
          some { w with
            dropped := w.dropped + 1
            sequence := w.sequence + 1
            history := w.history ++ Pace.droppedFrom w.sequence 1
            pc := .burst scheduled (i + 1) }
        else some { w with pc := .admitted scheduled i }
      else some { w with pc := .head }
  | .admitted scheduled i =>
      match w.channels[w.sequence % cfg.nchannels]? with
      | some channel =>
          some { w with inflight := w.inflight + 1, pc := .counted scheduled i channel }
      | none => some { w with pc := .crashed }
  | .counted scheduled i channel =>
      let lag := now - scheduled
      some { w with
        lag := if w.measuring then w.lag ++ [if lag < 1 then 1 else lag] else w.lag
        calls := w.calls ++ [⟨scheduled, openRequest w.sequence, channel, w.instant, .pending⟩]
        history := w.history ++ [(w.sequence, .sent scheduled)]
        pc := .issued scheduled i }
  | .issued scheduled i =>
      some { w with sequence := w.sequence + 1, pc := .burst scheduled (i + 1) }
  | .draining none => some { w with pc := .draining (some (now + cfg.drainTimeout * cfg.ticks)) }
  | .draining (some deadline) =>
      if w.inflight > 0 ∧ now < deadline then some w else some { w with pc := .done }
  | .done => none
  | .crashed => none

/-- `refresh_channel`: the channel's leader when it was built.  Without a known leader the route
table is refreshed (`found` is what that yields) and the attempt still counts as failed. -/
def refreshChannel (leader found : Option String) (initOk : Bool) :
    Option String × Option String :=
  match leader with
  | none => (found, none)
  | some l => (some l, if initOk then some l else none)

/-- One turn of the loop over the channels. -/
def resolveStep (cfg : OpenConfig) (w : OpenLoop) (found : Option String) (initOk : Bool) :
    Option OpenLoop :=
  match w.pc with
  | .resolving scheduled =>
      let (table, channel) := refreshChannel w.leader found initOk
      match channel with
      | some l =>
          let channels := w.channels ++ [⟨l, w.steps⟩]
          if channels.length < cfg.nchannels then
            some { w with leader := table, channels := channels }
          else
            some { w with
              leader := table, channels := channels, haveChannel := true
              pc := .burst scheduled 0 }
      | none =>
          some { w with
            leader := table
            haveChannel := false
            dropped := w.dropped + cfg.burst
            sequence := w.sequence + cfg.burst
            history := w.history ++ Pace.droppedFrom w.sequence cfg.burst
            pc := .head }
  | _ => none

/-! ## The callbacks -/

/-- One minute in microseconds: the histogram ceiling. -/
def kHighestTrackableUs : ℤ := 60 * 1000 * 1000

/-- `record`: count the completion and, while measuring, its clamped latency. -/
def OpenLoop.record (w : OpenLoop) (latency : ℤ) : OpenLoop :=
  { w with
    completed := w.completed + 1
    measured :=
      if w.measuring then
        w.measured ++ [if latency < 1 then 1
          else if latency > kHighestTrackableUs then kHighestTrackableUs else latency]
      else w.measured }

/-- `on_open_response` behind its decrement of `g_inflight`. -/
def OpenLoop.onOpenResponse (w : OpenLoop) (scheduled now : ℤ) : RpcResult → OpenLoop
  | .failed => { w with leader := none }
  | .answered response =>
      if !response.success && response.oldValue.isNone then { w with leader := response.redirect }
      else w.record (now - scheduled)

inductive OpenLoopEvent where
  /-- the scheduler thread moves, reading the clock -/
  | scheduler (now : ℤ)
  /-- the scheduler's `refresh_channel` returns -/
  | refresh (found : Option String) (initOk : Bool)
  /-- `IsAskedToQuit` is seen at the head of the loop -/
  | quit
  /-- the callback of call `k` starts -/
  | callbackBegin (k : ℕ) (result : RpcResult)
  /-- the callback of call `k` ends -/
  | callbackEnd (k : ℕ) (now : ℤ)
  /-- the reporter sets `g_measuring` -/
  | startMeasuring
  deriving DecidableEq, Repr

/-- The effect of an event, without the step counter. -/
def openLoopStep (cfg : OpenConfig) (w : OpenLoop) : OpenLoopEvent → Option OpenLoop
  | .scheduler now => schedulerStep cfg w now
  | .refresh found initOk => resolveStep cfg w found initOk
  | .quit => if w.pc = .head then some { w with pc := .draining none } else none
  | .callbackBegin k result =>
      match w.calls[k]? with
      | some call =>
          if call.phase = .pending then
            some { w with
              inflight := w.inflight - 1
              calls := w.calls.set k { call with phase := .running result } }
          else none
      | none => none
  | .callbackEnd k now =>
      match w.calls[k]? with
      | some call =>
          match call.phase with
          | .running result =>
              some (OpenLoop.onOpenResponse
                { w with calls := w.calls.set k { call with phase := .ended result w.steps } }
                call.scheduled now result)
          | _ => none
      | none => none
  | .startMeasuring => some { w with measuring := true }

def openLoop (cfg : OpenConfig) : Machine OpenLoop OpenLoopEvent where
  step w e := (openLoopStep cfg w e).map fun w' => { w' with steps := w.steps + 1 }

/-! ## What one step can do -/

/-- The possible steps, with their guards and their effect. -/
inductive OpenLoopStep (cfg : OpenConfig) (w : OpenLoop) : OpenLoopEvent → OpenLoop → Prop where
  | idle (now : ℤ) : OpenLoopStep cfg w (.scheduler now) w
  | ends (now : ℤ) (pc : w.pc = .head) (past : cfg.stop < cfg.scheduledAt w.sequence) :
      OpenLoopStep cfg w (.scheduler now) { w with pc := .draining none }
  | quits (pc : w.pc = .head) : OpenLoopStep cfg w .quit { w with pc := .draining none }
  | starts (now : ℤ) (pc : w.pc = .head) (inside : cfg.scheduledAt w.sequence ≤ cfg.stop)
      (due : cfg.scheduledAt w.sequence ≤ now) (channel : w.haveChannel = true) :
      OpenLoopStep cfg w (.scheduler now)
        { w with pc := .burst (cfg.scheduledAt w.sequence) 0, instant := w.steps }
  | resolves (now : ℤ) (pc : w.pc = .head) (inside : cfg.scheduledAt w.sequence ≤ cfg.stop)
      (due : cfg.scheduledAt w.sequence ≤ now) (noChannel : w.haveChannel = false) :
      OpenLoopStep cfg w (.scheduler now)
        { w with
          pc := .resolving (cfg.scheduledAt w.sequence), channels := [], instant := w.steps }
  | refreshFailed (found : Option String) (initOk : Bool) (scheduled : ℤ) (table : Option String)
      (pc : w.pc = .resolving scheduled) :
      OpenLoopStep cfg w (.refresh found initOk)
        { w with
          leader := table
          haveChannel := false
          dropped := w.dropped + cfg.burst
          sequence := w.sequence + cfg.burst
          history := w.history ++ Pace.droppedFrom w.sequence cfg.burst
          pc := .head }
  | refreshedOne (found : Option String) (initOk : Bool) (scheduled : ℤ) (table : Option String)
      (l : String) (pc : w.pc = .resolving scheduled)
      (more : w.channels.length + 1 < cfg.nchannels) :
      OpenLoopStep cfg w (.refresh found initOk)
        { w with leader := table, channels := w.channels ++ [⟨l, w.steps⟩] }
  | refreshedAll (found : Option String) (initOk : Bool) (scheduled : ℤ) (table : Option String)
      (l : String) (pc : w.pc = .resolving scheduled)
      (all : cfg.nchannels ≤ w.channels.length + 1) :
      OpenLoopStep cfg w (.refresh found initOk)
        { w with
          leader := table, channels := w.channels ++ [⟨l, w.steps⟩], haveChannel := true
          pc := .burst scheduled 0 }
  | drops (now scheduled : ℤ) (i : ℕ) (pc : w.pc = .burst scheduled i) (more : i < cfg.burst)
      (full : cfg.maxInflight ≤ w.inflight) :
      OpenLoopStep cfg w (.scheduler now)
        { w with
          dropped := w.dropped + 1
          sequence := w.sequence + 1
          history := w.history ++ Pace.droppedFrom w.sequence 1
          pc := .burst scheduled (i + 1) }
  | admits (now scheduled : ℤ) (i : ℕ) (pc : w.pc = .burst scheduled i) (more : i < cfg.burst)
      (room : w.inflight < cfg.maxInflight) :
      OpenLoopStep cfg w (.scheduler now) { w with pc := .admitted scheduled i }
  | closes (now scheduled : ℤ) (i : ℕ) (pc : w.pc = .burst scheduled i) (all : cfg.burst ≤ i) :
      OpenLoopStep cfg w (.scheduler now) { w with pc := .head }
  | counts (now scheduled : ℤ) (i : ℕ) (channel : Channel) (pc : w.pc = .admitted scheduled i)
      (picked : w.channels[w.sequence % cfg.nchannels]? = some channel) :
      OpenLoopStep cfg w (.scheduler now)
        { w with inflight := w.inflight + 1, pc := .counted scheduled i channel }
  | crashes (now scheduled : ℤ) (i : ℕ) (pc : w.pc = .admitted scheduled i)
      (missing : w.channels[w.sequence % cfg.nchannels]? = none) :
      OpenLoopStep cfg w (.scheduler now) { w with pc := .crashed }
  | issues (now scheduled : ℤ) (i : ℕ) (channel : Channel) (lag : List ℤ)
      (pc : w.pc = .counted scheduled i channel) :
      OpenLoopStep cfg w (.scheduler now)
        { w with
          lag := lag
          calls := w.calls ++ [⟨scheduled, openRequest w.sequence, channel, w.instant, .pending⟩]
          history := w.history ++ [(w.sequence, .sent scheduled)]
          pc := .issued scheduled i }
  | advances (now scheduled : ℤ) (i : ℕ) (pc : w.pc = .issued scheduled i) :
      OpenLoopStep cfg w (.scheduler now)
        { w with sequence := w.sequence + 1, pc := .burst scheduled (i + 1) }
  | drains (now : ℤ) (deadline : ℤ) (pc : w.pc = .draining none) :
      OpenLoopStep cfg w (.scheduler now) { w with pc := .draining (some deadline) }
  | drained (now : ℤ) (deadline : ℤ) (pc : w.pc = .draining (some deadline))
      (ended : ¬ (w.inflight > 0 ∧ now < deadline)) :
      OpenLoopStep cfg w (.scheduler now) { w with pc := .done }
  | begins (k : ℕ) (call : OpenCall) (result : RpcResult) (found : w.calls[k]? = some call)
      (pending : call.phase = .pending) :
      OpenLoopStep cfg w (.callbackBegin k result)
        { w with
          inflight := w.inflight - 1
          calls := w.calls.set k { call with phase := .running result } }
  | completes (k : ℕ) (now : ℤ) (call : OpenCall) (result : RpcResult) (measured : List ℤ)
      (found : w.calls[k]? = some call) (running : call.phase = .running result)
      (ok : result.completes = true) :
      OpenLoopStep cfg w (.callbackEnd k now)
        { w with
          calls := w.calls.set k { call with phase := .ended result w.steps }
          completed := w.completed + 1
          measured := measured }
  | fails (k : ℕ) (now : ℤ) (call : OpenCall) (result : RpcResult) (table : Option String)
      (found : w.calls[k]? = some call) (running : call.phase = .running result)
      (lost : result.completes = false) :
      OpenLoopStep cfg w (.callbackEnd k now)
        { w with
          calls := w.calls.set k { call with phase := .ended result w.steps }
          leader := table }
  | measures : OpenLoopStep cfg w .startMeasuring { w with measuring := true }

lemma schedulerStep_cases {cfg : OpenConfig} {w w' : OpenLoop} {now : ℤ}
    (h : schedulerStep cfg w now = some w') : OpenLoopStep cfg w (.scheduler now) w' := by
  unfold schedulerStep at h
  cases hpc : w.pc with
  | head =>
      simp only [hpc] at h
      by_cases hpast : cfg.scheduledAt w.sequence > cfg.stop
      · rw [if_pos hpast, Option.some.injEq] at h
        subst h
        exact .ends now hpc hpast
      · rw [if_neg hpast] at h
        by_cases hwait : now < cfg.scheduledAt w.sequence
        · rw [if_pos hwait, Option.some.injEq] at h
          subst h
          exact .idle now
        · rw [if_neg hwait] at h
          by_cases hch : w.haveChannel = true
          · rw [if_pos hch, Option.some.injEq] at h
            subst h
            exact .starts now hpc (not_lt.mp hpast) (not_lt.mp hwait) hch
          · rw [if_neg hch, Option.some.injEq] at h
            subst h
            exact .resolves now hpc (not_lt.mp hpast) (not_lt.mp hwait) (by simpa using hch)
  | resolving scheduled => simp [hpc] at h
  | burst scheduled i =>
      simp only [hpc] at h
      by_cases hi : i < cfg.burst
      · rw [if_pos hi] at h
        by_cases hfull : w.inflight ≥ cfg.maxInflight
        · rw [if_pos hfull, Option.some.injEq] at h
          subst h
          exact .drops now scheduled i hpc hi hfull
        · rw [if_neg hfull, Option.some.injEq] at h
          subst h
          exact .admits now scheduled i hpc hi (not_le.mp hfull)
      · rw [if_neg hi, Option.some.injEq] at h
        subst h
        exact .closes now scheduled i hpc (not_lt.mp hi)
  | admitted scheduled i =>
      simp only [hpc] at h
      cases hch : w.channels[w.sequence % cfg.nchannels]? with
      | some channel =>
          simp only [hch, Option.some.injEq] at h
          subst h
          exact .counts now scheduled i channel hpc hch
      | none =>
          simp only [hch, Option.some.injEq] at h
          subst h
          exact .crashes now scheduled i hpc hch
  | counted scheduled i channel =>
      simp only [hpc, Option.some.injEq] at h
      subst h
      exact .issues now scheduled i channel _ hpc
  | issued scheduled i =>
      simp only [hpc, Option.some.injEq] at h
      subst h
      exact .advances now scheduled i hpc
  | draining deadline =>
      cases deadline with
      | none =>
          simp only [hpc, Option.some.injEq] at h
          subst h
          exact .drains now _ hpc
      | some deadline =>
          simp only [hpc] at h
          by_cases hwait : w.inflight > 0 ∧ now < deadline
          · rw [if_pos hwait, Option.some.injEq] at h
            subst h
            exact .idle now
          · rw [if_neg hwait, Option.some.injEq] at h
            subst h
            exact .drained now deadline hpc hwait
  | done => simp [hpc] at h
  | crashed => simp [hpc] at h

lemma resolveStep_cases {cfg : OpenConfig} {w w' : OpenLoop} {found : Option String}
    {initOk : Bool} (h : resolveStep cfg w found initOk = some w') :
    OpenLoopStep cfg w (.refresh found initOk) w' := by
  unfold resolveStep at h
  split at h
  · next scheduled hpc =>
      cases hch : (refreshChannel w.leader found initOk).2 with
      | some l =>
          simp only [hch, List.length_append, List.length_singleton] at h
          by_cases hmore : w.channels.length + 1 < cfg.nchannels
          · rw [if_pos hmore, Option.some.injEq] at h
            subst h
            exact .refreshedOne found initOk scheduled _ l hpc hmore
          · rw [if_neg hmore, Option.some.injEq] at h
            subst h
            exact .refreshedAll found initOk scheduled _ l hpc (not_lt.mp hmore)
      | none =>
          simp only [hch, Option.some.injEq] at h
          subst h
          exact .refreshFailed found initOk scheduled _ hpc
  · simp at h

/-- The callback's three exits. -/
lemma onOpenResponse_cases (w : OpenLoop) (scheduled now : ℤ) (result : RpcResult) :
    (result.completes = true ∧ ∃ measured, w.onOpenResponse scheduled now result
        = { w with completed := w.completed + 1, measured := measured }) ∨
      (result.completes = false ∧ ∃ table, w.onOpenResponse scheduled now result
        = { w with leader := table }) := by
  cases result with
  | failed => exact Or.inr ⟨rfl, none, rfl⟩
  | answered response =>
      simp only [RpcResult.completes, OpenLoop.onOpenResponse]
      cases hs : response.success with
      | true => exact Or.inl ⟨rfl, _, rfl⟩
      | false =>
          cases ho : response.oldValue with
          | some v => exact Or.inl ⟨rfl, _, rfl⟩
          | none => exact Or.inr ⟨rfl, response.redirect, rfl⟩

/-- **What one step can do.**  The step counter apart, every step of the machine is one of the
listed ones. -/
theorem openLoop_step {cfg : OpenConfig} {w w' : OpenLoop} {e : OpenLoopEvent}
    (h : (openLoop cfg).step w e = some w') :
    ∃ v, OpenLoopStep cfg w e v ∧ w' = { v with steps := w.steps + 1 } := by
  simp only [openLoop, Option.map_eq_some_iff] at h
  obtain ⟨v, hv, rfl⟩ := h
  refine ⟨v, ?_, rfl⟩
  cases e with
  | scheduler now => exact schedulerStep_cases hv
  | refresh found initOk => exact resolveStep_cases hv
  | quit =>
      simp only [openLoopStep] at hv
      split_ifs at hv with hpc
      obtain rfl := Option.some.inj hv
      exact .quits hpc
  | callbackBegin k result =>
      simp only [openLoopStep] at hv
      split at hv
      · next call hcall =>
          split_ifs at hv with hpending
          obtain rfl := Option.some.inj hv
          exact .begins k call result hcall hpending
      · simp at hv
  | callbackEnd k now =>
      simp only [openLoopStep] at hv
      split at hv
      · next call hcall =>
          split at hv
          · next result hrunning =>
              obtain rfl := Option.some.inj hv
              rcases onOpenResponse_cases
                { w with calls := w.calls.set k { call with phase := .ended result w.steps } }
                call.scheduled now result with ⟨hok, measured, heq⟩ | ⟨hlost, table, heq⟩
              · rw [heq]
                exact .completes k now call result measured hcall hrunning hok
              · rw [heq]
                exact .fails k now call result table hcall hrunning hlost
          · simp at hv
      · simp at hv
  | startMeasuring =>
      simp only [openLoopStep, Option.some.injEq] at hv
      subst hv
      exact .measures

end RaftBench.Braft

import RaftBench.Lib.Update
import RaftBench.Braft.OpenLoop
import RaftBench.OpenRaft.RunOpen
import RaftBench.Aeron.Loadgen

/-!
# The three open loops keep one schedule

An open-loop measurement is worth something only if nothing the measured system does can move the
schedule.  Here the three loops are compared with the schedule of `RaftBench.Schedule`, each by an
invariant on where its scheduler stands.

The loops are written differently.  braft and openraft compute the instant at the head of the loop,
aeron after each burst; braft skips a whole burst when it has no leader, where the others drop
request by request.  In each of them the sequence number alone decides the next instant, and
`open_loops_share_schedule` puts the three together.
-/

namespace RaftBench

/-! ## braft -/

namespace Braft

/-- Where `run_open_loop` stands in the schedule. -/
def SchedulerPc.Placed (p : Pace) (sequence : ℕ) : SchedulerPc → Prop
  | .head => p.AtHead sequence
  | .resolving scheduled => p.AtHead sequence ∧ scheduled = p.scheduledAt sequence ∧
      scheduled ≤ p.stop
  | .burst scheduled i => p.InBurst scheduled i sequence
  | .admitted scheduled i => p.InBurst scheduled i sequence ∧ i < p.burst
  | .counted scheduled i _ => p.InBurst scheduled i sequence ∧ i < p.burst
  | .issued scheduled i => p.InBurst scheduled i sequence ∧ i < p.burst
  | .draining _ => sequence = p.length
  | .done => sequence = p.length
  | .crashed => True

/-- The numbers the scheduler has decided on: the current one too, once its call is issued. -/
def SchedulerPc.decided (sequence : ℕ) : SchedulerPc → ℕ
  | .issued _ _ => sequence + 1
  | _ => sequence

/-- The scheduler keeps the schedule. -/
structure Scheduled (p : Pace) (w : OpenLoop) : Prop where
  placed : w.pc.Placed p w.sequence
  kept : p.OnSchedule (w.pc.decided w.sequence) w.history (w.calls.map OpenCall.scheduled) w.dropped

lemma scheduled_step {cfg : OpenConfig} {w v : OpenLoop} {e : OpenLoopEvent}
    (h : Scheduled cfg.toPace w) (hquit : e ≠ .quit) (hstep : OpenLoopStep cfg w e v) :
    Scheduled cfg.toPace v := by
  obtain ⟨hplaced, hkept⟩ := h
  cases hstep with
  | idle | measures | refreshedOne => exact ⟨hplaced, hkept⟩
  | quits => exact absurd rfl hquit
  | ends now pc past =>
      rw [pc] at hplaced hkept
      exact ⟨hplaced.eq_length past, hkept⟩
  | starts now pc inside =>
      rw [pc] at hplaced hkept
      exact ⟨hplaced.enter inside, hkept⟩
  | resolves now pc inside =>
      rw [pc] at hplaced hkept
      exact ⟨⟨hplaced, rfl, inside⟩, hkept⟩
  | refreshFailed found initOk scheduled table pc =>
      rw [pc] at hplaced hkept
      obtain ⟨hhead, rfl, hinside⟩ := hplaced
      exact ⟨hhead.skip hinside, hkept.pushDropped cfg.burst⟩
  | refreshedAll found initOk scheduled table l pc =>
      rw [pc] at hplaced hkept
      obtain ⟨hhead, rfl, hinside⟩ := hplaced
      exact ⟨hhead.enter hinside, hkept⟩
  | drops now scheduled i pc more =>
      rw [pc] at hplaced hkept
      exact ⟨Pace.InBurst.next hplaced more, hkept.pushDropped 1⟩
  | admits now scheduled i pc more =>
      rw [pc] at hplaced hkept
      exact ⟨⟨hplaced, more⟩, hkept⟩
  | closes now scheduled i pc all =>
      rw [pc] at hplaced hkept
      exact ⟨Pace.InBurst.close hplaced all, hkept⟩
  | counts now scheduled i channel pc =>
      rw [pc] at hplaced hkept
      exact ⟨hplaced, hkept⟩
  | crashes now scheduled i pc =>
      rw [pc] at hkept
      exact ⟨trivial, hkept⟩
  | issues now scheduled i channel lag pc =>
      rw [pc] at hplaced hkept
      refine ⟨hplaced, ?_⟩
      rw [List.map_append]
      exact hkept.pushSent (hplaced.1.scheduled_eq hplaced.2)
  | advances now scheduled i pc =>
      rw [pc] at hplaced hkept
      exact ⟨hplaced.1.next hplaced.2, hkept⟩
  | drains now deadline pc | drained now deadline pc =>
      rw [pc] at hplaced hkept
      exact ⟨hplaced, hkept⟩
  | begins k call result found =>
      refine ⟨hplaced, ?_⟩
      rw [List.map_set_of_eq found (by rfl)]
      exact hkept
  | completes k now call result measured found | fails k now call result table found =>
      refine ⟨hplaced, ?_⟩
      rw [List.map_set_of_eq found (by rfl)]
      exact hkept

lemma scheduled_init (p : Pace) (table : Option String) : Scheduled p { leader := table } :=
  ⟨Pace.atHead_zero, Pace.onSchedule_nil⟩

/-- **braft keeps the schedule** in every run that is not asked to quit. -/
theorem scheduled_run {cfg : OpenConfig} {table : Option String} {events : List OpenLoopEvent}
    {w : OpenLoop} (hrun : (openLoop cfg).run { leader := table } events = some w)
    (hquit : .quit ∉ events) : Scheduled cfg.toPace w := by
  refine Machine.invariant_along (I := Scheduled cfg.toPace) (C := fun _ e => e ≠ .quit) ?_
    (scheduled_init cfg.toPace table)
    (Machine.along_of_forall_mem fun e he => ne_of_mem_of_not_mem he hquit) hrun
  intro s e s' hs he hstep
  obtain ⟨v, hv, rfl⟩ := openLoop_step hstep
  obtain ⟨hplaced, hkept⟩ := scheduled_step hs he hv
  exact ⟨hplaced, hkept⟩

end Braft

/-! ## openraft -/

namespace OpenRaft

/-- Where the scheduler thread of `run_open` stands in the schedule. -/
def RunOpenPc.Placed (p : Pace) (sequence : ℕ) : RunOpenPc → Prop
  | .head => p.AtHead sequence
  | .burst scheduled i => p.InBurst scheduled i sequence
  | .permitted scheduled i => p.InBurst scheduled i sequence ∧ i < p.burst
  | .draining _ => sequence = p.length
  | .done => sequence = p.length

/-- The scheduler keeps the schedule. -/
structure Scheduled (p : Pace) (w : RunOpen) : Prop where
  placed : w.pc.Placed p w.sequence
  kept : p.OnSchedule w.sequence w.history (w.tasks.map Task.scheduled) w.dropped

lemma scheduled_step {args : OpenArgs} {w v : RunOpen} {e : RunOpenEvent}
    (h : Scheduled args.toPace w) (hstep : RunOpenStep args w e v) :
    Scheduled args.toPace v := by
  obtain ⟨hplaced, hkept⟩ := h
  cases hstep with
  | idle | receives | ticks | closed => exact ⟨hplaced, hkept⟩
  | ends now pc past =>
      rw [pc] at hplaced
      exact ⟨hplaced.eq_length past, hkept⟩
  | starts now pc inside =>
      rw [pc] at hplaced
      exact ⟨hplaced.enter inside, hkept⟩
  | acquires now scheduled i pc more =>
      rw [pc] at hplaced
      exact ⟨⟨hplaced, more⟩, hkept⟩
  | drops now scheduled i pc more =>
      rw [pc] at hplaced
      exact ⟨Pace.InBurst.next hplaced more, hkept.pushDropped 1⟩
  | closes now scheduled i pc all =>
      rw [pc] at hplaced
      exact ⟨Pace.InBurst.close hplaced all, hkept⟩
  | spawns now scheduled i pc =>
      rw [pc] at hplaced
      refine ⟨hplaced.1.next hplaced.2, ?_⟩
      rw [List.map_append]
      exact hkept.pushSent (hplaced.1.scheduled_eq hplaced.2)
  | drains now pc | drained now deadline pc =>
      rw [pc] at hplaced
      exact ⟨hplaced, hkept⟩
  | returnsOk k now task found | returnsErr k now task found =>
      refine ⟨hplaced, ?_⟩
      rw [List.map_set_of_eq found (by rfl)]
      exact hkept
  | releases k task found | taskEnds k task found =>
      refine ⟨hplaced, ?_⟩
      rw [List.map_set_of_eq found (by rfl)]
      exact hkept

/-- **openraft keeps the schedule** in every run. -/
theorem scheduled_run {args : OpenArgs} {events : List RunOpenEvent} {w : RunOpen}
    (hrun : (runOpen args).run (.init args) events = some w) : Scheduled args.toPace w := by
  have hinit : Scheduled args.toPace (.init args) := ⟨Pace.atHead_zero, Pace.onSchedule_nil⟩
  refine Machine.invariant ?_ hinit hrun
  intro s e s' hs hstep
  exact scheduled_step hs (runOpen_step hstep)

end OpenRaft

/-! ## aeron -/

namespace Aeron

/-- Where `runOpenLoop` stands in the schedule: `nextScheduledNanos` is ahead of the sequence
number only inside a burst, where it is the burst's instant. -/
def OpenLoopPc.Placed (p : Pace) (sequence : ℕ) (nextScheduledNanos : ℤ) : OpenLoopPc → Prop
  | .head => p.AtHead sequence ∧ nextScheduledNanos = p.scheduledAt sequence
  | .burst i => p.InBurst nextScheduledNanos i sequence
  | .polling none => p.AtHead sequence ∧ nextScheduledNanos = p.scheduledAt sequence
  | .polling (some _) => sequence = p.length
  | .draining _ => sequence = p.length
  | .done => sequence = p.length

/-- The loop keeps the schedule. -/
structure Scheduled (p : Pace) (w : OpenLoop) : Prop where
  placed : w.pc.Placed p w.sequence w.nextScheduledNanos
  kept : p.OnSchedule w.sequence w.history (w.gen.sent.map Message.stampNanos) w.gen.droppedByRig

lemma onMessage_sent (g : Loadgen) (m : Message) (now : ℤ) :
    (g.onMessage m now).sent = g.sent ∧ (g.onMessage m now).droppedByRig = g.droppedByRig := by
  simp only [Loadgen.onMessage]
  split_ifs
  · exact ⟨rfl, rfl⟩
  · exact ⟨rfl, rfl⟩

lemma scheduled_step {cfg : Config} {w v : OpenLoop} {e : OpenLoopEvent}
    (h : Scheduled cfg.toPace w) (hquit : e ≠ .quit) (hstep : OpenLoopStep cfg w e v) :
    Scheduled cfg.toPace v := by
  obtain ⟨hplaced, hkept⟩ := h
  cases hstep with
  | quits => exact absurd rfl hquit
  | ends now accepted pc past =>
      rw [pc] at hplaced
      obtain ⟨hhead, hnext⟩ := hplaced
      exact ⟨hhead.eq_length (hnext ▸ past), hkept⟩
  | starts now accepted pc inside =>
      rw [pc] at hplaced
      obtain ⟨hhead, hnext⟩ := hplaced
      refine ⟨?_, hkept⟩
      simp only [OpenLoopPc.Placed]
      rw [hnext] at inside ⊢
      exact hhead.enter inside
  | waits now accepted pc | polled now accepted pc =>
      rw [pc] at hplaced
      exact ⟨hplaced, hkept⟩
  | sends now i pc more =>
      rw [pc] at hplaced
      refine ⟨Pace.InBurst.next hplaced more, ?_⟩
      rw [List.map_append]
      exact hkept.pushSent (Pace.InBurst.scheduled_eq hplaced more)
  | drops now accepted i pc more =>
      rw [pc] at hplaced
      exact ⟨Pace.InBurst.next hplaced more, hkept.pushDropped 1⟩
  | closes now accepted i pc all =>
      rw [pc] at hplaced
      exact ⟨⟨Pace.InBurst.close hplaced all, rfl⟩, hkept⟩
  | drainPolled now accepted deadline pc | drainPolls now accepted deadline pc
  | drained now accepted deadline pc =>
      rw [pc] at hplaced
      exact ⟨hplaced, hkept⟩
  | drains now accepted pc =>
      rw [pc] at hplaced
      exact ⟨hplaced, hkept⟩
  | receives m now deadline pc =>
      refine ⟨hplaced, ?_⟩
      obtain ⟨hsent, hdropped⟩ := onMessage_sent w.gen m now
      rw [hsent, hdropped]
      exact hkept

lemma scheduled_init (cfg : Config) : Scheduled cfg.toPace (.init cfg) := by
  refine ⟨⟨Pace.atHead_zero, ?_⟩, Pace.onSchedule_nil⟩
  simp [OpenLoop.init, Pace.scheduledAt]

/-- **aeron keeps the schedule** in every run that is not stopped from outside. -/
theorem scheduled_run {cfg : Config} {events : List OpenLoopEvent} {w : OpenLoop}
    (hrun : (openLoop cfg).run (.init cfg) events = some w) (hquit : .quit ∉ events) :
    Scheduled cfg.toPace w := by
  refine Machine.invariant_along (I := Scheduled cfg.toPace) (C := fun _ e => e ≠ .quit) ?_
    (scheduled_init cfg)
    (Machine.along_of_forall_mem fun e he => ne_of_mem_of_not_mem he hquit) hrun
  intro s e s' hs he hstep
  exact scheduled_step hs he (openLoop_step hstep)

end Aeron

/-! ## One schedule -/

/-- The loop of braft has come to its own end. -/
def Braft.SchedulerPc.isOver : Braft.SchedulerPc → Bool
  | .draining _ => true
  | .done => true
  | _ => false

/-- The loop of openraft has come to its own end. -/
def OpenRaft.RunOpenPc.isOver : OpenRaft.RunOpenPc → Bool
  | .draining _ => true
  | .done => true
  | _ => false

/-- The loop of aeron has come to its own end. -/
def Aeron.OpenLoopPc.isOver : Aeron.OpenLoopPc → Bool
  | .polling (some _) => true
  | .draining _ => true
  | .done => true
  | _ => false

lemma Braft.Scheduled.over {p : Pace} {w : Braft.OpenLoop} (h : Braft.Scheduled p w)
    (hover : w.pc.isOver = true) :
    p.OnSchedule p.length w.history (w.calls.map Braft.OpenCall.scheduled) w.dropped := by
  obtain ⟨hplaced, hkept⟩ := h
  cases hpc : w.pc with
  | draining deadline =>
      rw [hpc] at hplaced hkept
      exact hplaced ▸ hkept
  | done =>
      rw [hpc] at hplaced hkept
      exact hplaced ▸ hkept
  | _ => simp [hpc, Braft.SchedulerPc.isOver] at hover

lemma OpenRaft.Scheduled.over {p : Pace} {w : OpenRaft.RunOpen} (h : OpenRaft.Scheduled p w)
    (hover : w.pc.isOver = true) :
    p.OnSchedule p.length w.history (w.tasks.map OpenRaft.Task.scheduled) w.dropped := by
  obtain ⟨hplaced, hkept⟩ := h
  cases hpc : w.pc with
  | draining deadline =>
      rw [hpc] at hplaced
      exact hplaced ▸ hkept
  | done =>
      rw [hpc] at hplaced
      exact hplaced ▸ hkept
  | _ => simp [hpc, OpenRaft.RunOpenPc.isOver] at hover

lemma Aeron.Scheduled.over {p : Pace} {w : Aeron.OpenLoop} (h : Aeron.Scheduled p w)
    (hover : w.pc.isOver = true) :
    p.OnSchedule p.length w.history (w.gen.sent.map Aeron.Message.stampNanos)
      w.gen.droppedByRig := by
  obtain ⟨hplaced, hkept⟩ := h
  cases hpc : w.pc with
  | head => simp [hpc, Aeron.OpenLoopPc.isOver] at hover
  | burst i => simp [hpc, Aeron.OpenLoopPc.isOver] at hover
  | polling deadline =>
      cases deadline with
      | none => simp [hpc, Aeron.OpenLoopPc.isOver] at hover
      | some deadline =>
          rw [hpc] at hplaced
          exact hplaced ▸ hkept
  | draining deadline =>
      rw [hpc] at hplaced
      exact hplaced ▸ hkept
  | done =>
      rw [hpc] at hplaced
      exact hplaced ▸ hkept

/-- **The schedule is exogenous, and the same in the three generators.**  For every pace there is
one number `n` of sequence numbers, within a burst of what fits between `start` and `stop`, such
that every run of any of the three loops that comes to its own end has gone through exactly
`0, …, n - 1`, in order, each either dropped or sent with the instant of its burst; the instants of
the requests that went out and the dropped counter are those of this history. -/
theorem open_loops_share_schedule (p : Pace) :
    ∃ n : ℕ, p.span ≤ n ∧ (n : ℚ) < p.span + p.burst ∧
      (∀ (cfg : Braft.OpenConfig) (table : Option String) (events : List Braft.OpenLoopEvent)
        (w : Braft.OpenLoop), cfg.toPace = p →
        (Braft.openLoop cfg).run { leader := table } events = some w → .quit ∉ events →
        w.pc.isOver = true →
        p.OnSchedule n w.history (w.calls.map Braft.OpenCall.scheduled) w.dropped) ∧
      (∀ (args : OpenRaft.OpenArgs) (events : List OpenRaft.RunOpenEvent) (w : OpenRaft.RunOpen),
        args.toPace = p → (OpenRaft.runOpen args).run (.init args) events = some w →
        w.pc.isOver = true →
        p.OnSchedule n w.history (w.tasks.map OpenRaft.Task.scheduled) w.dropped) ∧
      (∀ (cfg : Aeron.Config) (events : List Aeron.OpenLoopEvent) (w : Aeron.OpenLoop),
        cfg.toPace = p → (Aeron.openLoop cfg).run (.init cfg) events = some w →
        .quit ∉ events → w.pc.isOver = true →
        p.OnSchedule n w.history (w.gen.sent.map Aeron.Message.stampNanos) w.gen.droppedByRig) := by
  refine ⟨p.length, p.span_le_length, p.length_lt, ?_, ?_, ?_⟩
  · rintro cfg table events w rfl hrun hquit hover
    exact (Braft.scheduled_run hrun hquit).over hover
  · rintro args events w rfl hrun hover
    exact (OpenRaft.scheduled_run hrun).over hover
  · rintro cfg events w rfl hrun hquit hover
    exact (Aeron.scheduled_run hrun hquit).over hover

/-- One instant, one request. -/
def oneInstant : Pace := .eachSecond 0

/-- The three loops over one instant: braft finds no leader and drops the request, openraft sends it
and the task is still running, aeron has its offer refused.  All three went through number `0`. -/
theorem open_loops_share_one_instant :
    (∃ w, (Braft.openLoop { oneInstant with
          maxInflight := 1, channels := 1, drainTimeout := 0, maxInflight_pos := by decide }).run
          { leader := none } [.scheduler 0, .refresh none true, .scheduler 1] = some w ∧
        oneInstant.OnSchedule 1 w.history (w.calls.map Braft.OpenCall.scheduled) w.dropped) ∧
      (∃ w, (OpenRaft.runOpen { oneInstant with
          maxInflight := 1, drainTimeout := 0, casPercentage := 0, warmupEnd := 0,
          maxInflight_pos := by decide }).run { permits := 1 }
          [.scheduler 0, .scheduler 0, .scheduler 0, .scheduler 0, .scheduler 1] = some w ∧
        oneInstant.OnSchedule 1 w.history (w.tasks.map OpenRaft.Task.scheduled) w.dropped) ∧
      ∃ w, (Aeron.openLoop { oneInstant with
          maxInflight := 1, drainTimeout := 0, maxInflight_pos := by decide }).run
          { nextScheduledNanos := 0 }
          [.sender 0 true, .sender 0 false, .sender 0 true, .sender 1 true, .sender 1 true]
            = some w ∧
        oneInstant.OnSchedule 1 w.history (w.gen.sent.map Aeron.Message.stampNanos)
          w.gen.droppedByRig := by
  obtain ⟨n, hlow, hhigh, hbraft, hopenraft, haeron⟩ := open_loops_share_schedule oneInstant
  obtain rfl : n = 1 := by
    have hspan : oneInstant.span = 1 := by decide +kernel
    have hburst : (oneInstant.burst : ℚ) = 1 := Nat.cast_one
    rw [hspan, hburst] at hhigh
    rw [hspan] at hlow
    have hlow' : 1 ≤ n := by exact_mod_cast hlow
    have hhigh' : n < 1 + 1 := by exact_mod_cast hhigh
    omega
  refine ⟨?_, ?_, ?_⟩
  · have hover : ((Braft.openLoop { oneInstant with
        maxInflight := 1, channels := 1, drainTimeout := 0, maxInflight_pos := by decide }).run
        { leader := none } [.scheduler 0, .refresh none true, .scheduler 1]).map
          (fun w => w.pc.isOver) = some true := by
      decide +kernel
    obtain ⟨w, hrun, hw⟩ := Option.map_eq_some_iff.mp hover
    exact ⟨w, hrun, hbraft _ none _ w rfl hrun (by decide) hw⟩
  · have hover : ((OpenRaft.runOpen { oneInstant with
        maxInflight := 1, drainTimeout := 0, casPercentage := 0, warmupEnd := 0,
        maxInflight_pos := by decide }).run { permits := 1 }
        [.scheduler 0, .scheduler 0, .scheduler 0, .scheduler 0, .scheduler 1]).map
          (fun w => w.pc.isOver) = some true := by
      decide +kernel
    obtain ⟨w, hrun, hw⟩ := Option.map_eq_some_iff.mp hover
    exact ⟨w, hrun, hopenraft _ _ w rfl hrun hw⟩
  · have hover : ((Aeron.openLoop { oneInstant with
        maxInflight := 1, drainTimeout := 0, maxInflight_pos := by decide }).run
        { nextScheduledNanos := 0 }
        [.sender 0 true, .sender 0 false, .sender 0 true, .sender 1 true, .sender 1 true]).map
          (fun w => w.pc.isOver) = some true := by
      decide +kernel
    obtain ⟨w, hrun, hw⟩ := Option.map_eq_some_iff.mp hover
    exact ⟨w, hrun, haeron _ _ w rfl hrun (by decide) hw⟩

end RaftBench

import RaftBench.Lib.Update
import RaftBench.Braft.OpenLoop

/-!
# Which leader the open loop sends to

A callback that sees a failure or a redirect writes the route table, to *make the next scheduled
send re-resolve*.  The scheduler reads the table only in `refresh_channel`, and calls that only
while `have_channel` is false.

`Routed` is what holds in every reachable state: once a request has been sent, `have_channel` is
set, it stays set, and the channels stay the ones selected before the first request.  So a channel
selected after a callback's end never carries a request.  `reresolves_run` draws the two
conclusions: the loop sends as the comment says in the runs in which no instant begins on the old
channels after such a callback, and in no others.
-/

namespace RaftBench.Braft

/-- The step in which the callback of a failed or redirected call ended. -/
def CallPhase.lostAt : CallPhase → Option ℕ
  | .ended result t => if result.completes then none else some t
  | _ => none

/-- The scheduler stands inside an instant, with channels to send over. -/
def SchedulerPc.sending : SchedulerPc → Bool
  | .burst _ _ => true
  | .admitted _ _ => true
  | .counted _ _ _ => true
  | .issued _ _ => true
  | _ => false

/-- **The leader is resolved again.**  A request whose instant began after the callback of a lost
call had ended goes over a channel selected after that end. -/
def Reresolves (w : OpenLoop) : Prop :=
  ∀ c ∈ w.calls, ∀ d ∈ w.calls, ∀ t, d.phase.lostAt = some t → t < c.instant →
    t < c.channel.selectedAt

lemma lostAt_ended {result : RpcResult} {s t : ℕ}
    (h : (CallPhase.ended result s).lostAt = some t) : s = t := by
  simp only [CallPhase.lostAt] at h
  split at h
  · simp at h
  · exact Option.some.inj h

/-! ## Channels are selected once -/

/-- The routing state of a reachable state. -/
structure Routed (w : OpenLoop) : Prop where
  selected : ∀ ch ∈ w.channels, ch.selectedAt < w.steps
  sending : w.pc.sending = true → w.haveChannel = true
  settled : w.haveChannel = true → ∀ scheduled, w.pc ≠ .resolving scheduled
  called : w.calls ≠ [] → w.haveChannel = true
  picked : ∀ scheduled i ch, w.pc = .counted scheduled i ch → ch ∈ w.channels
  sent : ∀ call ∈ w.calls, call.channel ∈ w.channels
  ended : ∀ call ∈ w.calls, ∀ result t, call.phase = .ended result t →
    ∀ ch ∈ w.channels, ch.selectedAt < t

lemma routed_init (table : Option String) : Routed { leader := table } := by
  refine ⟨?_, ?_, ?_, ?_, ?_, ?_, ?_⟩ <;> simp [SchedulerPc.sending]

namespace Routed

variable {w : OpenLoop}

lemma selected_next (h : Routed w) : ∀ ch ∈ w.channels, ch.selectedAt < w.steps + 1 :=
  fun ch hch => Nat.lt_succ_of_lt (h.selected ch hch)

/-- A channel selected in this step is counted as selected from the next one on. -/
lemma selected_concat (h : Routed w) (leader : String) :
    ∀ ch ∈ w.channels ++ [⟨leader, w.steps⟩], ch.selectedAt < w.steps + 1 :=
  List.forall_concat h.selected_next (Nat.lt_succ_self _)

/-- While the leader is being resolved nothing has been sent. -/
lemma calls_eq_nil (h : Routed w) (hhave : w.haveChannel = false) : w.calls = [] := by
  by_contra hne
  have := h.called hne
  simp [hhave] at this

lemma haveChannel_resolving (h : Routed w) {scheduled : ℤ} (pc : w.pc = .resolving scheduled) :
    w.haveChannel = false := by
  cases hhave : w.haveChannel with
  | false => rfl
  | true => exact absurd pc (h.settled hhave scheduled)

/-- A step of the scheduler that touches neither the channels nor the calls. -/
lemma move (h : Routed w) (v : OpenLoop) (hchannels : v.channels = w.channels)
    (hhave : v.haveChannel = w.haveChannel) (hcalls : v.calls = w.calls)
    (hsending : v.pc.sending = true → w.haveChannel = true)
    (hsettled : ∀ scheduled, v.pc ≠ .resolving scheduled)
    (hpicked : ∀ scheduled i ch, v.pc = .counted scheduled i ch → ch ∈ w.channels) :
    Routed { v with steps := w.steps + 1 } where
  selected := by rw [hchannels]; exact h.selected_next
  sending := by rw [hhave]; exact hsending
  settled := fun _ => hsettled
  called := by rw [hcalls, hhave]; exact h.called
  picked := by rw [hchannels]; exact hpicked
  sent := by rw [hcalls, hchannels]; exact h.sent
  ended := by rw [hcalls, hchannels]; exact h.ended

/-- A callback's step: one call changes its phase, the program counter stays. -/
lemma setCall (h : Routed w) (v : OpenLoop) {k : ℕ} {call : OpenCall} (next : CallPhase)
    (found : w.calls[k]? = some call) (hpc : v.pc = w.pc) (hchannels : v.channels = w.channels)
    (hhave : v.haveChannel = w.haveChannel)
    (hcalls : v.calls = w.calls.set k { call with phase := next })
    (hnext : ∀ result t, next = .ended result t → t = w.steps) :
    Routed { v with steps := w.steps + 1 } where
  selected := by rw [hchannels]; exact h.selected_next
  sending := by rw [hpc, hhave]; exact h.sending
  settled := by rw [hpc, hhave]; exact h.settled
  called := by
    intro _
    rw [hhave]
    exact h.called (List.ne_nil_of_mem (List.mem_of_getElem? found))
  picked := by rw [hpc, hchannels]; exact h.picked
  sent := by
    rw [hcalls, hchannels]
    refine List.forall_set h.sent ?_ k
    exact h.sent call (List.mem_of_getElem? found)
  ended := by
    rw [hcalls, hchannels]
    refine List.forall_set h.ended ?_ k
    intro result t hended ch hch
    rw [hnext result t hended]
    exact h.selected ch hch

end Routed

/-- **Every step keeps the routing.** -/
lemma routed_step {cfg : OpenConfig} {w v : OpenLoop} {e : OpenLoopEvent} (h : Routed w)
    (hstep : OpenLoopStep cfg w e v) : Routed { v with steps := w.steps + 1 } := by
  cases hstep with
  | idle | measures =>
      exact ⟨h.selected_next, h.sending, h.settled, h.called, h.picked, h.sent, h.ended⟩
  | ends | quits | closes | crashes | drains | drained =>
      exact h.move _ rfl rfl rfl (by simp [SchedulerPc.sending]) (by simp) (by simp)
  | starts now pc inside due channel =>
      exact h.move _ rfl rfl rfl (fun _ => channel) (by simp) (by simp)
  | drops now scheduled i pc | admits now scheduled i pc | advances now scheduled i pc =>
      have hhave : w.haveChannel = true := h.sending (by rw [pc]; rfl)
      exact h.move _ rfl rfl rfl (fun _ => hhave) (by simp) (by simp)
  | counts now scheduled i channel pc picked =>
      have hhave : w.haveChannel = true := h.sending (by rw [pc]; rfl)
      refine h.move _ rfl rfl rfl (fun _ => hhave) (by simp) ?_
      rintro _ _ ch ⟨⟩
      exact List.mem_of_getElem? picked
  | resolves now pc inside due noChannel =>
      have hnil := h.calls_eq_nil noChannel
      refine ⟨?_, ?_, ?_, ?_, ?_, ?_, ?_⟩ <;> simp [hnil, noChannel, SchedulerPc.sending]
  | refreshFailed found initOk scheduled table pc =>
      have hnil := h.calls_eq_nil (h.haveChannel_resolving pc)
      refine ⟨h.selected_next, ?_, ?_, ?_, ?_, ?_, ?_⟩ <;> simp [hnil, SchedulerPc.sending]
  | refreshedOne found initOk scheduled table l pc =>
      have hhave := h.haveChannel_resolving pc
      have hnil := h.calls_eq_nil hhave
      refine ⟨h.selected_concat l, ?_, ?_, ?_, ?_, ?_, ?_⟩ <;>
        simp [hnil, hhave, pc, SchedulerPc.sending]
  | refreshedAll found initOk scheduled table l pc =>
      have hnil := h.calls_eq_nil (h.haveChannel_resolving pc)
      refine ⟨h.selected_concat l, ?_, ?_, ?_, ?_, ?_, ?_⟩ <;> simp [hnil]
  | issues now scheduled i channel lag pc =>
      have hhave : w.haveChannel = true := h.sending (by rw [pc]; rfl)
      refine ⟨h.selected_next, fun _ => hhave, by simp, fun _ => hhave, by simp, ?_, ?_⟩
      · exact List.forall_concat h.sent (h.picked scheduled i channel pc)
      · exact List.forall_concat h.ended (by simp)
  | begins k call result found pending =>
      exact h.setCall _ (.running result) found rfl rfl rfl rfl (by simp)
  | completes k now call result measured found running ok =>
      exact h.setCall _ (.ended result w.steps) found rfl rfl rfl rfl (by simp)
  | fails k now call result table found running lost =>
      exact h.setCall _ (.ended result w.steps) found rfl rfl rfl rfl (by simp)

lemma routed_run {cfg : OpenConfig} {table : Option String} {events : List OpenLoopEvent}
    {w : OpenLoop} (hrun : (openLoop cfg).run { leader := table } events = some w) : Routed w := by
  refine Machine.invariant ?_ (routed_init table) hrun
  intro s e s' hs hstep
  obtain ⟨v, hv, rfl⟩ := openLoop_step hstep
  exact routed_step hs hv

/-- Every request goes over a channel selected before the end of every callback. -/
lemma Routed.selectedAt_lt {w : OpenLoop} (h : Routed w) {c d : OpenCall} (hc : c ∈ w.calls)
    (hd : d ∈ w.calls) {t : ℕ} (hlost : d.phase.lostAt = some t) : c.channel.selectedAt < t := by
  cases hphase : d.phase with
  | pending => simp [hphase, CallPhase.lostAt] at hlost
  | running result => simp [hphase, CallPhase.lostAt] at hlost
  | ended result s =>
      rw [hphase] at hlost
      obtain rfl := lostAt_ended hlost
      exact h.ended d hd result s hphase c.channel (h.sent c hc)

/-! ## Instants that begin on the old channels -/

/-- The scheduler's step begins an instant on the channels it already has. -/
def startsOnOldChannels (cfg : OpenConfig) (w : OpenLoop) : OpenLoopEvent → Bool
  | .scheduler now =>
      w.pc = .head ∧ cfg.scheduledAt w.sequence ≤ cfg.stop ∧ cfg.scheduledAt w.sequence ≤ now ∧
        w.haveChannel = true
  | _ => false

/-- No instant begins on the old channels once the callback of a lost call has ended. -/
def FreshInstant (cfg : OpenConfig) (w : OpenLoop) (e : OpenLoopEvent) : Prop :=
  startsOnOldChannels cfg w e = true → ∀ d ∈ w.calls, d.phase.lostAt = none

instance (cfg : OpenConfig) (w : OpenLoop) (e : OpenLoopEvent) :
    Decidable (FreshInstant cfg w e) :=
  inferInstanceAs (Decidable (_ = true → ∀ d ∈ w.calls, d.phase.lostAt = none))

/-- Along such a run no instant with a request in it, and not the current one, began after the end
of a lost call. -/
structure Unspoiled (w : OpenLoop) : Prop where
  instant_le : w.instant ≤ w.steps
  called_le : ∀ c ∈ w.calls, c.instant ≤ w.steps
  lost_le : ∀ d ∈ w.calls, ∀ t, d.phase.lostAt = some t → ∀ c ∈ w.calls, c.instant ≤ t
  current_le : w.pc.sending = true → ∀ d ∈ w.calls, ∀ t, d.phase.lostAt = some t → w.instant ≤ t

lemma unspoiled_init (table : Option String) : Unspoiled { leader := table } := by
  refine ⟨?_, ?_, ?_, ?_⟩ <;> simp

namespace Unspoiled

variable {w : OpenLoop}

/-- A step of the scheduler inside an instant, or out of one. -/
lemma move (h : Unspoiled w) (v : OpenLoop) (hinstant : v.instant = w.instant)
    (hcalls : v.calls = w.calls) (hsending : v.pc.sending = true → w.pc.sending = true) :
    Unspoiled { v with steps := w.steps + 1 } where
  instant_le := by rw [hinstant]; exact Nat.le_succ_of_le h.instant_le
  called_le := by rw [hcalls]; exact fun c hc => Nat.le_succ_of_le (h.called_le c hc)
  lost_le := by rw [hcalls]; exact h.lost_le
  current_le := by rw [hcalls, hinstant]; exact fun hs => h.current_le (hsending hs)

/-- Before the first request there is nothing to spoil. -/
lemma of_nil (h : Unspoiled w) (v : OpenLoop) (hnil : v.calls = [])
    (hinstant : v.instant = w.steps ∨ v.instant = w.instant) :
    Unspoiled { v with steps := w.steps + 1 } where
  instant_le := by
    have := h.instant_le
    rcases hinstant with hinstant | hinstant
    · exact hinstant.trans_le (Nat.le_succ _)
    · exact hinstant.trans_le (Nat.le_succ_of_le this)
  called_le := by simp [hnil]
  lost_le := by simp [hnil]
  current_le := by simp [hnil]

/-- A callback's step. -/
lemma setCall (h : Unspoiled w) (v : OpenLoop) {k : ℕ} {call : OpenCall} (next : CallPhase)
    (found : w.calls[k]? = some call) (hpc : v.pc = w.pc) (hinstant : v.instant = w.instant)
    (hcalls : v.calls = w.calls.set k { call with phase := next })
    (hnext : ∀ t, next.lostAt = some t → t = w.steps) :
    Unspoiled { v with steps := w.steps + 1 } := by
  have hcall := List.mem_of_getElem? found
  have hinstants (t : ℕ) (ht : ∀ c ∈ w.calls, c.instant ≤ t) :
      ∀ c ∈ w.calls.set k { call with phase := next }, c.instant ≤ t := by
    refine List.forall_set ht ?_ k
    exact ht call hcall
  refine ⟨?_, ?_, ?_, ?_⟩
  · rw [hinstant]
    exact Nat.le_succ_of_le h.instant_le
  · rw [hcalls]
    exact hinstants _ fun c hc => Nat.le_succ_of_le (h.called_le c hc)
  · rw [hcalls]
    refine List.forall_set (fun d hd t hlost => hinstants t (h.lost_le d hd t hlost)) ?_ k
    intro t hlost
    rw [hnext t hlost]
    exact hinstants _ h.called_le
  · rw [hcalls, hpc, hinstant]
    intro hsending
    refine List.forall_set (h.current_le hsending) ?_ k
    intro t hlost
    rw [hnext t hlost]
    exact h.instant_le

end Unspoiled

lemma unspoiled_step {cfg : OpenConfig} {w v : OpenLoop} {e : OpenLoopEvent} (hr : Routed w)
    (h : Unspoiled w) (hfresh : FreshInstant cfg w e) (hstep : OpenLoopStep cfg w e v) :
    Unspoiled { v with steps := w.steps + 1 } := by
  cases hstep with
  | idle => exact h.move w rfl rfl id
  | measures => exact h.move _ rfl rfl id
  | ends | quits | closes | crashes | drains | drained =>
      exact h.move _ rfl rfl (by simp [SchedulerPc.sending])
  | drops _ _ _ pc | admits _ _ _ pc | advances _ _ _ pc | counts _ _ _ _ pc =>
      exact h.move _ rfl rfl (fun _ => by rw [pc]; rfl)
  | starts now pc inside due channel =>
      -- the condition is about exactly this step: nothing has been lost yet
      have hnone := hfresh (by simp [startsOnOldChannels, pc, inside, due, channel])
      refine ⟨Nat.le_succ _, fun c hc => Nat.le_succ_of_le (h.called_le c hc), h.lost_le, ?_⟩
      intro _ d hd t hlost
      rw [hnone d hd] at hlost
      simp at hlost
  | resolves now pc inside due noChannel =>
      exact h.of_nil _ (hr.calls_eq_nil noChannel) (Or.inl rfl)
  | refreshFailed _ _ _ _ pc | refreshedOne _ _ _ _ _ pc | refreshedAll _ _ _ _ _ pc =>
      exact h.of_nil _ (hr.calls_eq_nil (hr.haveChannel_resolving pc)) (Or.inr rfl)
  | issues now scheduled i channel lag pc =>
      have hcurrent := h.current_le (by rw [pc]; rfl)
      refine ⟨Nat.le_succ_of_le h.instant_le, ?_, ?_, ?_⟩
      · exact List.forall_concat (fun c hc => Nat.le_succ_of_le (h.called_le c hc))
          (Nat.le_succ_of_le h.instant_le)
      · refine List.forall_concat (fun d hd t hlost => ?_) (by simp [CallPhase.lostAt])
        exact List.forall_concat (h.lost_le d hd t hlost) (hcurrent d hd t hlost)
      · intro _
        exact List.forall_concat hcurrent (by simp [CallPhase.lostAt])
  | begins k call result found pending =>
      exact h.setCall _ (.running result) found rfl rfl rfl (by simp [CallPhase.lostAt])
  | completes k now call result measured found running ok =>
      exact h.setCall _ (.ended result w.steps) found rfl rfl rfl
        fun t hlost => (lostAt_ended hlost).symm
  | fails k now call result table found running lost =>
      exact h.setCall _ (.ended result w.steps) found rfl rfl rfl
        fun t hlost => (lostAt_ended hlost).symm

lemma unspoiled_run {cfg : OpenConfig} {table : Option String} {events : List OpenLoopEvent}
    {w : OpenLoop} (hrun : (openLoop cfg).run { leader := table } events = some w)
    (hfresh : (openLoop cfg).Along (FreshInstant cfg) { leader := table } events) :
    Unspoiled w := by
  have hboth : Routed w ∧ Unspoiled w := by
    refine Machine.invariant_along (I := fun s => Routed s ∧ Unspoiled s) ?_
      ⟨routed_init table, unspoiled_init table⟩ hfresh hrun
    intro s e s' hs he hstep
    obtain ⟨v, hv, rfl⟩ := openLoop_step hstep
    exact ⟨routed_step hs.1 hv, unspoiled_step hs.1 hs.2 he hv⟩
  exact hboth.2

/-- **When the open loop re-resolves its leader.**  In every run whose instants never begin on the
old channels after the callback of a lost call has ended, every request is routed as the comment in
`on_open_response` says.  The condition cannot be relaxed: a run is routed so only if it sends no
request at all in an instant that began after such an end. -/
theorem reresolves_run (cfg : OpenConfig) (table : Option String) (events : List OpenLoopEvent)
    (w : OpenLoop) (hrun : (openLoop cfg).run { leader := table } events = some w) :
    ((openLoop cfg).Along (FreshInstant cfg) { leader := table } events → Reresolves w) ∧
      (Reresolves w ↔ ∀ c ∈ w.calls, ∀ d ∈ w.calls, ∀ t, d.phase.lostAt = some t →
        c.instant ≤ t) := by
  constructor
  · intro hfresh c hc d hd t hlost hlate
    have := (unspoiled_run hrun hfresh).lost_le d hd t hlost c hc
    omega
  · constructor
    · intro h c hc d hd t hlost
      by_contra hlate
      have hafter := h c hc d hd t hlost (not_le.mp hlate)
      have hbefore := (routed_run hrun).selectedAt_lt hc hd hlost
      omega
    · intro h c hc d hd t hlost hlate
      have := h c hc d hd t hlost
      omega

/-- Two requests over the whole run, one a second. -/
def twoRequests : OpenConfig := .eachSecond 1

/-- The first request's callback finds `result` and ends before the second instant begins. -/
def twoRequestsRun (result : RpcResult) : List OpenLoopEvent :=
  [.scheduler 0, .refresh none true, .scheduler 0, .scheduler 0, .scheduler 0, .scheduler 0,
    .scheduler 0, .callbackBegin 0 result, .callbackEnd 0 0, .scheduler 1, .scheduler 1,
    .scheduler 1, .scheduler 1]

/-- The routing of the calls of a state: where their instants began, when their channels were
selected and when they were lost. -/
def OpenLoop.routes (w : OpenLoop) : List (ℕ × ℕ × Option ℕ) :=
  w.calls.map fun c => (c.instant, c.channel.selectedAt, c.phase.lostAt)

/-- A run in which the first request is answered meets the condition, and sends the second one. -/
theorem reresolves_answered :
    ∃ w, (openLoop twoRequests).run { leader := some "a" }
        (twoRequestsRun (.answered { success := true, oldValue := some 0 })) = some w ∧
      w.calls.length = 2 ∧ Reresolves w := by
  have hcalls : ((openLoop twoRequests).run { leader := some "a" }
      (twoRequestsRun (.answered { success := true, oldValue := some 0 }))).map
        (fun w => w.calls.length) = some 2 := by
    decide +kernel
  obtain ⟨w, hrun, hw⟩ := Option.map_eq_some_iff.mp hcalls
  exact ⟨w, hrun, hw, (reresolves_run twoRequests (some "a") _ w hrun).1 (by decide +kernel)⟩

/-- The second request is sent over the channel of the first, which has failed. -/
theorem reresolves_not_after_failure :
    ¬ ∀ (cfg : OpenConfig) (table : Option String) (events : List OpenLoopEvent) (w : OpenLoop),
      (openLoop cfg).run { leader := table } events = some w → Reresolves w := by
  intro h
  have hroutes : ((openLoop twoRequests).run { leader := some "a" } (twoRequestsRun .failed)).map
      OpenLoop.routes = some [(0, 1, some 8), (9, 1, none)] := by
    decide +kernel
  obtain ⟨w, hrun, hw⟩ := Option.map_eq_some_iff.mp hroutes
  obtain ⟨d, ds, hcalls, hd, hds⟩ := List.map_eq_cons_iff.mp hw
  obtain ⟨c, cs, rfl, hc, -⟩ := List.map_eq_cons_iff.mp hds
  simp only [Prod.mk.injEq] at hc hd
  have hlate := h twoRequests (some "a") _ w hrun c (by simp [hcalls]) d (by simp [hcalls]) 8
    hd.2.2
  omega

end RaftBench.Braft

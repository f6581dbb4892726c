import RaftBench.Lib.Update
import RaftBench.Braft.OpenLoop

/-!
# What the open-loop summary accounts for

The summary of an open-loop run prints `g_dropped` and `g_inflight` (as *unanswered*) next to the
completed requests.  Together they should cover every sequence number the scheduler has gone
through.

The loop's own books are exact: `Accounting` says of every reachable state that the numbers gone
through are the dropped ones and the issued calls, that `g_inflight` counts the calls whose
callback has not begun, and `g_completed` the callbacks that reached `record`.  What is missing is
the third kind of call.  A callback that sees a failure or a redirect gives its place in
`g_inflight` back and counts nothing, so `summary_balances_iff` holds the summary to the runs in
which that never happens.
-/

namespace RaftBench.Braft

/-! ## The books -/

/-- The call's callback has not begun: it is counted in `g_inflight`. -/
def CallPhase.isPending : CallPhase → Bool
  | .pending => true
  | _ => false

/-- The call's callback has reached `record`: it is counted in `g_completed`. -/
def CallPhase.isCompleted : CallPhase → Bool
  | .ended result _ => result.completes
  | _ => false

/-- The call is issued and its sequence number not yet passed. -/
def SchedulerPc.issuing : SchedulerPc → ℕ
  | .issued _ _ => 1
  | _ => 0

/-- `g_inflight` is incremented for a call that is not yet issued. -/
def SchedulerPc.counting : SchedulerPc → ℕ
  | .counted _ _ _ => 1
  | _ => 0

def callsIn (calls : List OpenCall) (phase : CallPhase → Bool) : ℕ :=
  calls.countP fun call => phase call.phase

/-- The counters of a reachable state. -/
structure Accounting (w : OpenLoop) : Prop where
  sequence : w.sequence + w.pc.issuing = w.dropped + w.calls.length
  inflight : w.inflight = callsIn w.calls CallPhase.isPending + w.pc.counting
  completed : w.completed = callsIn w.calls CallPhase.isCompleted

lemma accounting_init (table : Option String) : Accounting { leader := table } :=
  ⟨rfl, rfl, rfl⟩

/-- Moving one call to another phase moves it from one count to another. -/
lemma callsIn_set {calls : List OpenCall} {k : ℕ} {call : OpenCall}
    (found : calls[k]? = some call) (next : CallPhase) (phase : CallPhase → Bool) :
    callsIn (calls.set k { call with phase := next }) phase + (phase call.phase).toNat
      = callsIn calls phase + (phase next).toNat :=
  List.countP_set_add (fun c : OpenCall => phase c.phase) found { call with phase := next }

lemma callsIn_cons (call : OpenCall) (calls : List OpenCall) (phase : CallPhase → Bool) :
    callsIn (call :: calls) phase = callsIn calls phase + (phase call.phase).toNat := by
  rw [callsIn, callsIn, List.countP_cons]
  cases phase call.phase <;> rfl

lemma callsIn_append (calls : List OpenCall) (call : OpenCall) (phase : CallPhase → Bool) :
    callsIn (calls ++ [call]) phase = callsIn calls phase + (phase call.phase).toNat := by
  rw [callsIn, callsIn, List.countP_append, List.countP_singleton]
  cases phase call.phase <;> rfl

/-- **Every step keeps the books.** -/
lemma accounting_step {cfg : OpenConfig} {w v : OpenLoop} {e : OpenLoopEvent}
    (h : Accounting w) (hstep : OpenLoopStep cfg w e v) : Accounting v := by
  obtain ⟨hseq, hinflight, hcompleted⟩ := h
  cases hstep with
  | idle | measures | refreshedOne => exact ⟨hseq, hinflight, hcompleted⟩
  | ends _ pc | quits pc | starts _ pc | resolves _ pc | refreshedAll _ _ _ _ _ pc
  | admits _ _ _ pc | closes _ _ _ pc | crashes _ _ _ pc | drains _ _ pc | drained _ _ pc =>
      rw [pc] at hseq hinflight
      exact ⟨hseq, hinflight, hcompleted⟩
  | refreshFailed _ _ _ _ pc =>
      rw [pc] at hseq hinflight
      refine ⟨?_, hinflight, hcompleted⟩
      simp only [SchedulerPc.issuing] at hseq ⊢
      omega
  | drops _ _ _ pc =>
      rw [pc] at hseq hinflight
      refine ⟨?_, hinflight, hcompleted⟩
      simp only [SchedulerPc.issuing] at hseq ⊢
      omega
  | counts _ _ _ _ pc =>
      rw [pc] at hseq hinflight
      refine ⟨hseq, ?_, hcompleted⟩
      simp only [SchedulerPc.counting] at hinflight ⊢
      omega
  | issues _ _ _ _ _ pc =>
      rw [pc] at hseq hinflight
      refine ⟨?_, ?_, ?_⟩
      · simp only [SchedulerPc.issuing, List.length_append, List.length_singleton] at hseq ⊢
        omega
      · rw [callsIn_append]
        simpa [SchedulerPc.counting, CallPhase.isPending] using hinflight
      · rw [callsIn_append]
        simpa [CallPhase.isCompleted] using hcompleted
  | advances _ _ _ pc =>
      rw [pc] at hseq hinflight
      refine ⟨?_, hinflight, hcompleted⟩
      simp only [SchedulerPc.issuing] at hseq ⊢
      omega
  | begins k call result found pending =>
      have hp := callsIn_set found (.running result) CallPhase.isPending
      have hc := callsIn_set found (.running result) CallPhase.isCompleted
      simp only [pending, CallPhase.isPending, CallPhase.isCompleted, Bool.toNat_true,
        Bool.toNat_false] at hp hc
      exact ⟨by simpa using hseq, by dsimp only; omega, by dsimp only; omega⟩
  | completes k now call result measured found running ok =>
      have hp := callsIn_set found (.ended result w.steps) CallPhase.isPending
      have hc := callsIn_set found (.ended result w.steps) CallPhase.isCompleted
      simp only [running, ok, CallPhase.isPending, CallPhase.isCompleted, Bool.toNat_true,
        Bool.toNat_false] at hp hc
      exact ⟨by simpa using hseq, by dsimp only; omega, by dsimp only; omega⟩
  | fails k now call result table found running lost =>
      have hp := callsIn_set found (.ended result w.steps) CallPhase.isPending
      have hc := callsIn_set found (.ended result w.steps) CallPhase.isCompleted
      simp only [running, lost, CallPhase.isPending, CallPhase.isCompleted,
        Bool.toNat_false] at hp hc
      exact ⟨by simpa using hseq, by dsimp only; omega, by dsimp only; omega⟩

/-- **The books balance in every reachable state.** -/
theorem accounting_run {cfg : OpenConfig} {table : Option String} {events : List OpenLoopEvent}
    {w : OpenLoop} (hrun : (openLoop cfg).run { leader := table } events = some w) :
    Accounting w := by
  refine Machine.invariant ?_ (accounting_init table) hrun
  intro s e s' hs hstep
  obtain ⟨v, hv, rfl⟩ := openLoop_step hstep
  obtain ⟨hseq, hinflight, hcompleted⟩ := accounting_step hs hv
  exact ⟨hseq, hinflight, hcompleted⟩

/-! ## The phases of the calls and the events behind them -/

/-- What the call's callback has found. -/
def CallPhase.result? : CallPhase → Option RpcResult
  | .pending => none
  | .running result => some result
  | .ended result _ => some result

def CallPhase.isEnded : CallPhase → Bool
  | .ended _ _ => true
  | _ => false

/-- The phase of call `k`; a call that is not yet issued is as good as pending. -/
def phaseAt (calls : List OpenCall) (k : ℕ) : CallPhase :=
  (calls[k]?.map OpenCall.phase).getD .pending

lemma phaseAt_of_some {calls : List OpenCall} {k : ℕ} {call : OpenCall}
    (found : calls[k]? = some call) : phaseAt calls k = call.phase := by
  rw [phaseAt, found]
  rfl

lemma phaseAt_append (calls : List OpenCall) (call : OpenCall) (hcall : call.phase = .pending) :
    phaseAt (calls ++ [call]) = phaseAt calls := by
  funext k
  rcases lt_trichotomy k calls.length with hk | rfl | hk
  · simp [phaseAt, List.getElem?_append_left hk]
  · simp [phaseAt, hcall]
  · have h₁ : (calls ++ [call])[k]? = none :=
      List.getElem?_eq_none (by rw [List.length_append, List.length_singleton]; omega)
    have h₂ : calls[k]? = none := List.getElem?_eq_none (by omega)
    rw [phaseAt, phaseAt, h₁, h₂]

lemma phaseAt_set {calls : List OpenCall} {k : ℕ} {call : OpenCall}
    (found : calls[k]? = some call) (next : CallPhase) :
    phaseAt (calls.set k { call with phase := next }) = Function.update (phaseAt calls) k next := by
  obtain ⟨hk, -⟩ := List.getElem?_eq_some_iff.mp found
  funext j
  by_cases hj : j = k
  · subst hj
    simp [phaseAt, hk]
  · rw [Function.update_of_ne hj, phaseAt, List.getElem?_set_ne (Ne.symm hj), phaseAt]

/-- A callback has begun, or ended, exactly when the run has an event that says so. -/
structure Traced (events : List OpenLoopEvent) (phases : ℕ → CallPhase) : Prop where
  begun : ∀ k result, .callbackBegin k result ∈ events ↔ (phases k).result? = some result
  ended : ∀ k, (∃ now, .callbackEnd k now ∈ events) ↔ (phases k).isEnded = true

lemma traced_init : Traced [] (phaseAt []) := by
  refine ⟨?_, ?_⟩ <;> simp [phaseAt, CallPhase.result?, CallPhase.isEnded]

/-- Events other than a callback's leave the trace as it is. -/
lemma Traced.push {events : List OpenLoopEvent} {phases : ℕ → CallPhase} {e : OpenLoopEvent}
    (h : Traced events phases) (hbegin : ∀ k result, e ≠ .callbackBegin k result)
    (hend : ∀ k now, e ≠ .callbackEnd k now) : Traced (events ++ [e]) phases := by
  refine ⟨?_, ?_⟩
  · intro k result
    rw [List.mem_append, List.mem_singleton, h.begun]
    exact or_iff_left fun heq => hbegin k result heq.symm
  · intro k
    rw [← h.ended]
    refine exists_congr fun now => ?_
    rw [List.mem_append, List.mem_singleton]
    exact or_iff_left fun heq => hend k now heq.symm

lemma Traced.pushBegin {events : List OpenLoopEvent} {phases : ℕ → CallPhase} {k : ℕ}
    (h : Traced events phases) (hpending : phases k = .pending) (result : RpcResult) :
    Traced (events ++ [.callbackBegin k result]) (Function.update phases k (.running result)) := by
  refine ⟨?_, ?_⟩
  · intro j r
    rw [List.mem_append, List.mem_singleton, h.begun]
    by_cases hj : j = k
    · subst hj
      simp [hpending, CallPhase.result?, eq_comm]
    · simp [hj]
  · intro j
    have hsame : (∃ now, OpenLoopEvent.callbackEnd j now
        ∈ events ++ [.callbackBegin k result]) ↔ ∃ now, .callbackEnd j now ∈ events := by
      simp
    rw [hsame, h.ended]
    by_cases hj : j = k
    · subst hj
      simp [hpending, CallPhase.isEnded]
    · rw [Function.update_of_ne hj]

lemma Traced.pushEnd {events : List OpenLoopEvent} {phases : ℕ → CallPhase} {k : ℕ}
    {result : RpcResult} (h : Traced events phases) (hrunning : phases k = .running result)
    (now : ℤ) (t : ℕ) :
    Traced (events ++ [.callbackEnd k now]) (Function.update phases k (.ended result t)) := by
  refine ⟨?_, ?_⟩
  · intro j r
    have hsame : OpenLoopEvent.callbackBegin j r ∈ events ++ [.callbackEnd k now]
        ↔ .callbackBegin j r ∈ events := by
      simp
    rw [hsame, h.begun]
    by_cases hj : j = k
    · subst hj
      simp [hrunning, CallPhase.result?]
    · rw [Function.update_of_ne hj]
  · intro j
    by_cases hj : j = k
    · subst hj
      simp only [Function.update_self, CallPhase.isEnded, iff_true]
      exact ⟨now, by simp⟩
    · rw [Function.update_of_ne hj, ← h.ended]
      simp [hj]

lemma traced_step {cfg : OpenConfig} {w v : OpenLoop} {e : OpenLoopEvent}
    {events : List OpenLoopEvent} (h : Traced events (phaseAt w.calls))
    (hstep : OpenLoopStep cfg w e v) : Traced (events ++ [e]) (phaseAt v.calls) := by
  cases hstep with
  | begins k call result found pending =>
      rw [phaseAt_set found]
      exact h.pushBegin ((phaseAt_of_some found).trans pending) result
  | completes k now call result measured found running ok =>
      rw [phaseAt_set found]
      exact h.pushEnd ((phaseAt_of_some found).trans running) now w.steps
  | fails k now call result table found running lost =>
      rw [phaseAt_set found]
      exact h.pushEnd ((phaseAt_of_some found).trans running) now w.steps
  | issues now scheduled i channel lag pc =>
      rw [phaseAt_append _ _ rfl]
      exact h.push (by simp) (by simp)
  | _ => exact h.push (by simp) (by simp)

lemma traced_run {cfg : OpenConfig} {table : Option String} {events : List OpenLoopEvent}
    {w : OpenLoop} (hrun : (openLoop cfg).run { leader := table } events = some w) :
    Traced events (phaseAt w.calls) := by
  refine Machine.invariant_trace (I := fun es s => Traced es (phaseAt s.calls)) traced_init ?_ hrun
  intro es e s s' _ hs hstep
  obtain ⟨v, hv, rfl⟩ := openLoop_step hstep
  have hnext : Traced (es ++ [e]) (phaseAt v.calls) := traced_step hs hv
  exact hnext

/-! ## The summary -/

/-- The call is visible in the summary, as completed or as unanswered. -/
def CallPhase.isVisible (phase : CallPhase) : Bool := phase.isPending || phase.isCompleted

lemma CallPhase.toNat_isVisible (phase : CallPhase) :
    phase.isPending.toNat + phase.isCompleted.toNat = phase.isVisible.toNat := by
  cases phase with
  | pending => rfl
  | running result => rfl
  | ended result t => simp [isVisible, isPending]

lemma callsIn_visible (calls : List OpenCall) :
    callsIn calls CallPhase.isPending + callsIn calls CallPhase.isCompleted
      = callsIn calls CallPhase.isVisible := by
  induction calls with
  | nil => rfl
  | cons call calls ih =>
      have hcall := call.phase.toNat_isVisible
      simp only [callsIn_cons]
      omega

/-- Every call is visible exactly when every callback that began completed its call and ended. -/
lemma all_visible_iff {events : List OpenLoopEvent} {calls : List OpenCall}
    (h : Traced events (phaseAt calls)) :
    (∀ call ∈ calls, call.phase.isVisible = true) ↔
      ∀ k result, .callbackBegin k result ∈ events →
        result.completes = true ∧ ∃ now, .callbackEnd k now ∈ events := by
  constructor
  · intro hall k result hbegin
    rw [h.begun] at hbegin
    rw [h.ended]
    cases hcall : calls[k]? with
    | none => simp [phaseAt, hcall, CallPhase.result?] at hbegin
    | some call =>
        have hvisible := hall call (List.mem_of_getElem? hcall)
        rw [phaseAt_of_some hcall] at hbegin ⊢
        cases hphase : call.phase with
        | pending => simp [hphase, CallPhase.result?] at hbegin
        | running r => simp [hphase, CallPhase.isVisible, CallPhase.isPending,
            CallPhase.isCompleted] at hvisible
        | ended r t =>
            rw [hphase] at hvisible hbegin
            obtain rfl := Option.some.inj hbegin
            exact ⟨hvisible, rfl⟩
  · intro hall call hcall
    obtain ⟨k, hk⟩ := List.getElem?_of_mem hcall
    have hphaseAt := phaseAt_of_some hk
    cases hphase : call.phase with
    | pending => rfl
    | running result =>
        rw [hphase] at hphaseAt
        have hended := (hall k result ((h.begun k result).mpr (by rw [hphaseAt]; rfl))).2
        rw [h.ended, hphaseAt] at hended
        simp [CallPhase.isEnded] at hended
    | ended result t =>
        rw [hphase] at hphaseAt
        exact (hall k result ((h.begun k result).mpr (by rw [hphaseAt]; rfl))).1

/-- **When the summary covers every request.**  Where the drain loop ends, the sequence numbers
gone through are the dropped, the completed and the unanswered ones exactly when every callback
that has begun found a completed call and ran to its end: a failed or redirected call is in none of
the three counters, nor is one whose callback stands between its two updates. -/
theorem summary_balances_iff (cfg : OpenConfig) (table : Option String)
    (events : List OpenLoopEvent) (w : OpenLoop)
    (hrun : (openLoop cfg).run { leader := table } events = some w) (hdone : w.pc = .done) :
    (w.sequence : ℤ) = w.dropped + w.completed + w.inflight ↔
      ∀ k result, .callbackBegin k result ∈ events →
        result.completes = true ∧ ∃ now, .callbackEnd k now ∈ events := by
  obtain ⟨hseq, hinflight, hcompleted⟩ := accounting_run hrun
  rw [hdone] at hseq hinflight
  simp only [SchedulerPc.issuing, SchedulerPc.counting] at hseq hinflight
  have hvisible := callsIn_visible w.calls
  rw [← all_visible_iff (traced_run hrun)]
  calc (w.sequence : ℤ) = w.dropped + w.completed + w.inflight
      ↔ callsIn w.calls CallPhase.isVisible = w.calls.length := by omega
    _ ↔ ∀ call ∈ w.calls, call.phase.isVisible = true := List.countP_eq_length

/-- One request over the whole run: rate, burst and cap 1, and an end at the first instant. -/
def oneRequest : OpenConfig := .eachSecond 0

/-- The request is sent, its callback finds `result`, and the loop drains. -/
def oneRequestRun (result : RpcResult) : List OpenLoopEvent :=
  [.scheduler 0, .refresh none true, .scheduler 0, .scheduler 0, .scheduler 0, .scheduler 0,
    .scheduler 0, .callbackBegin 0 result, .callbackEnd 0 0, .scheduler 1, .scheduler 1,
    .scheduler 1]

/-- The program counter and the counters where a run ends. -/
def OpenLoop.books (w : OpenLoop) : SchedulerPc × ℕ × ℕ × ℕ × ℤ :=
  (w.pc, w.sequence, w.dropped, w.completed, w.inflight)

/-- A request whose callback completes is in the summary. -/
theorem summary_balances_answered :
    ∃ w, (openLoop oneRequest).run { leader := some "a" }
        (oneRequestRun (.answered { success := true, oldValue := some 0 })) = some w ∧
      w.pc = .done ∧ (w.sequence : ℤ) = w.dropped + w.completed + w.inflight := by
  have hbooks : ((openLoop oneRequest).run { leader := some "a" }
      (oneRequestRun (.answered { success := true, oldValue := some 0 }))).map OpenLoop.books
      = some (.done, 1, 0, 1, 0) := by
    decide +kernel
  obtain ⟨w, hrun, hw⟩ := Option.map_eq_some_iff.mp hbooks
  have hdone : w.pc = .done := congrArg Prod.fst hw
  refine ⟨w, hrun, hdone, ?_⟩
  refine (summary_balances_iff oneRequest (some "a") _ w hrun hdone).mpr ?_
  intro k result hbegin
  simp only [oneRequestRun, List.mem_cons, reduceCtorEq, OpenLoopEvent.callbackBegin.injEq,
    List.not_mem_nil, false_or, or_false] at hbegin
  obtain ⟨rfl, rfl⟩ := hbegin
  exact ⟨rfl, 0, by simp [oneRequestRun]⟩

/-- A request that times out is in none of the counters. -/
theorem summary_loses_failed_request :
    ¬ ∀ (cfg : OpenConfig) (table : Option String) (events : List OpenLoopEvent) (w : OpenLoop),
      (openLoop cfg).run { leader := table } events = some w → w.pc = .done →
        (w.sequence : ℤ) = w.dropped + w.completed + w.inflight := by
  intro h
  have hbooks : ((openLoop oneRequest).run { leader := some "a" }
      (oneRequestRun .failed)).map OpenLoop.books = some (.done, 1, 0, 0, 0) := by
    decide +kernel
  obtain ⟨w, hrun, hw⟩ := Option.map_eq_some_iff.mp hbooks
  simp only [OpenLoop.books, Prod.mk.injEq] at hw
  obtain ⟨hdone, hseq, hdropped, hcompleted, hinflight⟩ := hw
  have hbalance := h oneRequest (some "a") (oneRequestRun .failed) w hrun hdone
  omega

end RaftBench.Braft

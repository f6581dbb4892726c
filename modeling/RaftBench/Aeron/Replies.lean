import RaftBench.Aeron.ClosedLoop

/-!
# Every lost, duplicated or reordered reply shows

`onMessage` compares each reply's correlation id with the one it expects and, after a mismatch,
goes on from the id it got; `inFlight` is decremented for any reply whatever its id.  A loss and a
duplicate can cancel in the second counter and the first resynchronises, so neither is enough
alone.

`Replied` ties the fields to the list of the ids delivered so far.  It is kept by every step that
touches the fields, in both loops, and at the end says that both counters are zero exactly when
the ids delivered are those of the accepted messages, in order.
-/

namespace RaftBench.Aeron

def OpenLoopEvent.delivered? : OpenLoopEvent → Option ℤ
  | .message m _ => some m.correlationId
  | _ => none

/-- The correlation ids `onMessage` was called with. -/
def delivered (events : List OpenLoopEvent) : List ℤ :=
  events.filterMap OpenLoopEvent.delivered?

/-- The ids of `n` messages in the order they were accepted. -/
def firstIds (n : ℕ) : List ℤ := (List.range n).map Int.ofNat

lemma delivered_concat (events : List OpenLoopEvent) (e : OpenLoopEvent) :
    delivered (events ++ [e]) = delivered events ++ e.delivered?.toList := by
  rw [delivered, List.filterMap_append, ← delivered]
  cases e <;> rfl

@[simp] lemma length_firstIds (n : ℕ) : (firstIds n).length = n := by
  simp [firstIds]

lemma firstIds_succ (n : ℕ) : firstIds (n + 1) = firstIds n ++ [(n : ℤ)] := by
  rw [firstIds, List.range_succ, List.map_append]
  rfl

/-! ## The counters and the ids behind them -/

/-- What the fields say about the ids delivered. -/
structure Replied (ids : List ℤ) (g : Loadgen) : Prop where
  inFlight : g.inFlight = g.sent.length - ids.length
  nextId : g.nextCorrelationId = g.sent.length
  matched : g.mismatches = 0 ↔ ids = firstIds ids.length
  expected : g.mismatches = 0 → g.expectedCorrelationId = ids.length

lemma replied_init : Replied [] {} := ⟨rfl, rfl, by simp [firstIds], fun _ => rfl⟩

/-- The fields that accounting is about, and nothing else, decide `Replied`. -/
lemma Replied.frame {ids : List ℤ} {g g' : Loadgen} (h : Replied ids g)
    (hin : g'.inFlight = g.inFlight) (hnext : g'.nextCorrelationId = g.nextCorrelationId)
    (hsent : g'.sent = g.sent) (hmismatches : g'.mismatches = g.mismatches)
    (hexpected : g'.expectedCorrelationId = g.expectedCorrelationId) : Replied ids g' := by
  obtain ⟨h1, h2, h3, h4⟩ := h
  refine ⟨?_, ?_, ?_, ?_⟩
  · rw [hin, hsent, h1]
  · rw [hnext, hsent, h2]
  · rw [hmismatches, h3]
  · rw [hmismatches, hexpected]
    exact h4

/-- An accepted offer. -/
lemma Replied.accept {ids : List ℤ} {g g' : Loadgen} (h : Replied ids g) {m : Message}
    (hin : g'.inFlight = g.inFlight + 1) (hnext : g'.nextCorrelationId = g.nextCorrelationId + 1)
    (hsent : g'.sent = g.sent ++ [m]) (hmismatches : g'.mismatches = g.mismatches)
    (hexpected : g'.expectedCorrelationId = g.expectedCorrelationId) : Replied ids g' := by
  obtain ⟨h1, h2, h3, h4⟩ := h
  refine ⟨?_, ?_, ?_, ?_⟩
  · rw [hin, hsent, h1, List.length_append, List.length_singleton]
    omega
  · rw [hnext, hsent, h2, List.length_append, List.length_singleton]
    omega
  · rw [hmismatches, h3]
  · rw [hmismatches, hexpected]
    exact h4

/-- **A reply.**  The ids stay the first ones exactly when the new one is the next. -/
lemma Replied.reply {ids : List ℤ} {g : Loadgen} (h : Replied ids g) (m : Message) (now : ℤ) :
    Replied (ids ++ [m.correlationId]) (g.onMessage m now) := by
  obtain ⟨h1, h2, h3, h4⟩ := h
  have hsplit : ids ++ [m.correlationId] = firstIds (ids ++ [m.correlationId]).length ↔
      ids = firstIds ids.length ∧ m.correlationId = ids.length := by
    rw [List.length_append, List.length_singleton, firstIds_succ]
    constructor
    · intro heq
      obtain ⟨hids, hid⟩ := List.append_inj' heq rfl
      exact ⟨hids, List.singleton_inj.mp hid⟩
    · rintro ⟨hids, hid⟩
      rw [← hids, hid]
  by_cases hm : m.correlationId = g.expectedCorrelationId
  · have hmessage : g.onMessage m now = { g with
        inFlight := g.inFlight - 1
        completed := g.completed + 1
        recorder := g.recorder ++ [clampNanos (now - m.stampNanos)]
        expectedCorrelationId := g.expectedCorrelationId + 1 } := by
      simp only [Loadgen.onMessage, ne_eq, hm, not_true, if_false]
    rw [hmessage]
    refine ⟨?_, h2, ?_, ?_⟩
    · rw [List.length_append, List.length_singleton]
      dsimp only
      omega
    · rw [hsplit]
      dsimp only
      constructor
      · intro hzero
        exact ⟨h3.mp hzero, hm.trans (h4 hzero)⟩
      · rintro ⟨hids, -⟩
        exact h3.mpr hids
    · intro hzero
      have := h4 hzero
      rw [List.length_append, List.length_singleton]
      dsimp only
      omega
  · have hmessage : g.onMessage m now = { g with
        inFlight := g.inFlight - 1
        completed := g.completed + 1
        recorder := g.recorder ++ [clampNanos (now - m.stampNanos)]
        mismatches := g.mismatches + 1
        expectedCorrelationId := m.correlationId + 1 } := by
      simp only [Loadgen.onMessage, ne_eq, hm, not_false_eq_true, if_true]
    rw [hmessage]
    refine ⟨?_, h2, ?_, ?_⟩
    · rw [List.length_append, List.length_singleton]
      dsimp only
      omega
    · rw [hsplit]
      refine iff_of_false (Nat.succ_ne_zero _) ?_
      rintro ⟨hids, hid⟩
      exact hm (hid.trans (h4 (h3.mpr hids)).symm)
    · intro hzero
      exact absurd hzero (Nat.succ_ne_zero _)

/-- Both counters are zero exactly when every accepted message came back, once and in order. -/
lemma Replied.zero_iff {ids : List ℤ} {g : Loadgen} (h : Replied ids g) :
    g.mismatches = 0 ∧ g.inFlight = 0 ↔ ids = firstIds g.sent.length := by
  rw [h.matched, h.inFlight]
  constructor
  · rintro ⟨hids, hin⟩
    have hlength : g.sent.length = ids.length := by omega
    rw [hlength]
    exact hids
  · intro hids
    have hlength : ids.length = g.sent.length := by
      rw [hids, length_firstIds]
    refine ⟨?_, ?_⟩
    · rw [hlength]
      exact hids
    · omega

/-! ## The open loop -/

lemma replied_openLoop_step {cfg : Config} {events : List OpenLoopEvent} {w v : OpenLoop}
    {e : OpenLoopEvent} (h : Replied (delivered events) w.gen) (hstep : OpenLoopStep cfg w e v) :
    Replied (delivered (events ++ [e])) v.gen := by
  rw [delivered_concat]
  cases hstep with
  | ends | quits | starts | waits | closes | polled | drainPolled | drains | drainPolls | drained =>
      simpa [OpenLoopEvent.delivered?] using h
  | sends now i pc more room =>
      simp only [OpenLoopEvent.delivered?, Option.toList_none, List.append_nil]
      exact h.accept rfl rfl rfl rfl rfl
  | drops now accepted i pc more refused =>
      simp only [OpenLoopEvent.delivered?, Option.toList_none, List.append_nil]
      exact h.frame rfl rfl rfl rfl rfl
  | receives m now deadline pc => exact h.reply m now

lemma replied_openLoop {cfg : Config} {events : List OpenLoopEvent} {w : OpenLoop}
    (hrun : (openLoop cfg).run (.init cfg) events = some w) :
    Replied (delivered events) w.gen := by
  refine Machine.invariant_trace (I := fun es (w : OpenLoop) => Replied (delivered es) w.gen)
    (s := (OpenLoop.init cfg)) replied_init ?_ hrun
  intro es e t t' _ ht hstep
  exact replied_openLoop_step ht (openLoop_step hstep)

/-- Every scheduled message is sent or dropped. -/
lemma sequence_openLoop {cfg : Config} {events : List OpenLoopEvent} {w : OpenLoop}
    (hrun : (openLoop cfg).run (.init cfg) events = some w) :
    w.sequence = w.gen.droppedByRig + w.gen.sent.length := by
  refine Machine.invariant
    (I := fun w : OpenLoop => w.sequence = w.gen.droppedByRig + w.gen.sent.length) ?_ rfl hrun
  intro s e s' hs hstep
  cases openLoop_step hstep with
  | ends | quits | starts | waits | closes | polled | drainPolled | drains | drainPolls | drained =>
      exact hs
  | sends now i pc more room =>
      dsimp only
      rw [List.length_append, List.length_singleton, hs]
      omega
  | drops now accepted i pc more refused =>
      dsimp only
      omega
  | receives m now deadline pc =>
      dsimp only [Loadgen.onMessage]
      split_ifs <;> exact hs

/-! ## The closed loop -/

lemma replied_closedLoop_step {cfg : ClosedConfig} {events : List OpenLoopEvent}
    {w v : ClosedLoop} {e : OpenLoopEvent} (h : Replied (delivered events) w.gen)
    (hstep : ClosedLoopStep cfg w e v) : Replied (delivered (events ++ [e])) v.gen := by
  rw [delivered_concat]
  cases hstep with
  | moves | quits => simpa [OpenLoopEvent.delivered?] using h
  | sends now pc room =>
      simp only [OpenLoopEvent.delivered?, Option.toList_none, List.append_nil]
      exact h.accept rfl rfl rfl rfl rfl
  | receives m now deadline pc => exact h.reply m now

lemma replied_closedLoop {cfg : ClosedConfig} {events : List OpenLoopEvent} {w : ClosedLoop}
    (hrun : (closedLoop cfg).run {} events = some w) : Replied (delivered events) w.gen := by
  refine Machine.invariant_trace (I := fun es (w : ClosedLoop) => Replied (delivered es) w.gen)
    (s := ({} : ClosedLoop)) replied_init ?_ hrun
  intro es e t t' _ ht hstep
  exact replied_closedLoop_step ht (closedLoop_step hstep)

/-! ## Both loops -/

/-- **Reply accounting.**  At every point of a run of either loop `inFlight` is the number of
accepted offers less the number of replies, in open mode every scheduled message was accepted or
dropped, and both counters are zero exactly when the ids delivered are `0, 1, …, n - 1` in this
order, `n` being the number of accepted offers. -/
theorem replies_accounted :
    (∀ (cfg : Config) (events : List OpenLoopEvent) (w : OpenLoop),
      (openLoop cfg).run (.init cfg) events = some w →
        w.gen.inFlight = w.gen.sent.length - (delivered events).length ∧
        w.sequence = w.gen.droppedByRig + w.gen.sent.length ∧
        (w.gen.mismatches = 0 ∧ w.gen.inFlight = 0 ↔
          delivered events = firstIds w.gen.sent.length)) ∧
    (∀ (cfg : ClosedConfig) (events : List OpenLoopEvent) (w : ClosedLoop),
      (closedLoop cfg).run {} events = some w →
        w.gen.inFlight = w.gen.sent.length - (delivered events).length ∧
        (w.gen.mismatches = 0 ∧ w.gen.inFlight = 0 ↔
          delivered events = firstIds w.gen.sent.length)) := by
  refine ⟨?_, ?_⟩
  · intro cfg events w hrun
    have hreplied := replied_openLoop hrun
    exact ⟨hreplied.inFlight, sequence_openLoop hrun, hreplied.zero_iff⟩
  · intro cfg events w hrun
    have hreplied := replied_closedLoop hrun
    exact ⟨hreplied.inFlight, hreplied.zero_iff⟩

/-- Two requests outstanding, and a reply that comes back twice in place of one that is lost. -/
theorem replies_accounted_of_duplicate :
    ∃ w, (closedLoop ⟨1, 2, 9, 0, one_le_two⟩).run {}
        [.sender 0 true, .sender 1 true, .sender 2 true, .sender 3 true, .message ⟨0, 1⟩ 4,
          .message ⟨0, 1⟩ 5] = some w ∧
      w.gen.inFlight = 0 ∧ w.gen.mismatches ≠ 0 := by
  have hrun : ((closedLoop ⟨1, 2, 9, 0, one_le_two⟩).run {}
      [.sender 0 true, .sender 1 true, .sender 2 true, .sender 3 true, .message ⟨0, 1⟩ 4,
        .message ⟨0, 1⟩ 5]).map (fun w => w.gen.sent.length) = some 2 := by
    decide +kernel
  obtain ⟨w, hw, hsent⟩ := Option.map_eq_some_iff.mp hrun
  obtain ⟨hin, hzero⟩ := replies_accounted.2 _ _ w hw
  have hin' : w.gen.inFlight = 0 := by
    rw [hin, hsent]
    decide
  refine ⟨w, hw, hin', fun hmismatches => ?_⟩
  have hids := hzero.mp ⟨hmismatches, hin'⟩
  rw [hsent] at hids
  exact absurd hids (by decide)

end RaftBench.Aeron

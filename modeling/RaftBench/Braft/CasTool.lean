import RaftBench.Lib.Update
import RaftBench.Braft.Sender

/-!
# The compare-exchange of the test tool

`cas()` of `braft/test.cpp` sends one compare-exchange and sends it again until it gets a verdict:
`0` when the server swapped the value, `EIO` when it found another one, `ETIMEDOUT` when the call
timed out.  A call that fails in any other way, and one that is answered with a redirect, is
repeated.

The server may have applied an attempt that the tool has given up, or may apply it later.  So every
attempt sent is kept, each may be applied once at any step, and the answer the tool sees is that of
its latest attempt.  `CasAttempt.changed` records whether an application changed the value.

A repeated compare-exchange that finds its own earlier effect reports `EIO`.  `verdict_run` has the
condition under which the verdict is right (no attempt that is given up changes the value), and
what the verdict is worth without it: `0` is always right, and `EIO` is right exactly when the value
was another one to begin with.
-/

namespace RaftBench.Braft

/-! ## The machine -/

/-- What `cas()` returns. -/
inductive CasReturn where
  | ok
  | eio
  | etimedout
  deriving DecidableEq, Repr

inductive CasPhase where
  | looping
  | awaiting (attempt : ℕ)
  | returned (rc : CasReturn)
  deriving DecidableEq, Repr

def CasPhase.isReturned : CasPhase → Bool
  | .returned _ => true
  | _ => false

/-- An attempt that was sent: the server's response, once it is applied, and whether that changed
the value. -/
structure CasAttempt where
  response : Option AtomicResponse := none
  changed : Bool := false
  deriving DecidableEq, Repr

/-- One call of `cas()` and the replicated map; `leader` is the route table's entry. -/
structure CasCall where
  map : ValueMap
  leader : Option String := none
  attempts : List CasAttempt := []
  phase : CasPhase := .looping

inductive CasEvent where
  /-- no leader is known and `refresh_leader` returns -/
  | refreshLeader (found : Option String)
  /-- `channel.Init` fails -/
  | initFailed
  /-- the request is sent -/
  | send
  /-- raft applies attempt `n` -/
  | apply (n : ℕ)
  /-- raft applies an entry of somebody else -/
  | applyOther (message : Message)
  /-- the answer to the latest attempt arrives -/
  | reply
  /-- the latest attempt is answered with a redirect -/
  | redirected (leader : Option String)
  /-- the latest attempt fails, with `ERPCTIMEDOUT` or otherwise -/
  | failed (timedOut : Bool)
  deriving DecidableEq, Repr

/-- The loop body behind a call that did not fail. -/
def CasCall.onResponse (w : CasCall) (response : AtomicResponse) : CasCall :=
  if !response.success then
    match response.oldValue with
    | none => { w with leader := response.redirect, phase := .looping }
    | some _ => { w with phase := .returned .eio }
  else { w with phase := .returned .ok }

/-- Attempt `n` is applied: its response, and whether the value of the id is another one now. -/
def CasCall.applied (w : CasCall) (request : CompareExchangeRequest) (n : ℕ) : CasCall :=
  let (map, response) := casOn w.map request {}
  let changed := decide (valueOf map request.id ≠ valueOf w.map request.id)
  { w with map := map, attempts := w.attempts.set n ⟨some response, changed⟩ }

/-- `cas(id, old_value, new_value)`. -/
def casCall (id oldValue newValue : Int64) : Machine CasCall CasEvent where
  step w
    | .refreshLeader found =>
        if w.phase = .looping ∧ w.leader = none then some { w with leader := found } else none
    | .initFailed => if w.phase = .looping ∧ w.leader ≠ none then some w else none
    | .send =>
        if w.phase = .looping ∧ w.leader ≠ none then
          some { w with
            attempts := w.attempts ++ [{}], phase := .awaiting w.attempts.length }
        else none
    | .apply n =>
        if w.attempts[n]? = some {} then some (w.applied ⟨id, oldValue, newValue⟩ n) else none
    | .applyOther m =>
        if m.Spares id then some { w with map := (execute w.map m).1 } else none
    | .reply =>
        match w.phase with
        | .awaiting n => (w.attempts[n]?.bind CasAttempt.response).map w.onResponse
        | _ => none
    | .redirected leader =>
        match w.phase with
        | .awaiting _ => some (w.onResponse (Atomic.redirect { leaderId := leader } {}))
        | _ => none
    | .failed timedOut =>
        match w.phase with
        | .awaiting _ =>
            if timedOut then some { w with phase := .returned .etimedout }
            else some { w with leader := none, phase := .looping }
        | _ => none

/-! ## What one step can do -/

/-- The possible steps.  Looking for a leader moves nothing but the route table, and a failed call
and a redirect give the attempt up in the same way. -/
inductive CasStep (id oldValue newValue : Int64) (w : CasCall) : CasEvent → CasCall → Prop where
  | searches {e : CasEvent} (table : Option String) :
      CasStep id oldValue newValue w e { w with leader := table }
  | sends (phase : w.phase = .looping) :
      CasStep id oldValue newValue w .send
        { w with attempts := w.attempts ++ [{}], phase := .awaiting w.attempts.length }
  | applies (n : ℕ) (sent : w.attempts[n]? = some {}) :
      CasStep id oldValue newValue w (.apply n) (w.applied ⟨id, oldValue, newValue⟩ n)
  | appliesOther (m : Message) (spares : m.Spares id) :
      CasStep id oldValue newValue w (.applyOther m) { w with map := (execute w.map m).1 }
  | replies (n : ℕ) (attempt : CasAttempt) (response : AtomicResponse)
      (phase : w.phase = .awaiting n) (found : w.attempts[n]? = some attempt)
      (answered : attempt.response = some response) :
      CasStep id oldValue newValue w .reply (w.onResponse response)
  | givesUp {e : CasEvent} (n : ℕ) (table : Option String) (phase : w.phase = .awaiting n)
      (which : e = .failed false ∨ ∃ leader, e = .redirected leader) :
      CasStep id oldValue newValue w e { w with leader := table, phase := .looping }
  | timesOut (n : ℕ) (phase : w.phase = .awaiting n) :
      CasStep id oldValue newValue w (.failed true) { w with phase := .returned .etimedout }

theorem casCall_step {id oldValue newValue : Int64} {w w' : CasCall} {e : CasEvent}
    (hstep : (casCall id oldValue newValue).step w e = some w') :
    CasStep id oldValue newValue w e w' := by
  cases e with
  | refreshLeader found =>
      simp only [casCall, Option.ite_none_right_eq_some, Option.some.injEq] at hstep
      obtain ⟨-, rfl⟩ := hstep
      exact .searches found
  | initFailed =>
      simp only [casCall, Option.ite_none_right_eq_some, Option.some.injEq] at hstep
      obtain ⟨-, rfl⟩ := hstep
      exact .searches w.leader
  | send =>
      simp only [casCall, Option.ite_none_right_eq_some, Option.some.injEq] at hstep
      obtain ⟨⟨hphase, -⟩, rfl⟩ := hstep
      exact .sends hphase
  | apply n =>
      simp only [casCall, Option.ite_none_right_eq_some, Option.some.injEq] at hstep
      obtain ⟨hsent, rfl⟩ := hstep
      exact .applies n hsent
  | applyOther m =>
      simp only [casCall, Option.ite_none_right_eq_some, Option.some.injEq] at hstep
      obtain ⟨hspares, rfl⟩ := hstep
      exact .appliesOther m hspares
  | reply =>
      simp only [casCall] at hstep
      split at hstep
      · next n hphase =>
          obtain ⟨response, hresponse, rfl⟩ := Option.map_eq_some_iff.mp hstep
          obtain ⟨attempt, hfound, hanswered⟩ := Option.bind_eq_some_iff.mp hresponse
          exact .replies n attempt response hphase hfound hanswered
      · simp at hstep
  | redirected leader =>
      simp only [casCall] at hstep
      split at hstep
      · next n hphase =>
          obtain rfl := Option.some.inj hstep
          have hredirect : w.onResponse (Atomic.redirect { leaderId := leader } {})
              = { w with leader := leader, phase := .looping } := by
            cases leader <;> rfl
          rw [hredirect]
          exact .givesUp n leader hphase (.inr ⟨leader, rfl⟩)
      · simp at hstep
  | failed timedOut =>
      simp only [casCall] at hstep
      split at hstep
      · next n hphase =>
          cases timedOut with
          | true =>
              obtain rfl := Option.some.inj hstep
              exact .timesOut n hphase
          | false =>
              obtain rfl := Option.some.inj hstep
              exact .givesUp n none hphase (.inl rfl)
      · simp at hstep

/-! ## Applying an attempt -/

/-- The attempts that changed the value. -/
def CasCall.changes (w : CasCall) : ℕ := w.attempts.countP CasAttempt.changed

/-- An application swaps the value in, succeeds and counts as a change, or it finds another value,
fails and leaves it. -/
lemma CasCall.applied_cases (w : CasCall) (id : Int64) {oldValue newValue : Int64}
    (hne : oldValue ≠ newValue) (n : ℕ) :
    ∃ response, response.oldValue ≠ none ∧
      ((valueOf w.map id = oldValue ∧ response.success = true ∧
          valueOf (w.applied ⟨id, oldValue, newValue⟩ n).map id = newValue ∧
          (w.applied ⟨id, oldValue, newValue⟩ n).attempts
            = w.attempts.set n ⟨some response, true⟩) ∨
        (valueOf w.map id ≠ oldValue ∧ response.success = false ∧
          valueOf (w.applied ⟨id, oldValue, newValue⟩ n).map id = valueOf w.map id ∧
          (w.applied ⟨id, oldValue, newValue⟩ n).attempts
            = w.attempts.set n ⟨some response, false⟩)) := by
  have hvalue := valueOf_casOn w.map ⟨id, oldValue, newValue⟩ {}
  refine ⟨(casOn w.map ⟨id, oldValue, newValue⟩ {}).2, ?_, ?_⟩
  · rw [casOn_response]
    simp
  · by_cases h : valueOf w.map id = oldValue
    · left
      rw [if_pos h] at hvalue
      refine ⟨h, ?_, hvalue, ?_⟩
      · rw [casOn_response]
        exact decide_eq_true h
      · simp only [applied, hvalue, h, ne_eq, hne.symm, not_false_eq_true, decide_true]
    · right
      rw [if_neg h] at hvalue
      refine ⟨h, ?_, hvalue, ?_⟩
      · rw [casOn_response]
        exact decide_eq_false h
      · simp only [applied, hvalue, ne_eq, not_true_eq_false, decide_false]

lemma CasCall.applied_phase (w : CasCall) (request : CompareExchangeRequest) (n : ℕ) :
    (w.applied request n).phase = w.phase := rfl

/-- An attempt that is applied for the first time adds to the changes what it changes. -/
lemma changes_set {attempts : List CasAttempt} {n : ℕ} (sent : attempts[n]? = some {})
    (attempt : CasAttempt) :
    (attempts.set n attempt).countP CasAttempt.changed
      = attempts.countP CasAttempt.changed + attempt.changed.toNat :=
  List.countP_set_add CasAttempt.changed sent attempt

/-! ## What the answers say -/

/-- The answer of an attempt is the truth about that attempt, and a mismatch is still one. -/
structure CasAttempt.Truthful (attempt : CasAttempt) (mismatch : Prop) : Prop where
  executed : ∀ r, attempt.response = some r → r.oldValue ≠ none
  success : ∀ r, attempt.response = some r → r.success = true → attempt.changed = true
  failure : ∀ r, attempt.response = some r → r.success = false →
    attempt.changed = false ∧ mismatch

lemma CasAttempt.Truthful.mono {attempt : CasAttempt} {P Q : Prop} (h : attempt.Truthful P)
    (himp : P → Q) : attempt.Truthful Q :=
  ⟨h.executed, h.success, fun r hr hs => (h.failure r hr hs).imp_right himp⟩

lemma truthful_unanswered (P : Prop) : CasAttempt.Truthful {} P := by
  refine ⟨?_, ?_, ?_⟩ <;> simp

/-- What holds of the call in every reachable state, where `start` is the value it began with. -/
structure CasBooks (id oldValue newValue start : Int64) (w : CasCall) : Prop where
  /-- nobody else writes the id, so the value has been swapped once or never -/
  value : (valueOf w.map id = start ∧ w.changes = 0) ∨
    (start = oldValue ∧ valueOf w.map id = newValue ∧ w.changes = 1)
  truthful : ∀ attempt ∈ w.attempts, attempt.Truthful (valueOf w.map id ≠ oldValue)
  ok : w.phase = .returned .ok → 0 < w.changes
  eio : w.phase = .returned .eio → valueOf w.map id ≠ oldValue

lemma casBooks_init (id oldValue newValue : Int64) (map : ValueMap) (table : Option String) :
    CasBooks id oldValue newValue (valueOf map id) { map := map, leader := table } := by
  refine ⟨.inl ⟨rfl, rfl⟩, ?_, ?_, ?_⟩ <;> simp

section Books

variable {id oldValue newValue start : Int64} {w : CasCall}

lemma CasBooks.applies (h : CasBooks id oldValue newValue start w) (hne : oldValue ≠ newValue)
    {n : ℕ} (sent : w.attempts[n]? = some {}) :
    CasBooks id oldValue newValue start (w.applied ⟨id, oldValue, newValue⟩ n) := by
  obtain ⟨response, hold, ⟨heq, hsuccess, hvalue, hattempts⟩ | ⟨hmiss, hsuccess, hvalue, hattempts⟩⟩
    := w.applied_cases id hne n
  · have hchanges : (w.applied ⟨id, oldValue, newValue⟩ n).changes = w.changes + 1 := by
      rw [CasCall.changes, hattempts, changes_set sent]
      rfl
    rcases h.value with ⟨hstart, hzero⟩ | ⟨-, hnew, -⟩
    · refine ⟨.inr ⟨hstart.symm.trans heq, hvalue, by rw [hchanges, hzero]⟩, ?_, ?_, ?_⟩
      · rw [hattempts, hvalue]
        refine List.forall_set (fun a ha => (h.truthful a ha).mono fun _ => hne.symm) ?_ n
        refine ⟨?_, fun _ _ _ => rfl, ?_⟩
        · rintro r ⟨⟩
          exact hold
        · rintro r ⟨⟩ hfail
          rw [hsuccess] at hfail
          cases hfail
      · intro _
        rw [hchanges]
        exact Nat.succ_pos _
      · intro _
        rw [hvalue]
        exact hne.symm
    · exact absurd (hnew.symm.trans heq) hne.symm
  · have hchanges : (w.applied ⟨id, oldValue, newValue⟩ n).changes = w.changes := by
      rw [CasCall.changes, hattempts, changes_set sent]
      rfl
    refine ⟨by rw [hvalue, hchanges]; exact h.value, ?_, ?_, ?_⟩
    · rw [hattempts, hvalue]
      refine List.forall_set h.truthful ?_ n
      refine ⟨?_, ?_, fun _ _ _ => ⟨rfl, hmiss⟩⟩
      · rintro r ⟨⟩
        exact hold
      · rintro r ⟨⟩ hok
        rw [hsuccess] at hok
        cases hok
    · rw [hchanges]
      exact h.ok
    · rw [hvalue]
      exact h.eio

/-- **Every step keeps the books.** -/
lemma casBooks_step (h : CasBooks id oldValue newValue start w) (hne : oldValue ≠ newValue)
    {e : CasEvent} {w' : CasCall} (hstep : CasStep id oldValue newValue w e w') :
    CasBooks id oldValue newValue start w' := by
  cases hstep with
  | searches => exact ⟨h.value, h.truthful, h.ok, h.eio⟩
  | sends =>
      have hchanges : (w.attempts ++ [({} : CasAttempt)]).countP CasAttempt.changed
          = w.changes := by
        rw [List.countP_append]
        rfl
      refine ⟨?_, List.forall_concat h.truthful (truthful_unanswered _), by simp, by simp⟩
      simp only [CasCall.changes, hchanges]
      exact h.value
  | applies n sent => exact h.applies hne sent
  | appliesOther m spares =>
      have hsame := valueOf_execute_spares spares w.map
      refine ⟨?_, ?_, h.ok, ?_⟩
      · rw [hsame]
        exact h.value
      · rw [hsame]
        exact h.truthful
      · rw [hsame]
        exact h.eio
  | replies n attempt response _ found answered =>
      have hmem := List.mem_of_getElem? found
      have htrue := h.truthful attempt hmem
      unfold CasCall.onResponse
      cases hsuccess : response.success with
      | true =>
          refine ⟨h.value, h.truthful, ?_, by simp⟩
          intro _
          exact List.countP_pos_iff.mpr ⟨attempt, hmem, htrue.success response answered hsuccess⟩
      | false =>
          obtain ⟨found, hfound⟩ := Option.ne_none_iff_exists'.mp (htrue.executed response answered)
          simp only [hfound, Bool.not_false, if_true]
          refine ⟨h.value, h.truthful, by simp, ?_⟩
          intro _
          exact (htrue.failure response answered hsuccess).2
  | givesUp => exact ⟨h.value, h.truthful, by simp, by simp⟩
  | timesOut => exact ⟨h.value, h.truthful, by simp, by simp⟩

end Books

lemma casBooks_run {id oldValue newValue : Int64} (hne : oldValue ≠ newValue) {map : ValueMap}
    {table : Option String} {events : List CasEvent} {w : CasCall}
    (hrun : (casCall id oldValue newValue).run { map := map, leader := table } events = some w) :
    CasBooks id oldValue newValue (valueOf map id) w :=
  Machine.invariant (fun _ _ _ hs hstep => casBooks_step hs hne (casCall_step hstep))
    (casBooks_init id oldValue newValue map table) hrun

/-! ## Attempts that are given up -/

/-- No attempt that is given up changes the value: it has not done so when the call gives it up, and
it is not applied to the expected value while the call is still looping or waits for another one. -/
def GivesUpUnapplied (id oldValue : Int64) (w : CasCall) : CasEvent → Prop
  | .failed false | .redirected _ =>
      ∀ attempt ∈ w.attempts, attempt.changed = false
  | .apply n =>
      w.phase = .awaiting n ∨ w.phase.isReturned = true ∨ valueOf w.map id ≠ oldValue
  | _ => True

instance (id oldValue : Int64) (w : CasCall) :
    (e : CasEvent) → Decidable (GivesUpUnapplied id oldValue w e)
  | .refreshLeader _ => isTrue trivial
  | .initFailed => isTrue trivial
  | .send => isTrue trivial
  | .apply _ => inferInstanceAs (Decidable (_ ∨ _ ∨ _))
  | .applyOther _ => isTrue trivial
  | .reply => isTrue trivial
  | .redirected _ =>
      inferInstanceAs (Decidable (∀ attempt ∈ w.attempts, attempt.changed = false))
  | .failed true => isTrue trivial
  | .failed false =>
      inferInstanceAs (Decidable (∀ attempt ∈ w.attempts, attempt.changed = false))

/-- Only the attempt the call waits for, or the one it has returned for, has changed the value. -/
def Unambiguous (w : CasCall) : Prop :=
  ∀ k attempt, w.attempts[k]? = some attempt → attempt.changed = true →
    w.phase = .awaiting k ∨ w.phase = .returned .ok ∨ w.phase = .returned .etimedout

lemma Unambiguous.unchanged {w : CasCall} (h : Unambiguous w)
    (hphase : w.phase = .looping ∨ w.phase = .returned .eio) :
    ∀ attempt ∈ w.attempts, attempt.changed = false := by
  intro attempt hmem
  obtain ⟨k, hk⟩ := List.getElem?_of_mem hmem
  by_contra hchanged
  have hk := h k attempt hk (by simpa using hchanged)
  rcases hphase with hphase | hphase <;> simp [hphase] at hk

/-- Where nothing has changed the value, every phase is unambiguous. -/
lemma unambiguous_of_unchanged {w : CasCall}
    (h : ∀ attempt ∈ w.attempts, attempt.changed = false) : Unambiguous w := by
  intro k attempt hk hchanged
  rw [h attempt (List.mem_of_getElem? hk)] at hchanged
  cases hchanged

section Unambiguous

variable {id oldValue newValue start : Int64} {w : CasCall}

lemma Unambiguous.applies (h : Unambiguous w) (hb : CasBooks id oldValue newValue start w)
    (hne : oldValue ≠ newValue) {n : ℕ}
    (hC : GivesUpUnapplied id oldValue w (.apply n)) :
    Unambiguous (w.applied ⟨id, oldValue, newValue⟩ n) := by
  intro k attempt hk hchanged
  rw [CasCall.applied_phase]
  obtain ⟨response, -, ⟨heq, -, -, hattempts⟩ | ⟨-, -, -, hattempts⟩⟩ :=
    w.applied_cases id hne n
  · rw [hattempts, List.getElem?_set] at hk
    split_ifs at hk with hkn
    · -- the attempt that has just changed the value
      subst hkn
      rcases hC with hphase | hreturned | hmiss
      · exact .inl hphase
      · cases hphase : w.phase with
        | looping => simp [hphase, CasPhase.isReturned] at hreturned
        | awaiting m => simp [hphase, CasPhase.isReturned] at hreturned
        | returned rc =>
            cases rc with
            | ok => exact .inr (.inl rfl)
            | etimedout => exact .inr (.inr rfl)
            | eio => exact absurd heq (hb.eio hphase)
      · exact absurd heq hmiss
    · exact h k attempt hk hchanged
  · rw [hattempts, List.getElem?_set] at hk
    split_ifs at hk with hkn
    · obtain rfl := Option.some.inj hk
      cases hchanged
    · exact h k attempt hk hchanged

lemma unambiguous_step (h : Unambiguous w) (hb : CasBooks id oldValue newValue start w)
    (hne : oldValue ≠ newValue) {e : CasEvent} {w' : CasCall}
    (hC : GivesUpUnapplied id oldValue w e) (hstep : CasStep id oldValue newValue w e w') :
    Unambiguous w' := by
  cases hstep with
  | searches => exact h
  | sends phase =>
      refine unambiguous_of_unchanged (List.forall_concat ?_ rfl)
      exact h.unchanged (.inl phase)
  | applies n sent => exact h.applies hb hne hC
  | appliesOther => exact h
  | replies n attempt response phase found answered =>
      have htrue := hb.truthful attempt (List.mem_of_getElem? found)
      unfold CasCall.onResponse
      cases hsuccess : response.success with
      | true => exact fun _ _ _ _ => .inr (.inl rfl)
      | false =>
          obtain ⟨value, hvalue⟩ := Option.ne_none_iff_exists'.mp (htrue.executed response answered)
          simp only [hvalue, Bool.not_false, if_true]
          -- the answered attempt changed nothing, and no other one had
          intro k attempt' hk hchanged
          rcases h k attempt' hk hchanged with hk' | hk' | hk'
          · rw [phase, CasPhase.awaiting.injEq] at hk'
            subst hk'
            obtain rfl := Option.some.inj (found.symm.trans hk)
            rw [(htrue.failure response answered hsuccess).1] at hchanged
            cases hchanged
          · simp [phase] at hk'
          · simp [phase] at hk'
  | givesUp n table phase which =>
      refine unambiguous_of_unchanged ?_
      rcases which with rfl | ⟨leader, rfl⟩
      · exact hC
      · exact hC
  | timesOut => exact fun _ _ _ _ => .inr (.inr rfl)

end Unambiguous

lemma unambiguous_run {id oldValue newValue : Int64} (hne : oldValue ≠ newValue) {map : ValueMap}
    {table : Option String} {events : List CasEvent} {w : CasCall}
    (hrun : (casCall id oldValue newValue).run { map := map, leader := table } events = some w)
    (hC : (casCall id oldValue newValue).Along (GivesUpUnapplied id oldValue)
      { map := map, leader := table } events) : Unambiguous w := by
  have hboth : CasBooks id oldValue newValue (valueOf map id) w ∧ Unambiguous w := by
    refine Machine.invariant_along
      (I := fun s => CasBooks id oldValue newValue (valueOf map id) s ∧ Unambiguous s) ?_
      ⟨casBooks_init id oldValue newValue map table, unambiguous_of_unchanged (by simp)⟩ hC hrun
    intro s e s' hs he hstep
    have hcases := casCall_step hstep
    exact ⟨casBooks_step hs.1 hne hcases, unambiguous_step hs.2 hs.1 hne he hcases⟩
  exact hboth.2

/-! ## The verdict -/

/-- The verdict, if the call has returned one, is true: `EIO` only when no attempt has changed the
value, `0` only when exactly one has. -/
structure TrueVerdict (w : CasCall) : Prop where
  eio : w.phase = .returned .eio → ∀ attempt ∈ w.attempts, attempt.changed = false
  ok : w.phase = .returned .ok → w.changes = 1

/-- **When the verdict is true.**  In every run in which no attempt that is given up changes the
value, the verdict is true in every state.  In any run at all a `0` is true, and an `EIO` exactly
when the value was not the expected one to begin with. -/
theorem verdict_run (id oldValue newValue : Int64) (hne : oldValue ≠ newValue) (map : ValueMap)
    (table : Option String) (events : List CasEvent) (w : CasCall)
    (hrun : (casCall id oldValue newValue).run { map := map, leader := table } events = some w) :
    ((casCall id oldValue newValue).Along (GivesUpUnapplied id oldValue)
        { map := map, leader := table } events → TrueVerdict w) ∧
      (TrueVerdict w ↔ (w.phase = .returned .eio → valueOf map id ≠ oldValue)) := by
  have hbooks := casBooks_run hne hrun
  have hok : w.phase = .returned .ok → w.changes = 1 := by
    intro hphase
    have hpos := hbooks.ok hphase
    rcases hbooks.value with ⟨-, hzero⟩ | ⟨-, -, hone⟩
    · omega
    · exact hone
  refine ⟨?_, ?_, ?_⟩
  · intro hC
    exact ⟨fun hphase => (unambiguous_run hne hrun hC).unchanged (.inr hphase), hok⟩
  · intro hverdict hphase hstart
    have hmiss := hbooks.eio hphase
    rcases hbooks.value with ⟨hvalue, -⟩ | ⟨-, -, hone⟩
    · exact hmiss (hvalue.trans hstart)
    · have hzero : w.changes = 0 :=
        List.countP_eq_zero.mpr fun a ha => by simp [hverdict.eio hphase a ha]
      omega
  · intro hstart
    refine ⟨?_, hok⟩
    intro hphase
    rcases hbooks.value with ⟨-, hzero⟩ | ⟨heq, -⟩
    · intro attempt hmem
      simpa using List.countP_eq_zero.mp hzero attempt hmem
    · exact absurd heq (hstart hphase)

/-- The connection breaks under the first attempt, after the events `lost`, and the second one is
answered. -/
def brokenConnection (lost : List CasEvent) : List CasEvent :=
  [.send] ++ lost ++ [.failed false, .refreshLeader (some "a"), .send, .apply 1, .reply]

/-- Where a call ends and which attempts changed the value. -/
def CasCall.verdict (w : CasCall) : CasPhase × List Bool :=
  (w.phase, w.attempts.map CasAttempt.changed)

/-- The first attempt never reached the server. -/
theorem verdict_lost_request :
    ∃ w, (casCall 1 0 5).run { map := ∅, leader := some "a" } (brokenConnection []) = some w ∧
      w.phase = .returned .ok ∧ TrueVerdict w := by
  have hverdict : ((casCall 1 0 5).run { map := ∅, leader := some "a" }
      (brokenConnection [])).map CasCall.verdict = some (.returned .ok, [false, true]) := by
    decide +kernel
  have hclean : (casCall 1 0 5).Along (GivesUpUnapplied 1 0) { map := ∅, leader := some "a" }
      (brokenConnection []) := by
    decide +kernel
  obtain ⟨w, hrun, hw⟩ := Option.map_eq_some_iff.mp hverdict
  refine ⟨w, hrun, congrArg Prod.fst hw, ?_⟩
  exact (verdict_run 1 0 5 (by decide) ∅ (some "a") _ w hrun).1 hclean

/-- The first attempt was applied and its answer lost: the second one reports `EIO`. -/
theorem verdict_lost_answer :
    ¬ ∀ (id oldValue newValue : Int64), oldValue ≠ newValue →
      ∀ (map : ValueMap) (table : Option String) (events : List CasEvent) (w : CasCall),
        (casCall id oldValue newValue).run { map := map, leader := table } events = some w →
          TrueVerdict w := by
  intro h
  have hverdict : ((casCall 1 0 5).run { map := ∅, leader := some "a" }
      (brokenConnection [.apply 0])).map CasCall.verdict
      = some (.returned .eio, [true, false]) := by
    decide +kernel
  obtain ⟨w, hrun, hw⟩ := Option.map_eq_some_iff.mp hverdict
  simp only [CasCall.verdict, Prod.mk.injEq] at hw
  obtain ⟨hphase, hchanges⟩ := hw
  have hunchanged := (h 1 0 5 (by decide) ∅ (some "a") _ w hrun).eio hphase
  have hmem : true ∈ w.attempts.map CasAttempt.changed := by
    rw [hchanges]
    exact List.mem_cons_self
  obtain ⟨attempt, hattempt, hchanged⟩ := List.mem_map.mp hmem
  rw [hunchanged attempt hattempt] at hchanged
  cases hchanged

end RaftBench.Braft

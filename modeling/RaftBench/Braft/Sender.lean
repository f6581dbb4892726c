import RaftBench.Lib.Machine
import RaftBench.Braft.Atomic

/-!
# The closed-loop sender

`sender()` of `braft/client.cpp` keeps one compare-exchange outstanding on its own id and carries
the value forward: it proposes `value → value + 1`, and on a mismatch adopts the server's value if
that is the one its own lost attempt would have left, or if it has not learnt a value yet.  Any
other mismatch is a broken chain, reported by `CHECK_EQ` and `exit(-1)`.

An attempt given up as failed is not gone: raft may still apply it, once or several times, before
or after later attempts.  So the world keeps every attempt ever sent, any of them may be applied at
any step, and a reply is one of the recorded applications of the attempt the sender waits for.

The invariant `Chain` says that no attempt expects more than the sender's current value.  Once the
server has moved past that value nothing in flight can move it again, which is what makes a reply
still true when it arrives.
-/

namespace RaftBench.Braft

/-- Where `sender()` is: at the head of its loop, in a synchronous call, past the `CHECK_EQ`, or
returned. -/
inductive SenderPhase where
  | looping
  | awaiting (attempt : ℕ)
  | aborted
  | finished
  deriving DecidableEq, Repr

structure Sender where
  value : Int64 := 0
  haveChannel : Bool := false
  phase : SenderPhase := .looping
  deriving DecidableEq, Repr

/-- The loop body behind a call that did not fail. -/
def Sender.onResponse (s : Sender) (response : AtomicResponse) : Sender :=
  if !response.success then
    match response.oldValue with
    | none => { s with haveChannel := false, phase := .looping }
    | some oldValue =>
        if s.value = 0 ∨ oldValue = s.value + 1 then
          { s with value := oldValue, phase := .looping }
        else { s with phase := .aborted }
  else { s with value := response.newValue.getD 0, phase := .looping }

/-- One sender and the replicated map.  `attempts` lists every request sent, `replies` the
response of every application of one of them. -/
structure ClosedLoop where
  map : ValueMap
  attempts : List CompareExchangeRequest := []
  replies : List (ℕ × AtomicResponse) := []
  sender : Sender := {}

inductive ClosedLoopEvent where
  /-- `refresh_channel` returns -/
  | refreshChannel (ok : Bool)
  /-- the sender issues its compare-exchange -/
  | send
  /-- raft applies attempt `n` -/
  | apply (n : ℕ)
  /-- raft applies an entry of somebody else -/
  | applyOther (message : Message)
  /-- recorded reply `i` reaches the sender -/
  | reply (i : ℕ)
  /-- the call is answered with a redirect -/
  | redirected (leader : Option String)
  /-- the call fails: timeout, broken connection, lost reply -/
  | failed
  /-- the loop condition turns false -/
  | finish
  deriving DecidableEq, Repr

/-- The message is not a write to `id`. -/
def Message.Spares (id : Int64) : Message → Prop
  | .get _ => True
  | .exchange r => r.id ≠ id
  | .compareExchange r => r.id ≠ id

instance (id : Int64) : DecidablePred (Message.Spares id) := fun m =>
  match m with
  | .get _ => inferInstanceAs (Decidable True)
  | .exchange r => inferInstanceAs (Decidable (r.id ≠ id))
  | .compareExchange r => inferInstanceAs (Decidable (r.id ≠ id))

/-- One sender with key `id`.  A step that would overflow `value + 1` is not taken. -/
def closedLoop (id : Int64) : Machine ClosedLoop ClosedLoopEvent where
  step w
    | .refreshChannel ok =>
        if w.sender.phase = .looping ∧ w.sender.haveChannel = false then
          some { w with sender := { w.sender with haveChannel := ok } }
        else none
    | .send =>
        if w.sender.phase = .looping ∧ w.sender.haveChannel = true ∧
            w.sender.value < Int64.maxValue then
          some { w with
            attempts := w.attempts ++ [⟨id, w.sender.value, w.sender.value + 1⟩]
            sender := { w.sender with phase := .awaiting w.attempts.length } }
        else none
    | .apply n =>
        w.attempts[n]?.map fun a => { w with
          map := (casOn w.map a {}).1, replies := w.replies ++ [(n, (casOn w.map a {}).2)] }
    | .applyOther m =>
        if m.Spares id then some { w with map := (execute w.map m).1 } else none
    | .reply i =>
        match w.replies[i]? with
        | some (n, response) =>
            if w.sender.phase = .awaiting n then
              some { w with sender := w.sender.onResponse response }
            else none
        | none => none
    | .redirected leader =>
        match w.sender.phase with
        | .awaiting _ =>
            some { w with
              sender := w.sender.onResponse (Atomic.redirect { leaderId := leader } {}) }
        | _ => none
    | .failed =>
        match w.sender.phase with
        | .awaiting _ =>
            some { w with sender := { w.sender with haveChannel := false, phase := .looping } }
        | _ => none
    | .finish =>
        if w.sender.phase = .looping then
          some { w with sender := { w.sender with phase := .finished } }
        else none

/-- What one step of the machine can do, guards included.  Losing a connection, resolving a leader,
being redirected and leaving the loop all leave everything but the sender's control alone. -/
inductive ClosedLoopStep (id : Int64) (w : ClosedLoop) : ClosedLoopEvent → ClosedLoop → Prop where
  | stay {e : ClosedLoopEvent} (s : Sender) (value : s.value = w.sender.value)
      (phase : s.phase = .looping ∨ s.phase = .finished) (noReply : ∀ i, e ≠ .reply i) :
      ClosedLoopStep id w e { w with sender := s }
  | send (noOverflow : w.sender.value < Int64.maxValue) :
      ClosedLoopStep id w .send { w with
        attempts := w.attempts ++ [⟨id, w.sender.value, w.sender.value + 1⟩]
        sender := { w.sender with phase := .awaiting w.attempts.length } }
  | apply (n : ℕ) (a : CompareExchangeRequest) (sent : w.attempts[n]? = some a) :
      ClosedLoopStep id w (.apply n) { w with
        map := (casOn w.map a {}).1, replies := w.replies ++ [(n, (casOn w.map a {}).2)] }
  | applyOther (m : Message) (spares : m.Spares id) :
      ClosedLoopStep id w (.applyOther m) { w with map := (execute w.map m).1 }
  | reply (i n : ℕ) (response : AtomicResponse) (phase : w.sender.phase = .awaiting n)
      (recorded : (n, response) ∈ w.replies) :
      ClosedLoopStep id w (.reply i) { w with sender := w.sender.onResponse response }

theorem closedLoop_step {id : Int64} {w w' : ClosedLoop} {e : ClosedLoopEvent}
    (hstep : (closedLoop id).step w e = some w') : ClosedLoopStep id w e w' := by
  cases e with
  | refreshChannel ok =>
      simp only [closedLoop] at hstep
      split_ifs at hstep with hguard
      obtain rfl := Option.some.inj hstep
      exact .stay _ rfl (Or.inl hguard.1) (by simp)
  | send =>
      simp only [closedLoop] at hstep
      split_ifs at hstep with hguard
      obtain rfl := Option.some.inj hstep
      exact .send hguard.2.2
  | apply n =>
      simp only [closedLoop, Option.map_eq_some_iff] at hstep
      obtain ⟨a, ha, rfl⟩ := hstep
      exact .apply n a ha
  | applyOther m =>
      simp only [closedLoop] at hstep
      split_ifs at hstep with hspares
      obtain rfl := Option.some.inj hstep
      exact .applyOther m hspares
  | reply i =>
      simp only [closedLoop] at hstep
      split at hstep
      · next n response hi =>
          split_ifs at hstep with hphase
          obtain rfl := Option.some.inj hstep
          exact .reply i n response hphase (List.mem_of_getElem? hi)
      · simp at hstep
  | redirected leader =>
      simp only [closedLoop] at hstep
      split at hstep
      · obtain rfl := Option.some.inj hstep
        refine .stay _ ?_ (Or.inl ?_) (by simp) <;> cases leader <;> rfl
      · simp at hstep
  | failed =>
      simp only [closedLoop] at hstep
      split at hstep
      · obtain rfl := Option.some.inj hstep
        exact .stay _ rfl (Or.inl rfl) (by simp)
      · simp at hstep
  | finish =>
      simp only [closedLoop] at hstep
      split_ifs at hstep
      obtain rfl := Option.some.inj hstep
      exact .stay _ rfl (Or.inr rfl) (by simp)

/-! ## The invariant -/

/-- What holds of the chain between any two steps. -/
structure Chain (id : Int64) (w : ClosedLoop) : Prop where
  notAborted : w.sender.phase ≠ .aborted
  nonneg : 0 ≤ w.sender.value.toInt
  /-- the server is at the sender's value or one past it, unless the sender has not read it yet -/
  server_ge : w.sender.value.toInt ≤ (valueOf w.map id).toInt
  server_le : w.sender.value = 0 ∨
    (valueOf w.map id).toInt ≤ w.sender.value.toInt + 1
  /-- no attempt expects more than the sender's value -/
  attempts : ∀ a ∈ w.attempts, a.id = id ∧ a.expectedValue.toInt ≤ w.sender.value.toInt ∧
    a.newValue.toInt = a.expectedValue.toInt + 1
  /-- the call in progress is the one proposing the sender's value -/
  current : ∀ n, w.sender.phase = .awaiting n →
    ∃ a, w.attempts[n]? = some a ∧ a.expectedValue = w.sender.value
  replies_lt : ∀ p ∈ w.replies, p.1 < w.attempts.length
  /-- a reply to the call in progress reports the value the server still has -/
  replies : ∀ n response, w.sender.phase = .awaiting n → (n, response) ∈ w.replies →
    valueOf w.map id ≠ w.sender.value ∧ response.newValue = some (valueOf w.map id) ∧
      (response.success = false → response.oldValue = some (valueOf w.map id))

lemma chain_init {id : Int64} {map : ValueMap} (h : 0 ≤ valueOf map id) :
    Chain id { map := map } where
  notAborted := by simp
  nonneg := by
    show (0 : ℤ) ≤ (0 : Int64).toInt
    decide
  server_ge := Int64.le_iff_toInt_le.mp h
  server_le := Or.inl rfl
  attempts := by simp
  current := by simp
  replies_lt := by simp
  replies := by simp

/-- The successor of a value below the maximum, without wrap-around. -/
lemma toInt_add_one {x : Int64} (h : x < Int64.maxValue) : (x + 1).toInt = x.toInt + 1 := by
  have hx : x.toInt < 2 ^ 63 - 1 := by
    rw [Int64.lt_iff_toInt_lt, Int64.toInt_maxValue] at h
    exact h
  have hge := x.le_toInt
  have hadd : (x + 1).toInt = (x.toInt + 1).bmod (2 ^ 64) := by
    rw [Int64.toInt_add]
    rfl
  rw [hadd, Int.bmod_eq_of_le] <;> omega

/-! ## What one step preserves -/

/-- Leaving a call without accepting an answer changes neither value nor server. -/
lemma Chain.leaveCall {id : Int64} {w : ClosedLoop} (h : Chain id w) {s : Sender}
    (hvalue : s.value = w.sender.value) (hphase : s.phase = .looping ∨ s.phase = .finished) :
    Chain id { w with sender := s } where
  notAborted := by rcases hphase with hp | hp <;> simp [hp]
  nonneg := by simpa [hvalue] using h.nonneg
  server_ge := by simpa [hvalue] using h.server_ge
  server_le := by simpa [hvalue] using h.server_le
  attempts := by simpa [hvalue] using h.attempts
  current := by rcases hphase with hp | hp <;> simp [hp]
  replies_lt := h.replies_lt
  replies := by rcases hphase with hp | hp <;> simp [hp]

/-- A change of the map that leaves the value of `id` alone is invisible to the chain. -/
lemma Chain.otherEntry {id : Int64} {w : ClosedLoop} (h : Chain id w) {map : ValueMap}
    (hmap : valueOf map id = valueOf w.map id) : Chain id { w with map := map } where
  notAborted := h.notAborted
  nonneg := h.nonneg
  server_ge := by simpa [hmap] using h.server_ge
  server_le := by simpa [hmap] using h.server_le
  attempts := h.attempts
  current := h.current
  replies_lt := h.replies_lt
  replies := by simpa [hmap] using h.replies

lemma valueOf_execute_spares {id : Int64} {m : Message} (h : m.Spares id) (map : ValueMap) :
    valueOf (execute map m).1 id = valueOf map id := by
  cases m with
  | get r => rfl
  | exchange r => exact valueOf_execute_of_ne map (.exchange r) (Ne.symm h)
  | compareExchange r => exact valueOf_execute_of_ne map (.compareExchange r) (Ne.symm h)

/-- Applying an attempt moves the server only from the sender's value to its successor. -/
lemma Chain.apply_value {id : Int64} {w : ClosedLoop} (h : Chain id w)
    {a : CompareExchangeRequest} (ha : a ∈ w.attempts) :
    (valueOf (casOn w.map a {}).1 id = valueOf w.map id ∧
        valueOf w.map id ≠ a.expectedValue) ∨
      (valueOf w.map id = w.sender.value ∧ valueOf (casOn w.map a {}).1 id = a.newValue ∧
        a.newValue.toInt = w.sender.value.toInt + 1) := by
  obtain ⟨hid, hexp, hnew⟩ := h.attempts a ha
  have hcas := valueOf_casOn w.map a {}
  rw [hid] at hcas
  rw [hcas]
  by_cases heq : valueOf w.map id = a.expectedValue
  · refine Or.inr ⟨?_, by rw [if_pos heq], ?_⟩
    · have hge := h.server_ge
      rw [heq] at hge
      rw [heq]
      exact Int64.toInt_inj.mp (by omega)
    · have hge := h.server_ge
      rw [heq] at hge
      omega
  · exact Or.inl ⟨by rw [if_neg heq], heq⟩

/-- What the reply of an application tells the call that is waiting for it: the value the server
has from then on, which is not the one the call proposed to replace. -/
lemma Chain.apply_reply {id : Int64} {w : ClosedLoop} (h : Chain id w)
    {a : CompareExchangeRequest} (ha : a ∈ w.attempts)
    (hcurrent : a.expectedValue = w.sender.value) :
    valueOf (casOn w.map a {}).1 id ≠ w.sender.value ∧
      (casOn w.map a {}).2.newValue = some (valueOf (casOn w.map a {}).1 id) ∧
      ((casOn w.map a {}).2.success = false →
        (casOn w.map a {}).2.oldValue = some (valueOf (casOn w.map a {}).1 id)) := by
  have hresp := casOn_response w.map a {}
  rw [(h.attempts a ha).1] at hresp
  rw [hresp]
  rcases h.apply_value ha with ⟨hsame, hne⟩ | ⟨heq, hval, hsucc⟩
  · rw [hsame, ← hcurrent]
    exact ⟨hne, rfl, fun _ => rfl⟩
  · refine ⟨?_, rfl, ?_⟩
    · rw [hval]
      intro hcontra
      have : a.newValue.toInt = w.sender.value.toInt := congrArg Int64.toInt hcontra
      omega
    · intro hfail
      rw [heq, ← hcurrent] at hfail
      simp at hfail

lemma chain_step_apply {id : Int64} {w : ClosedLoop} (h : Chain id w) {n : ℕ}
    {a : CompareExchangeRequest} (ha : w.attempts[n]? = some a) :
    Chain id { w with
      map := (casOn w.map a {}).1, replies := w.replies ++ [(n, (casOn w.map a {}).2)] } := by
  have hmem : a ∈ w.attempts := List.mem_of_getElem? ha
  have hlt : n < w.attempts.length := (List.getElem?_eq_some_iff.mp ha).1
  have hge := h.server_ge
  have hle := h.server_le
  have hmove := h.apply_value hmem
  refine ⟨h.notAborted, h.nonneg, ?_, ?_, h.attempts, h.current, ?_, ?_⟩
  · rcases hmove with ⟨hsame, -⟩ | ⟨-, hval, hsucc⟩
    · simpa only [hsame] using hge
    · simp only [hval, hsucc]
      omega
  · rcases hmove with ⟨hsame, -⟩ | ⟨-, hval, hsucc⟩
    · simpa only [hsame] using hle
    · exact Or.inr (by simp only [hval, hsucc]; omega)
  · intro p hp
    rcases List.mem_append.mp hp with hp | hp
    · exact h.replies_lt p hp
    · rw [List.mem_singleton.mp hp]
      exact hlt
  · intro m response hphase hp
    obtain ⟨b, hb, hbexp⟩ := h.current m hphase
    rcases List.mem_append.mp hp with hp | hp
    · -- an earlier reply to the same call: the server has already moved on, for good
      obtain ⟨hne, hnewv, holdv⟩ := h.replies m response hphase hp
      rcases hmove with ⟨hsame, -⟩ | ⟨heq, -, -⟩
      · simpa only [hsame] using ⟨hne, hnewv, holdv⟩
      · exact absurd heq hne
    · -- the reply of this very application
      rw [List.mem_singleton, Prod.mk.injEq] at hp
      obtain ⟨rfl, rfl⟩ := hp
      rw [ha, Option.some.injEq] at hb
      subst hb
      exact h.apply_reply hmem hbexp

/-- **An accepted reply is still true.**  Whatever the sender adopts is the value the server has
now, and the abort branch is out of reach. -/
lemma chain_onResponse {id : Int64} {w : ClosedLoop} (h : Chain id w) {n : ℕ}
    {response : AtomicResponse} (hphase : w.sender.phase = .awaiting n)
    (hreply : (n, response) ∈ w.replies) :
    (w.sender.onResponse response).value = valueOf w.map id ∧
      (w.sender.onResponse response).phase = .looping := by
  obtain ⟨hne, hnew, hold⟩ := h.replies n response hphase hreply
  unfold Sender.onResponse
  cases hs : response.success with
  | true => simp [hnew]
  | false =>
      have hadopt : w.sender.value = 0 ∨ valueOf w.map id = w.sender.value + 1 := by
        rcases h.server_le with hzero | hle
        · exact Or.inl hzero
        · right
          have hge := h.server_ge
          have hlt : w.sender.value.toInt < (valueOf w.map id).toInt := by
            rcases lt_or_eq_of_le hge with hlt | heq
            · exact hlt
            · exact absurd (Int64.toInt_inj.mp heq.symm) hne
          have hbound := (valueOf w.map id).toInt_lt
          have hmax : w.sender.value < Int64.maxValue := by
            rw [Int64.lt_iff_toInt_lt, Int64.toInt_maxValue]
            omega
          exact Int64.toInt_inj.mp (by rw [toInt_add_one hmax]; omega)
      simp [hold hs, hadopt]

lemma chain_step_reply {id : Int64} {w : ClosedLoop} (h : Chain id w) {n : ℕ}
    {response : AtomicResponse} (hphase : w.sender.phase = .awaiting n)
    (hreply : (n, response) ∈ w.replies) :
    Chain id { w with sender := w.sender.onResponse response } := by
  obtain ⟨hvalue, hlooping⟩ := chain_onResponse h hphase hreply
  have hge := h.server_ge
  have hnn := h.nonneg
  refine ⟨by simp [hlooping], ?_, ?_, ?_, ?_, by simp [hlooping], h.replies_lt, by simp [hlooping]⟩
  · simp only [hvalue]
    omega
  · simp only [hvalue]
    omega
  · exact Or.inr (by simp only [hvalue]; omega)
  · intro a ha
    obtain ⟨hid, hexp, hnew⟩ := h.attempts a ha
    exact ⟨hid, by simp only [hvalue]; omega, hnew⟩

lemma chain_step_send {id : Int64} {w : ClosedLoop} (h : Chain id w)
    (hmax : w.sender.value < Int64.maxValue) :
    Chain id { w with
      attempts := w.attempts ++ [⟨id, w.sender.value, w.sender.value + 1⟩]
      sender := { w.sender with phase := .awaiting w.attempts.length } } where
  notAborted := by simp
  nonneg := h.nonneg
  server_ge := h.server_ge
  server_le := h.server_le
  attempts := by
    intro a ha
    rcases List.mem_append.mp ha with ha | ha
    · exact h.attempts a ha
    · rw [List.mem_singleton.mp ha]
      exact ⟨rfl, le_refl _, toInt_add_one hmax⟩
  current := by
    intro n hn
    simp only [SenderPhase.awaiting.injEq] at hn
    subst hn
    exact ⟨⟨id, w.sender.value, w.sender.value + 1⟩, by simp, rfl⟩
  replies_lt := by
    intro p hp
    have := h.replies_lt p hp
    simp only [List.length_append, List.length_singleton]
    omega
  replies := by
    intro n response hn hp
    -- nothing has answered an attempt that is only now being sent
    simp only [SenderPhase.awaiting.injEq] at hn
    have := h.replies_lt _ hp
    simp only at this
    omega

/-- **One step.**  Every event keeps the chain. -/
theorem chain_step {id : Int64} {w w' : ClosedLoop} {e : ClosedLoopEvent} (h : Chain id w)
    (hstep : (closedLoop id).step w e = some w') : Chain id w' := by
  cases closedLoop_step hstep with
  | stay s hvalue hphase => exact h.leaveCall hvalue hphase
  | send hmax => exact chain_step_send h hmax
  | apply n a ha => exact chain_step_apply h ha
  | applyOther m hspares => exact h.otherEntry (valueOf_execute_spares hspares w.map)
  | reply i n response hphase hreply => exact chain_step_reply h hphase hreply

/-- The server's value for the id after one step: the same, or the next one. -/
lemma chain_step_server {id : Int64} {w w' : ClosedLoop} {e : ClosedLoopEvent} (h : Chain id w)
    (hstep : (closedLoop id).step w e = some w') :
    valueOf w'.map id = valueOf w.map id ∨
      (valueOf w'.map id).toInt = (valueOf w.map id).toInt + 1 := by
  cases closedLoop_step hstep with
  | stay s hvalue hphase => exact Or.inl rfl
  | send hmax => exact Or.inl rfl
  | apply n a ha =>
      rcases h.apply_value (List.mem_of_getElem? ha) with ⟨hsame, -⟩ | ⟨heq, hval, hsucc⟩
      · exact Or.inl hsame
      · right
        simp only [hval, heq, hsucc]
  | applyOther m hspares => exact Or.inl (valueOf_execute_spares hspares w.map)
  | reply i n response hphase hreply => exact Or.inl rfl

/-- What accepting a reply leaves the sender with. -/
lemma chain_step_accept {id : Int64} {w w' : ClosedLoop} {i : ℕ} (h : Chain id w)
    (hstep : (closedLoop id).step w (.reply i) = some w') :
    w'.sender.value = valueOf w'.map id := by
  generalize hi : ClosedLoopEvent.reply i = e at hstep
  cases closedLoop_step hstep with
  | stay s hvalue hphase hnot => exact absurd hi.symm (hnot i)
  | send hmax => exact ClosedLoopEvent.noConfusion hi
  | apply n a ha => exact ClosedLoopEvent.noConfusion hi
  | applyOther m hspares => exact ClosedLoopEvent.noConfusion hi
  | reply i n response hphase hreply => exact (chain_onResponse h hphase hreply).1

/-! ## Every run -/

/-- **The chain never breaks.**  In every run of one sender on an id nobody else writes, from a
server value that is not negative: the abort branch is not reached; each further step leaves the
server's value alone or adds one to it; and right after a reply is accepted the sender's value is
the server's. -/
theorem sender_chain_never_aborts (id : Int64) (map : ValueMap) (h : 0 ≤ valueOf map id)
    (events : List ClosedLoopEvent) (w : ClosedLoop)
    (hrun : (closedLoop id).run { map := map } events = some w) :
    w.sender.phase ≠ .aborted ∧
      ∀ e w', (closedLoop id).step w e = some w' →
        (valueOf w'.map id = valueOf w.map id ∨
          (valueOf w'.map id).toInt = (valueOf w.map id).toInt + 1) ∧
        ∀ i, e = .reply i → w'.sender.value = valueOf w'.map id := by
  have hchain : Chain id w :=
    Machine.invariant (fun _ _ _ hw hstep => chain_step hw hstep) (chain_init h) hrun
  refine ⟨hchain.notAborted, ?_⟩
  intro e w' hstep
  refine ⟨chain_step_server hchain hstep, ?_⟩
  rintro i rfl
  exact chain_step_accept hchain hstep

/-- A run with an abandoned attempt: the first call times out, the retry is overtaken by the late
application of the first one, and the mismatch it reports is adopted. -/
def lateApplication : List ClosedLoopEvent :=
  [.refreshChannel true, .send, .failed, .refreshChannel true, .send, .apply 0, .apply 1]

theorem sender_chain_late_application :
    ∃ w, (closedLoop 7).run { map := ∅ } lateApplication = some w ∧
      w.sender.phase ≠ .aborted ∧
      ∀ w', (closedLoop 7).step w (.reply 1) = some w' →
        w'.sender.value = valueOf w'.map 7 := by
  refine ⟨_, rfl, ?_⟩
  have hzero : 0 ≤ valueOf ∅ 7 := by decide
  obtain ⟨hphase, hsteps⟩ := sender_chain_never_aborts 7 ∅ hzero lateApplication _ rfl
  exact ⟨hphase, fun w' hstep => (hsteps _ w' hstep).2 1 rfl⟩

end RaftBench.Braft

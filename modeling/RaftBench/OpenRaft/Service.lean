import RaftBench.Lib.LogOrder
import RaftBench.OpenRaft.ReadModes
import RaftBench.OpenRaft.Versions

/-!
# The key-value service is linearizable

The cluster as its clients see it: writes and membership changes that go through raft, and the reads
of `RaftBench.OpenRaft.ReadModes` beside them.  Of raft nothing more is assumed than there and in
`RaftBench.OpenRaft.Replicas`, and that a proposal gets into the log at most once.  Which proposals
get in and when, who applies them and answers, how long an answer is on its way, which node a read
is sent to, and when nodes restart or get snapshots: all of that is free.

A call is answered when its value reaches the client.  Errors and connections that break are no
answers: such a call may have taken effect or not.

`kvService_linearizable` says that writes, `/linearizable_read` and `/follower_read` are
linearizable together, with the writes in the order of the log.  A plain `/read` promises nothing of
the kind; it runs beside the others and is not part of the history.
-/

namespace RaftBench.OpenRaft

open Linearizability

variable {L M : Type}

/-! ## The sequential store -/

inductive KvOp (M : Type) where
  | update (payload : EntryPayload M)
  | read (key : String)
  deriving DecidableEq, Repr

def KvOp.isRead : KvOp M → Bool
  | .update _ => false
  | .read _ => true

/-- One store and the index of its next update.  Raft's own entries take an index and do nothing
else. -/
def kvObject : SeqObject (KvState × ℕ) (KvOp M) (Option VersionedValue) where
  init := (⟨fun _ => none, 0⟩, 0)
  act s
    | .update (.normal req) =>
        let (store, response) := s.1.apply (UInt64.ofNat s.2) req
        ((store, s.2 + 1), response)
    | .update _ => ((⟨s.1.data, UInt64.ofNat s.2⟩, s.2 + 1), none)
    | .read key => (s, s.1.data key)

lemma kvObject_keeps : Keeps (kvObject (M := M)) KvOp.isRead := by
  intro op hread s
  cases op with
  | update payload => cases hread
  | read key => rfl

/-- The entries of a log as operations. -/
def updates (log : List (Entry L (EntryPayload M))) : List (KvOp M) :=
  log.map fun e => .update e.payload

/-- Applying an entry is its operation. -/
lemma kvObject_act (a : Applied L M) (e : Entry L (EntryPayload M)) :
    kvObject.act (a.kvState, e.position) (.update e.payload)
      = (((a.applyEntry e).1.kvState, e.position + 1), (a.applyEntry e).2) := by
  obtain ⟨id, payload⟩ := e
  have hindex : UInt64.ofNat (Entry.position ⟨id, payload⟩) = id.index := UInt64.ofNat_toNat
  cases payload with
  | blank =>
      simp only [kvObject, hindex]
      rfl
  | membership mem =>
      simp only [kvObject, hindex]
      rfl
  | normal req =>
      simp only [kvObject, hindex, ← kvState_applyEntry]

section Replay

variable [Inhabited M] {log : List (Entry L (EntryPayload M))}

/-- **Replaying a log is running its operations.** -/
lemma kvObject_after (h : Consecutive.From Entry.position 0 log) :
    kvObject.after (updates log) = ((replay log).kvState, log.length) := by
  induction log using List.reverseRecOn with
  | nil =>
      simp [SeqObject.after, updates, kvObject, replay, Applied.kvState, Applied.init]
  | append_singleton log e ih =>
      obtain ⟨hlog, hposition, -⟩ := Consecutive.from_append.mp h
      rw [Nat.zero_add] at hposition
      have hreplay : replay (log ++ [e]) = ((replay log).applyEntry e).1 := by
        rw [replay, Applied.applyAll_append]
        rfl
      rw [updates, List.map_append, List.map_singleton, kvObject.after_concat]
      rw [← updates, ih hlog, ← hposition, kvObject_act, hreplay, List.length_append, hposition]
      rfl

lemma kvObject_after_take (h : Consecutive.From Entry.position 0 log) {n : ℕ}
    (hn : n ≤ log.length) :
    kvObject.after ((updates log).take n) = ((replay (log.take n)).kvState, n) := by
  have hafter := kvObject_after (h.take n)
  rw [List.length_take, Nat.min_eq_left hn] at hafter
  rw [updates, ← List.map_take]
  exact hafter

/-- What the log makes the answer of an entry is the answer of its operation. -/
lemma AnswerFollows.kvObject (h : Consecutive.From Entry.position 0 log)
    {answer : LogId L × Option VersionedValue} (hanswer : AnswerFollows log answer) :
    kvObject.answer (updates log) answer.1.index.toNat = some answer.2 := by
  obtain ⟨e, hget, hid, hvalue⟩ := hanswer
  have hlt := (List.getElem?_eq_some_iff.mp hget).1
  have hposition : e.position = answer.1.index.toNat := by
    rw [← hid]
    rfl
  rw [SeqObject.answer, kvObject_after_take h hlt.le, updates, List.getElem?_map, hget, hvalue,
    ← hposition, Option.map_some, Option.map_some, kvObject_act]

end Replay

/-! ## The machine -/

structure KvService (L M : Type) where
  server : ReadServer L M
  calls : ℕ := 0
  /-- what raft has been asked to put into the log, each with its call -/
  proposed : List (ℕ × EntryPayload M) := []
  /-- the call of every entry of the log -/
  owners : List ℕ := []
  /-- the call of every read; a plain `/read` has none -/
  readers : List (Option ℕ) := []
  /-- how much was committed when a read began; no step looks at it -/
  seen : List (ℕ × ℕ) := []
  history : List (Action ℕ (KvOp M) (Option VersionedValue)) := []

inductive KvEvent (L M : Type) where
  /-- a request of `/write` or of a membership change reaches raft, or a new leader has a blank
  entry -/
  | propose (payload : EntryPayload M)
  | commit (i : ℕ) (id : LogId L)
  /-- what a responder has been sent reaches the client -/
  | respond (i : ℕ)
  | arrive (node : ℕ) (mode : ReadMode) (key : String)
  | perform (r : ℕ) (op : ReadOp L) (answer : op.Ans)
  /-- what a read has found reaches the client -/
  | finish (r : ℕ)
  | replica (e : ReplicaEvent L M)

namespace KvService

variable (w : KvService L M)

/-- The log as the clients have made it. -/
def log : List (ℕ × KvOp M) := w.owners.zip (updates w.server.replicas.committed)

/-- The client has its answer. -/
def answered (c : ℕ) : Bool := w.history.any fun
  | .respond c' _ => c' == c
  | .invoke _ _ => false

/-- A call is answered once. -/
def answer (c : ℕ) (value : Option VersionedValue) : Option (KvService L M) :=
  if w.answered c then none else some { w with history := w.history ++ [.respond c value] }

/-- A read arrives. -/
def arrive (server : ReadServer L M) (mode : ReadMode) (key : String) : KvService L M :=
  if mode = .read then { w with server, readers := w.readers ++ [none] }
  else { w with
    server
    calls := w.calls + 1
    readers := w.readers ++ [some w.calls]
    seen := w.seen ++ [(w.calls, w.server.replicas.committed.length)]
    history := w.history ++ [.invoke w.calls (.read key)] }

end KvService

variable [Inhabited M] [DecidableEq L]

def KvService.init (count : ℕ) : KvService L M := { server := ⟨.init count, []⟩ }

def kvService (json : SerdeJson (BTreeMap String VersionedValue)) :
    Machine (KvService L M) (KvEvent L M) where
  step w
    | .propose payload => some { w with
        calls := w.calls + 1
        proposed := w.proposed ++ [(w.calls, payload)]
        history := w.history ++ [.invoke w.calls (.update payload)] }
    | .commit i id =>
        w.proposed[i]?.bind fun proposal =>
          if proposal.1 ∈ w.owners then none
          else ((readServer json).step w.server (.replica (.commit ⟨id, proposal.2⟩))).map
            fun server => { w with server, owners := w.owners ++ [proposal.1] }
    | .respond i =>
        w.server.replicas.answers[i]?.bind fun sent =>
          w.owners[sent.1.index.toNat]?.bind fun c => w.answer c sent.2
    | .arrive node mode key =>
        ((readServer json).step w.server (.arrive node mode key)).map fun server =>
          w.arrive server mode key
    | .perform r op answer =>
        ((readServer json).step w.server (.perform r op answer)).map fun server =>
          { w with server }
    | .finish r =>
        w.server.reads[r]?.bind fun request => request.value.bind fun value =>
          w.readers[r]?.bind fun reader => reader.bind fun c => w.answer c value
    | .replica (.commit _) => none
    | .replica e =>
        ((readServer json).step w.server (.replica e)).map fun server => { w with server }

/-- Raft does not install a snapshot that is older than what the node has applied. -/
def KvEvent.Forward (w : KvService L M) : KvEvent L M → Prop
  | .replica e => NoRollback w.server (.replica e)
  | _ => True

omit [Inhabited M] [DecidableEq L] in
instance (w : KvService L M) : ∀ e : KvEvent L M, Decidable (e.Forward w)
  | .replica e => inferInstanceAs (Decidable (NoRollback w.server (.replica e)))
  | .propose _ => isTrue trivial
  | .commit _ _ => isTrue trivial
  | .respond _ => isTrue trivial
  | .arrive _ _ _ => isTrue trivial
  | .perform _ _ _ => isTrue trivial
  | .finish _ => isTrue trivial

/-! ## The invariant -/

/-- What was asked, and how much was committed then.  This never changes. -/
def ReadRequest.asked (r : ReadRequest L) : ReadMode × String × ℕ :=
  (r.mode, r.key, r.committedBefore)

structure KvServiceInv (json : SerdeJson (BTreeMap String VersionedValue)) (w : KvService L M) :
    Prop where
  server : ReadServerInv json w.server
  owners : w.owners.length = w.server.replicas.committed.length
  readers : w.readers.length = w.server.reads.length
  below : ∀ c op, .invoke c op ∈ w.history → c < w.calls
  begun : ∀ p ∈ w.proposed, .invoke p.1 (.update p.2) ∈ w.history
  reading : ∀ c mode key m, (some c, mode, key, m) ∈
    w.readers.zip (w.server.reads.map ReadRequest.asked) →
      mode ≠ .read ∧ (c, m) ∈ w.seen ∧ .invoke c (.read key) ∈ w.history
  order : ∃ order, LogLinearizes kvObject KvOp.isRead w.log w.seen order w.history

section Log

omit [Inhabited M] [DecidableEq L]

variable {w : KvService L M}

lemma KvService.log_fst (h : w.owners.length = w.server.replicas.committed.length) :
    w.log.map Prod.fst = w.owners :=
  List.map_fst_zip (by rw [updates, List.length_map, h])

lemma KvService.log_snd (h : w.owners.length = w.server.replicas.committed.length) :
    w.log.map Prod.snd = updates w.server.replicas.committed :=
  List.map_snd_zip (by rw [updates, List.length_map, h])

lemma KvService.not_answered {c : ℕ} (h : w.answered c = false) (r : Option VersionedValue) :
    .respond c r ∉ w.history := by
  intro hmem
  have hany : w.answered c = true := List.any_eq_true.mpr ⟨_, hmem, beq_self_eq_true c⟩
  rw [h] at hany
  cases hany

lemma KvService.answer_eq_some {c : ℕ} {value : Option VersionedValue} {w' : KvService L M}
    (h : w.answer c value = some w') :
    w.answered c = false ∧ w' = { w with history := w.history ++ [.respond c value] } := by
  unfold KvService.answer at h
  split_ifs at h with hopen
  exact ⟨by simpa using hopen, (Option.some.inj h).symm⟩

end Log

section Steps

variable {json : SerdeJson (BTreeMap String VersionedValue)} {w : KvService L M}

omit [DecidableEq L] in
lemma kvServiceInv_init (count : ℕ) : KvServiceInv json (KvService.init count : KvService L M) where
  server := readServerInv_init count
  owners := rfl
  readers := rfl
  below := by simp [KvService.init]
  begun := by simp [KvService.init]
  reading := by simp [KvService.init]
  order := ⟨[], LogLinearizes.nil⟩

omit [DecidableEq L] in
/-- The number of the next call has not been used. -/
lemma KvServiceInv.fresh (h : KvServiceInv json w) (op : KvOp M) :
    .invoke w.calls op ∉ w.history :=
  fun hmem => lt_irrefl _ (h.below _ op hmem)

omit [DecidableEq L] in
lemma KvServiceInv.below_succ (h : KvServiceInv json w) (op : KvOp M) :
    ∀ c op', .invoke c op' ∈ w.history ++ [.invoke w.calls op] → c < w.calls + 1 := by
  intro c op' hmem
  rcases List.mem_append.mp hmem with hmem | hmem
  · exact (h.below c op' hmem).trans (Nat.lt_succ_self _)
  · cases List.mem_singleton.mp hmem
    exact Nat.lt_succ_self _

omit [DecidableEq L] in
lemma KvServiceInv.propose (h : KvServiceInv json w) (payload : EntryPayload M) :
    KvServiceInv json { w with
      calls := w.calls + 1
      proposed := w.proposed ++ [(w.calls, payload)]
      history := w.history ++ [.invoke w.calls (.update payload)] } := by
  obtain ⟨order, horder⟩ := h.order
  refine { h with below := h.below_succ _, begun := ?_, reading := ?_, order := ⟨order, ?_⟩ }
  · exact List.forall_concat (fun p hp => List.mem_append_left _ (h.begun p hp)) (by simp)
  · intro c mode key m hmem
    obtain ⟨hmode, hseen, hbegun⟩ := h.reading c mode key m hmem
    exact ⟨hmode, hseen, List.mem_append_left _ hbegun⟩
  · exact horder.invoke _ h.fresh

omit [DecidableEq L] in
/-- The cluster moves on behind an unchanged log. -/
lemma KvServiceInv.serve (h : KvServiceInv json w) {server : ReadServer L M}
    (hserver : ReadServerInv json server)
    (hlog : server.replicas.committed = w.server.replicas.committed)
    (hasked : server.reads.map ReadRequest.asked = w.server.reads.map ReadRequest.asked) :
    KvServiceInv json { w with server } := by
  have hlength := congrArg List.length hasked
  rw [List.length_map, List.length_map] at hlength
  have hsame : KvService.log { w with server } = w.log := by
    rw [KvService.log, KvService.log, hlog]
  refine { h with server := hserver, owners := ?_, readers := ?_, reading := ?_, order := ?_ }
  · rw [hlog, h.owners]
  · rw [hlength, h.readers]
  · rw [hasked]
    exact h.reading
  · rw [hsame]
    exact h.order

omit [DecidableEq L] in
/-- A proposal gets into the log. -/
lemma KvServiceInv.commit (h : KvServiceInv json w) {p : ℕ × EntryPayload M}
    (hp : p ∈ w.proposed) (hnew : p.1 ∉ w.owners) {id : LogId L}
    {server : ReadServer L M} (hserver : ReadServerInv json server)
    (hlog : server.replicas.committed = w.server.replicas.committed ++ [⟨id, p.2⟩])
    (hasked : server.reads.map ReadRequest.asked = w.server.reads.map ReadRequest.asked) :
    KvServiceInv json { w with server, owners := w.owners ++ [p.1] } := by
  have hlength := congrArg List.length hasked
  rw [List.length_map, List.length_map] at hlength
  have hgrown : KvService.log { w with server, owners := w.owners ++ [p.1] }
      = w.log ++ [(p.1, .update p.2)] := by
    rw [KvService.log, hlog, updates, List.map_append,
      List.zip_append (by rw [List.length_map, h.owners])]
    rfl
  obtain ⟨order, horder⟩ := h.order
  refine { h with
    server := hserver, owners := ?_, readers := ?_, reading := ?_
    order := ⟨order ++ [(p.1, .update p.2)], ?_⟩ }
  · rw [hlog, List.length_append, List.length_append, h.owners]
    rfl
  · rw [hlength, h.readers]
  · rw [hasked]
    exact h.reading
  · rw [hgrown]
    refine horder.update ?_ (h.begun p hp) rfl
    rwa [KvService.log_fst h.owners]

omit [DecidableEq L] in
lemma KvServiceInv.answer (h : KvServiceInv json w) {c : ℕ} {value : Option VersionedValue}
    {order : List (ℕ × KvOp M)} (horder : LogLinearizes kvObject KvOp.isRead w.log w.seen order
      (w.history ++ [.respond c value])) :
    KvServiceInv json { w with history := w.history ++ [.respond c value] } := by
  refine { h with below := ?_, begun := ?_, reading := ?_, order := ⟨order, horder⟩ }
  · exact fun c' op hmem => h.below c' op (by simpa using hmem)
  · exact fun p hp => List.mem_append_left _ (h.begun p hp)
  · intro c' mode key m hmem
    obtain ⟨hmode, hseen, hbegun⟩ := h.reading c' mode key m hmem
    exact ⟨hmode, hseen, List.mem_append_left _ hbegun⟩

omit [DecidableEq L] in
/-- A write is answered. -/
lemma KvServiceInv.respond (h : KvServiceInv json w) {sent : LogId L × Option VersionedValue}
    (hsent : sent ∈ w.server.replicas.answers) {c : ℕ}
    (hc : w.owners[sent.1.index.toNat]? = some c) :
    KvServiceInv json { w with history := w.history ++ [.respond c sent.2] } := by
  obtain ⟨order, horder⟩ := h.order
  have hanswer := (h.server.replicas.answers sent hsent).kvObject h.server.replicas.log
  refine h.answer (horder.respond_update kvObject_keeps (k := sent.1.index.toNat) ?_ ?_)
  · rw [KvService.log_fst h.owners, hc]
  · rw [KvService.log_snd h.owners, hanswer]

omit [DecidableEq L] in
/-- A read is answered. -/
lemma KvServiceInv.finish (h : KvServiceInv json w) {i : ℕ} {r : ReadRequest L}
    (hr : w.server.reads[i]? = some r) {value : Option VersionedValue}
    (hvalue : r.value = some value) {c : ℕ} (hc : w.readers[i]? = some (some c))
    (hopen : w.answered c = false) :
    KvServiceInv json { w with history := w.history ++ [.respond c value] } := by
  obtain ⟨order, horder⟩ := h.order
  have hzip : (w.readers.zip (w.server.reads.map ReadRequest.asked))[i]?
      = some (some c, r.asked) := by
    rw [List.getElem?_zip_eq_some]
    exact ⟨hc, by rw [List.getElem?_map, hr]; rfl⟩
  obtain ⟨hmode, hseen, hbegun⟩ := h.reading c _ _ _ (List.mem_of_getElem? hzip)
  obtain ⟨n, hbound, hn, hfound⟩ := (h.server.reads r (List.mem_of_getElem? hr)).returned value
    (ReadRequest.prog_of_value hvalue)
  rw [ReadRequest.bound, if_neg hmode] at hbound
  have hstate : kvObject.after ((w.log.take n).map Prod.snd)
      = ((replay (w.server.replicas.committed.take n)).kvState, n) := by
    rw [List.map_take, KvService.log_snd h.owners, kvObject_after_take h.server.replicas.log hn]
  obtain ⟨order', horder'⟩ := horder.respond_read kvObject_keeps hseen hbegun rfl
    (KvService.not_answered hopen) hbound
  rw [hstate] at horder'
  rw [hfound]
  exact h.answer horder'

omit [DecidableEq L] in
/-- A read begins. -/
lemma KvServiceInv.arrive (h : KvServiceInv json w) {r : ReadRequest L}
    (hserver : ReadServerInv json { w.server with reads := w.server.reads ++ [r] })
    (hbefore : r.committedBefore = w.server.replicas.committed.length) :
    KvServiceInv json
      (w.arrive { w.server with reads := w.server.reads ++ [r] } r.mode r.key) := by
  have hlengths : w.readers.length = (w.server.reads.map ReadRequest.asked).length := by
    rw [List.length_map, h.readers]
  obtain ⟨order, horder⟩ := h.order
  unfold KvService.arrive
  split_ifs with hmode
  · refine { h with server := hserver, readers := ?_, reading := ?_ }
    · simp [h.readers]
    · intro c mode key m hmem
      rw [List.map_append, List.zip_append hlengths] at hmem
      rcases List.mem_append.mp hmem with hmem | hmem
      · exact h.reading c mode key m hmem
      · cases List.mem_singleton.mp hmem
  · refine { h with
      server := hserver, readers := ?_, below := h.below_succ _, begun := ?_
      reading := ?_, order := ⟨order, ?_⟩ }
    · simp [h.readers]
    · exact fun p hp => List.mem_append_left _ (h.begun p hp)
    · intro c mode key m hmem
      rw [List.map_append, List.zip_append hlengths] at hmem
      rcases List.mem_append.mp hmem with hmem | hmem
      · obtain ⟨hmode, hseen, hbegun⟩ := h.reading c mode key m hmem
        exact ⟨hmode, List.mem_append_left _ hseen, List.mem_append_left _ hbegun⟩
      · cases List.mem_singleton.mp hmem
        exact ⟨hmode, by simp [hbefore], by simp⟩
    · -- everything committed so far is there when it begins
      have hlength : w.log.length = w.server.replicas.committed.length := by
        rw [← h.owners, ← KvService.log_fst h.owners, List.length_map]
      have hbegun : .invoke w.calls (.read r.key)
          ∈ w.history ++ [.invoke w.calls (.read r.key)] := List.mem_append_right _ (by simp)
      have hwatch := (horder.invoke (.read r.key) h.fresh).watch hbegun
      rw [hlength] at hwatch
      exact hwatch

/-! ### What the cluster does beside its log -/

omit [Inhabited M] [DecidableEq L] in
lemma asked_after (e : ReplicaEvent L M) (r : ReadRequest L) : (r.after e).asked = r.asked := by
  cases e with
  | restart k =>
      rw [ReadRequest.after]
      split_ifs <;> rfl
  | _ => rfl

lemma perform_asked {u u' : ReadServer L M} {r : ℕ} {op : ReadOp L} {answer : op.Ans}
    (hstep : (readServer json).step u (.perform r op answer) = some u') :
    u'.replicas = u.replicas ∧
      u'.reads.map ReadRequest.asked = u.reads.map ReadRequest.asked := by
  simp only [readServer] at hstep
  split at hstep
  · rename_i request hrequest
    split at hstep
    · split_ifs at hstep
      cases hstep
      exact ⟨rfl, List.map_set_of_eq hrequest rfl⟩
    · cases hstep
  · cases hstep

omit [Inhabited M] [DecidableEq L] in
lemma asked_map_after (e : ReplicaEvent L M) (reads : List (ReadRequest L)) :
    (reads.map (ReadRequest.after e)).map ReadRequest.asked = reads.map ReadRequest.asked := by
  rw [List.map_map]
  exact List.map_congr_left fun r _ => asked_after e r

/-- A call of the stores other than a commit. -/
lemma KvServiceInv.replica (h : KvServiceInv json w) {e : ReplicaEvent L M}
    {server : ReadServer L M}
    (hstep : (readServer json).step w.server (.replica e) = some server)
    (hcommit : ∀ entry, e ≠ .commit entry) (hroll : NoRollback w.server (.replica e)) :
    KvServiceInv json { w with server } := by
  have hserver := readServerInv_step h.server hroll hstep
  obtain ⟨replicas', hreplicas, rfl⟩ := Option.map_eq_some_iff.mp hstep
  exact h.serve hserver (committed_of_step hreplicas hcommit) (asked_map_after e _)

/-- **Every step keeps the invariant.** -/
lemma kvServiceInv_step {w' : KvService L M} (h : KvServiceInv json w) {e : KvEvent L M}
    (hroll : e.Forward w) (hstep : (kvService json).step w e = some w') :
    KvServiceInv json w' := by
  cases e with
  | propose payload =>
      cases hstep
      exact h.propose payload
  | commit i id =>
      obtain ⟨p, hp, hstep⟩ := Option.bind_eq_some_iff.mp hstep
      split_ifs at hstep with hnew
      obtain ⟨server, hserver, rfl⟩ := Option.map_eq_some_iff.mp hstep
      have hinv := readServerInv_step h.server (e := .replica (.commit ⟨id, p.2⟩)) trivial hserver
      obtain ⟨replicas', hreplicas, rfl⟩ := Option.map_eq_some_iff.mp hserver
      have hlog : replicas'.committed = w.server.replicas.committed ++ [⟨id, p.2⟩] := by
        cases replicas_step hreplicas
        rfl
      exact h.commit (List.mem_of_getElem? hp) hnew hinv hlog (asked_map_after _ _)
  | respond i =>
      obtain ⟨sent, hsent, hstep⟩ := Option.bind_eq_some_iff.mp hstep
      obtain ⟨c, hc, hstep⟩ := Option.bind_eq_some_iff.mp hstep
      obtain ⟨-, rfl⟩ := KvService.answer_eq_some hstep
      exact h.respond (List.mem_of_getElem? hsent) hc
  | arrive node mode key =>
      cases hstep
      exact h.arrive (readServerInv_step h.server (e := .arrive node mode key) trivial rfl) rfl
  | perform r op answer =>
      obtain ⟨server, hserver, rfl⟩ := Option.map_eq_some_iff.mp hstep
      have hinv := readServerInv_step h.server (e := .perform r op answer) trivial hserver
      obtain ⟨hreplicas, hasked⟩ := perform_asked hserver
      exact h.serve hinv (by rw [hreplicas]) hasked
  | finish i =>
      obtain ⟨r, hr, hstep⟩ := Option.bind_eq_some_iff.mp hstep
      obtain ⟨value, hvalue, hstep⟩ := Option.bind_eq_some_iff.mp hstep
      obtain ⟨reader, hreader, hstep⟩ := Option.bind_eq_some_iff.mp hstep
      obtain ⟨c, hc, hstep⟩ := Option.bind_eq_some_iff.mp hstep
      obtain ⟨hopen, rfl⟩ := KvService.answer_eq_some hstep
      exact h.finish hr hvalue (hc ▸ hreader) hopen
  | replica e =>
      cases e with
      | commit entry => cases hstep
      | _ =>
          obtain ⟨server, hserver, rfl⟩ := Option.map_eq_some_iff.mp hstep
          exact h.replica hserver (by simp) hroll

end Steps

/-- **The key-value service is linearizable.**  In every run of any number of calls on any number of
nodes, where raft does not install a snapshot older than what a node has applied: one order of the
calls explains every answer to a write, a `/linearizable_read` and a `/follower_read` as that of a
single store, and puts no call ahead of one that was answered before it began.  The updates stand in
it as they stand in the log. -/
theorem kvService_linearizable (json : SerdeJson (BTreeMap String VersionedValue)) (count : ℕ)
    (events : List (KvEvent L M)) (w : KvService L M)
    (hroll : (kvService json).Along (fun w e => e.Forward w) (.init count) events)
    (hrun : (kvService json).run (.init count) events = some w) :
    ∃ order, Linearizes kvObject order w.history ∧
      order.filter (fun call => !call.2.isRead) = w.log := by
  have h : KvServiceInv json w := Machine.invariant_along (fun s e s' hs hC hstep =>
    kvServiceInv_step hs hC hstep) (kvServiceInv_init count) hroll hrun
  obtain ⟨order, horder⟩ := h.order
  exact ⟨order, horder.toLinearizes, horder.updates⟩

/-- A follower read that has got its read log id before a write is committed, and is answered after
the write and after another read that has seen it. -/
def sampleService : List (KvEvent ℕ (List ℕ)) :=
  [.propose (.membership [1, 2]), .propose (.normal (.set "k" "a")), .commit 0 ⟨1, 0⟩,
    .arrive 1 .followerRead "k", .perform 0 .currentLeader (some 1),
    .perform 0 (.leaderNode 1) (some "n1:21001"),
    .perform 0 (.getLinearizer "n1:21001") (.ok (.ok ⟨1, 0⟩)), .commit 1 ⟨1, 1⟩,
    .replica (.apply 0 [false, true] none), .respond 0, .arrive 0 .linearizableRead "k",
    .perform 1 .getReadLinearizer (.ok (.ok ⟨1, 1⟩)), .perform 1 (.awaitReady ⟨1, 1⟩) (.ok ()),
    .perform 1 (.get "k") (some ⟨"a", 1⟩), .finish 1, .replica (.apply 1 [false] none),
    .perform 0 (.awaitReady ⟨1, 0⟩) (.ok ()), .perform 0 (.get "k") none, .finish 0]

/-- What the clients see of it. -/
def sampleHistory : List (Action ℕ (KvOp (List ℕ)) (Option VersionedValue)) :=
  [.invoke 0 (.update (.membership [1, 2])), .invoke 1 (.update (.normal (.set "k" "a"))),
    .invoke 2 (.read "k"), .respond 1 (some ⟨"a", 1⟩), .invoke 3 (.read "k"),
    .respond 3 (some ⟨"a", 1⟩), .respond 2 none]

theorem kvService_linearizable_sample :
    ∃ w, (kvService sampleJson).run (.init 2) sampleService = some w ∧
      w.history = sampleHistory ∧ ∃ order, Linearizes kvObject order sampleHistory ∧
        order.filter (fun call => !call.2.isRead)
          = [(0, .update (.membership [1, 2])), (1, .update (.normal (.set "k" "a")))] := by
  have hend : ((kvService sampleJson).run (.init 2) sampleService).any (fun w =>
      decide (w.history = sampleHistory) && decide (w.log
        = [(0, .update (.membership [1, 2])), (1, .update (.normal (.set "k" "a")))])) = true := by
    decide +kernel
  have hroll : (kvService sampleJson).Along (fun w e => e.Forward w) (.init 2) sampleService := by
    decide +kernel
  obtain ⟨w, hrun, hw⟩ := (Option.any_eq_true _ _).mp hend
  rw [Bool.and_eq_true, decide_eq_true_eq, decide_eq_true_eq] at hw
  obtain ⟨hhistory, hlog⟩ := hw
  have horder := kvService_linearizable sampleJson 2 sampleService w hroll hrun
  rw [hhistory, hlog] at horder
  exact ⟨w, hrun, hhistory, horder⟩

end RaftBench.OpenRaft

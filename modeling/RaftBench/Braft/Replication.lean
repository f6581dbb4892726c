import RaftBench.Braft.Atomic

/-!
# Replicas agree whichever node holds the closures

The leader executes a request from the closure it kept, a follower re-parses the log entry, and a
leader that lost its leadership in between executes some entries one way and some the other.
`handle_eq_execute` shows that on an entry `apply` has built the two paths are the same function
of the request, so a whole log can be replayed without asking where the closures are.
-/

namespace RaftBench.Braft

/-- An entry of the replicated log: the bytes `apply` built for a request.  The proof that they
are those bytes is part of the entry, so no other entry can occur in a log. -/
structure LogEntry (pb : Protobuf) where
  request : Message
  data : List UInt8
  encoded : encode pb request = some data

/-- The entry as a node's iterator presents it: with the closure on the node that kept it. -/
def LogEntry.entry {pb : Protobuf} (e : LogEntry pb) (isLocal : Bool) : Entry :=
  ⟨e.data, if isLocal then some ⟨e.request, {}⟩ else none⟩

/-- A log as one node sees it, `isLocal i` telling whether the closure of entry `i` is there. -/
def entriesOn {pb : Protobuf} (isLocal : ℕ → Bool) (log : List (LogEntry pb)) : List Entry :=
  log.mapIdx fun i e => e.entry (isLocal i)

lemma entriesOn_cons {pb : Protobuf} (isLocal : ℕ → Bool) (e : LogEntry pb)
    (log : List (LogEntry pb)) :
    entriesOn isLocal (e :: log)
      = e.entry (isLocal 0) :: entriesOn (fun i => isLocal (i + 1)) log := by
  simp [entriesOn, List.mapIdx_cons]

/-- Every task `apply` hands to raft carries such an entry, with the request in its closure. -/
lemma apply_task_encoded {pb : Protobuf} {checkTerm : Bool} {self : Atomic} {request : Message}
    {response : AtomicResponse} {task : Task}
    (h : self.apply pb checkTerm request response = .task task) :
    encode pb request = some task.data ∧ task.done = ⟨request, response⟩ := by
  simp only [Atomic.apply] at h
  by_cases hterm : self.leaderTerm < 0
  · rw [if_pos hterm] at h
    exact Submission.noConfusion h
  · rw [if_neg hterm] at h
    cases hlog : encode pb request with
    | none => simp [hlog] at h
    | some log =>
        simp only [hlog, Submission.task.injEq] at h
        subst h
        exact ⟨rfl, rfl⟩

/-! ## Both ways of obtaining the request give the request -/

lemma requestOf_local {α : Type} (codec : Codec α) {cast : Message → Option α} (data : List UInt8)
    {m : Message} {r : α} (h : cast m = some r) :
    requestOf codec cast data (some m) = .ok r := by
  simp [requestOf, h]

lemma requestOf_parsed {α : Type} (codec : Codec α) (cast : Message → Option α)
    {data : List UInt8} {r : α} (h : codec.serialize r = some data) :
    requestOf codec cast data none = .ok r := by
  simp [requestOf, codec.parse_serialize r data h]

/-- An entry's bytes are the request's type byte and its serialization. -/
lemma LogEntry.data_eq {pb : Protobuf} (e : LogEntry pb) :
    ∃ bytes, pb.serialize e.request = some bytes ∧ e.data = e.request.opType.toByte :: bytes := by
  have h := e.encoded
  simp only [encode, Option.map_eq_some_iff] at h
  obtain ⟨bytes, hbytes, hdata⟩ := h
  exact ⟨bytes, hbytes, hdata.symm⟩

/-- Of the entry as either kind of node sees it, what the operation is handed as its request is
the request of the entry. -/
lemma requestOf_entry {α : Type} (codec : Codec α) (cast : Message → Option α)
    {bytes : List UInt8} {m : Message} {r : α} (hcast : cast m = some r)
    (hser : codec.serialize r = some bytes) (isLocal : Bool) :
    requestOf codec cast bytes (if isLocal then some m else none) = .ok r := by
  cases isLocal with
  | false => exact requestOf_parsed codec cast hser
  | true => exact requestOf_local codec bytes hcast

/-- **One entry.**  With or without the closure, applying a log entry executes its request. -/
theorem handle_eq_execute {pb : Protobuf} (map : ValueMap) (e : LogEntry pb) (isLocal : Bool) :
    handle pb map (e.entry isLocal) = .ok (execute map e.request) := by
  obtain ⟨bytes, hbytes, hdata⟩ := e.data_eq
  -- the closure contributes the request and an empty response, or nothing at all
  have hrequest : (e.entry isLocal).done.map AtomicClosure.request
      = if isLocal then some e.request else none := by
    cases isLocal <;> rfl
  have hresponse : ((e.entry isLocal).done.map AtomicClosure.response).getD {} = {} := by
    cases isLocal <;> rfl
  have hentry : (e.entry isLocal).data = e.request.opType.toByte :: bytes := hdata
  simp only [handle, hrequest, hresponse, hentry, List.headD_cons, List.tail_cons]
  cases hm : e.request with
  | get r =>
      rw [hm] at hbytes
      simp only [Message.opType, getValue, if_true,
        requestOf_entry pb.get Message.asGet? (m := .get r) rfl hbytes isLocal]
      rfl
  | exchange r =>
      rw [hm] at hbytes
      simp only [Message.opType, AtomicOpType.toByte, exchange,
        requestOf_entry pb.exchange Message.asExchange? (m := .exchange r) rfl hbytes isLocal]
      rfl
  | compareExchange r =>
      rw [hm] at hbytes
      simp only [Message.opType, AtomicOpType.toByte, cas,
        requestOf_entry pb.compareExchange Message.asCompareExchange? (m := .compareExchange r)
          rfl hbytes isLocal]
      rfl

/-- **A whole log.**  `on_apply` replays the requests of the log, wherever the closures are. -/
theorem onApply_eq_replay {pb : Protobuf} (isLocal : ℕ → Bool) (map : ValueMap)
    (log : List (LogEntry pb)) :
    onApply pb map (entriesOn isLocal log) = .ok (replay map (log.map LogEntry.request)) := by
  induction log generalizing map isLocal with
  | nil => rfl
  | cons e log ih =>
      rw [entriesOn_cons, onApply, handle_eq_execute]
      simp only [bind, Except.bind, ih, List.map_cons, replay]
      rfl

/-! ## Agreement -/

/-- **Replicas agree.**  Two nodes that apply the same log from the same map end in the same map
and compute the same responses, for any two placements of the closures; no `CHECK` fails on
either. -/
theorem replicas_agree (pb : Protobuf) (map : ValueMap) (log : List (LogEntry pb))
    (here there : ℕ → Bool) :
    ∃ map' responses,
      onApply pb map (entriesOn here log) = .ok (map', responses) ∧
      onApply pb map (entriesOn there log) = .ok (map', responses) ∧
      responses.length = log.length := by
  refine ⟨_, _, onApply_eq_replay here map log, onApply_eq_replay there map log, ?_⟩
  rw [replay_responses_length, List.length_map]

end RaftBench.Braft

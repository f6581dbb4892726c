import RaftBench.OpenRaft.Replicas

/-!
# The three kinds of read

`/read` answers from the node's own state machine.  `/linearizable_read` and `/follower_read`
(`raft-kv-memstore/src/http_api.rs`, `app-http/src/app.rs`) first obtain a read log id, on the
leader itself or over HTTP from the leader, and wait until the node has applied up to it.

The handlers are programs over what they ask raft for, and run one operation at a time next to the
replicas of `RaftBench.OpenRaft.Replicas`, any number of them at once.  Of raft only two promises
are modelled: a read log id covers whatever is committed when the leader hands it out, and waiting
for one ends well only when the node has applied it.

`reads_see_commits` says what the two kinds are for: a read that waits sees every entry that was
committed, and so every write that was acknowledged, before the request arrived.
-/

namespace RaftBench.OpenRaft

variable {L M : Type}

/-! ## The handlers -/

/-- What the handlers ask for. -/
inductive ReadOp (L : Type) where
  /-- `raft.current_leader()` -/
  | currentLeader
  /-- the node of the leader in the membership of the metrics, by its api address -/
  | leaderNode (leaderId : UInt64)
  /-- `client.get_linearizer()`, a request to the leader -/
  | getLinearizer (addr : String)
  /-- the first half of `raft.ensure_linearizable(ReadPolicy::ReadIndex)` -/
  | getReadLinearizer
  /-- `linearizer.await_ready(&raft)` -/
  | awaitReady (readLogId : LogId L)
  /-- `app.data.get(&key)` -/
  | get (key : String)
  deriving DecidableEq, Repr

/-- The answers; an error is given by its text. -/
abbrev ReadOp.Ans : ReadOp L → Type
  | .currentLeader => Option UInt64
  | .leaderNode _ => Option String
  | .getLinearizer _ => Except String (Except String (LogId L))
  | .getReadLinearizer => Except String (Except String (LogId L))
  | .awaitReady _ => Except String Unit
  | .get _ => Option VersionedValue

/-- Why a read brings no value. -/
inductive ReadFailure where
  | followerRead (message : String)
  | linearizable (error : String)
  /-- the `unwrap` of a fatal raft error -/
  | panicked (error : String)
  deriving DecidableEq, Repr

abbrev ReadProg (L : Type) :=
  Prog (ReadOp L) ReadOp.Ans (Except ReadFailure (Option VersionedValue))

/-- `App::ensure_follower_read_ready`, and then the handler's `next`. -/
def ensureFollowerReadReady (next : ReadProg L) : ReadProg L :=
  .call .currentLeader fun
  | none => .ret (.error (.followerRead "No leader available"))
  | some leaderId => .call (.leaderNode leaderId) fun
    | none => .ret (.error (.followerRead
        ("Leader node " ++ toString leaderId ++ " not found in membership")))
    | some addr => .call (.getLinearizer addr) fun
      | .error e => .ret (.error (.followerRead ("Failed to get linearizer from leader: " ++ e)))
      | .ok (.error e) => .ret (.error (.followerRead ("Leader returned error: " ++ e)))
      | .ok (.ok readLogId) => .call (.awaitReady readLogId) fun
        | .error e => .ret (.error (.followerRead ("Failed to wait for state machine: " ++ e)))
        | .ok () => next

/-- `App::ensure_linearizable`: raft gets the linearizer and waits for it. -/
def ensureLinearizable (next : ReadProg L) : ReadProg L :=
  .call .getReadLinearizer fun
  | .error e => .ret (.error (.panicked e))
  | .ok (.error e) => .ret (.error (.linearizable e))
  | .ok (.ok readLogId) => .call (.awaitReady readLogId) fun
    | .error e => .ret (.error (.panicked e))
    | .ok () => next

/-- The value is looked up in the node's own data. -/
def readLocal (key : String) : ReadProg L := .call (.get key) fun value => .ret (.ok value)

inductive ReadMode where
  | read
  | linearizableRead
  | followerRead
  deriving DecidableEq, Repr

/-- The handler of a route. -/
def ReadMode.handler (key : String) : ReadMode → ReadProg L
  | .read => readLocal key
  | .linearizableRead => ensureLinearizable (readLocal key)
  | .followerRead => ensureFollowerReadReady (readLocal key)

/-! ## The machine -/

/-- A read in progress.  What was committed and acknowledged when it arrived is kept for the
statement; no step looks at it. -/
structure ReadRequest (L : Type) where
  node : ℕ
  mode : ReadMode
  key : String
  committedBefore : ℕ
  answeredBefore : List (LogId L × Option VersionedValue)
  /-- what is left of the handler; `none` when the node has gone down with it -/
  prog : Option (ReadProg L)

structure ReadServer (L M : Type) where
  replicas : Replicas L M
  reads : List (ReadRequest L)

inductive ReadEvent (L M : Type) where
  | replica (e : ReplicaEvent L M)
  | arrive (node : ℕ) (mode : ReadMode) (key : String)
  | perform (r : ℕ) (op : ReadOp L) (answer : op.Ans)

/-- The answers a node can get: what raft promises of them, and what its own store holds. -/
def Replicas.Admits (w : Replicas L M) (s : StateMachineStoreInner L M) :
    (op : ReadOp L) → op.Ans → Prop
  | .getLinearizer _, .ok (.ok readLogId) => w.committed.length ≤ nextIndex (some readLogId)
  | .getReadLinearizer, .ok (.ok readLogId) => w.committed.length ≤ nextIndex (some readLogId)
  | .awaitReady readLogId, .ok () => nextIndex (some readLogId) ≤ nextIndex s.lastAppliedLog
  | .get key, value => value = s.get key
  | _, _ => True

instance (w : Replicas L M) (s : StateMachineStoreInner L M) :
    ∀ (op : ReadOp L) (answer : op.Ans), Decidable (w.Admits s op answer)
  | .currentLeader, _ => isTrue trivial
  | .leaderNode _, _ => isTrue trivial
  | .getLinearizer _, .ok (.ok _) => inferInstanceAs (Decidable (_ ≤ _))
  | .getLinearizer _, .ok (.error _) => isTrue trivial
  | .getLinearizer _, .error _ => isTrue trivial
  | .getReadLinearizer, .ok (.ok _) => inferInstanceAs (Decidable (_ ≤ _))
  | .getReadLinearizer, .ok (.error _) => isTrue trivial
  | .getReadLinearizer, .error _ => isTrue trivial
  | .awaitReady _, .ok () => inferInstanceAs (Decidable (_ ≤ _))
  | .awaitReady _, .error _ => isTrue trivial
  | .get _, _ => inferInstanceAs (Decidable (_ = _))

/-- A node that restarts takes its requests down with it. -/
def ReadRequest.after : ReplicaEvent L M → ReadRequest L → ReadRequest L
  | .restart k, r => if r.node = k then { r with prog := none } else r
  | _, r => r

variable [Inhabited M] [DecidableEq L]

def readServer (json : SerdeJson (BTreeMap String VersionedValue)) :
    Machine (ReadServer L M) (ReadEvent L M) where
  step w
    | .replica e => ((replicas json).step w.replicas e).map fun replicas =>
        ⟨replicas, w.reads.map (ReadRequest.after e)⟩
    | .arrive node mode key =>
        some { w with reads := w.reads ++ [⟨node, mode, key, w.replicas.committed.length,
          w.replicas.answers, some (mode.handler key)⟩] }
    | .perform r op answer =>
        match w.reads[r]? with
        | some request =>
            match request.prog, w.replicas.nodes[request.node]? with
            | some (.call op' next), some s =>
                if h : op' = op then
                  if w.replicas.Admits s op answer then
                    some { w with reads := w.reads.set r { request with
                      prog := some (next (h ▸ answer)) } }
                  else none
                else none
            | _, _ => none
        | none => none

/-- Raft does not install a snapshot that is older than what the node has applied. -/
def NoRollback (w : ReadServer L M) : ReadEvent L M → Prop
  | .replica (.installSnapshot k i) => ∀ s ∈ w.replicas.nodes[k]?,
      ∀ snapshot ∈ w.replicas.shipped[i]?,
        nextIndex s.lastAppliedLog ≤ nextIndex snapshot.metadata.lastLogId
  | _ => True

omit [Inhabited M] [DecidableEq L] in
instance (w : ReadServer L M) : ∀ e : ReadEvent L M, Decidable (NoRollback w e)
  | .replica (.installSnapshot _ _) =>
      inferInstanceAs (Decidable (∀ s ∈ (_ : Option _), ∀ snapshot ∈ (_ : Option _), _ ≤ _))
  | .replica (.commit _) => isTrue trivial
  | .replica (.apply _ _ _) => isTrue trivial
  | .replica (.buildSnapshot _) => isTrue trivial
  | .replica (.getCurrentSnapshot _) => isTrue trivial
  | .replica (.refuseSnapshot _ _ _) => isTrue trivial
  | .replica (.restart _) => isTrue trivial
  | .arrive _ _ _ => isTrue trivial
  | .perform _ _ _ => isTrue trivial

/-! ## Nodes do not fall back -/

section Advance

omit [Inhabited M] [DecidableEq L]

/-- Node `j` has applied at least as much as before. -/
def Advances (w w' : Replicas L M) (j : ℕ) : Prop :=
  ∀ t' ∈ w'.nodes[j]?, ∃ t ∈ w.nodes[j]?, nextIndex t.lastAppliedLog ≤ nextIndex t'.lastAppliedLog

lemma advances_of_nodes {w w' : Replicas L M} (h : w'.nodes = w.nodes) (j : ℕ) : Advances w w' j :=
  fun t' ht' => ⟨t', h ▸ ht', le_rfl⟩

lemma advances_setNode {w : Replicas L M} {k : ℕ} {s s' : StateMachineStoreInner L M}
    (hs : w.nodes[k]? = some s) {w' : Replicas L M} (hw' : w'.nodes = w.nodes.set k s') (j : ℕ)
    (hle : j = k → nextIndex s.lastAppliedLog ≤ nextIndex s'.lastAppliedLog) :
    Advances w w' j := by
  intro t' ht'
  rw [hw'] at ht'
  by_cases hj : k = j
  · subst hj
    rw [List.getElem?_set_self (List.getElem?_eq_some_iff.mp hs).1, Option.mem_some_iff] at ht'
    exact ⟨s, hs, ht' ▸ hle rfl⟩
  · rw [List.getElem?_set_ne hj] at ht'
    exact ⟨t', ht', le_rfl⟩

/-- Applying the next entries of the log does not take a store back. -/
lemma nextIndex_le_applyAll {log : List (Entry L (EntryPayload M))} {a : Applied L M}
    (hlog : Consecutive.From Entry.position 0 log) (n : ℕ) :
    nextIndex a.lastAppliedLog ≤ nextIndex
      (a.applyAll ((log.drop (nextIndex a.lastAppliedLog)).take n)).lastAppliedLog := by
  have hpiece := (hlog.drop (nextIndex a.lastAppliedLog)).take n
  rw [Nat.zero_add] at hpiece
  rw [Applied.nextIndex_applyAll hpiece rfl]
  exact Nat.le_add_right ..

end Advance

section

omit [DecidableEq L]

variable {json : SerdeJson (BTreeMap String VersionedValue)}

/-- **No call takes a node back**, except for its own restart. -/
lemma advances_step {w w' : Replicas L M} (h : ReplicasInv json w) {e : ReplicaEvent L M}
    (hstep : (replicas json).step w e = some w') {reads : List (ReadRequest L)}
    (hroll : NoRollback ⟨w, reads⟩ (.replica e)) (j : ℕ) (hrestart : e ≠ .restart j) :
    Advances w w' j := by
  cases replicas_step hstep with
  | commits entry next => exact advances_of_nodes rfl j
  | applies k held failure s found =>
      refine advances_setNode found rfl j fun _ => ?_
      rw [apply_store, delivered_stream_fst]
      exact nextIndex_le_applyAll h.log held.length
  | builds k s s' snapshot found built =>
      refine advances_setNode found rfl j fun _ => ?_
      rw [(buildSnapshot_ok built).1]
  | hands k s found => exact advances_of_nodes rfl j
  | installs k i s s' snapshot found arrived installed =>
      refine advances_setNode found rfl j fun _ => ?_
      have hnewer := hroll s found snapshot arrived
      rw [StateMachineStoreInner.installSnapshot] at installed
      split at installed <;> cases installed
      exact hnewer
  | restarts k s found =>
      refine advances_setNode found rfl j fun hj => ?_
      exact absurd (hj ▸ rfl) hrestart
  | buildFails k s e found failed => exact advances_of_nodes rfl j
  | installFails k i s snapshot e found arrived failed => exact advances_of_nodes rfl j
  | refuses k s metadata data e found failed => exact advances_of_nodes rfl j

/-- The log only grows. -/
lemma committed_isPrefix_step {w w' : Replicas L M} {e : ReplicaEvent L M}
    (hstep : (replicas json).step w e = some w') : w.committed <+: w'.committed := by
  cases replicas_step hstep with
  | commits entry next => exact List.prefix_append ..
  | _ => exact List.prefix_rfl

end

/-! ## Handlers that wait -/

/-- The program looks the key up only when `ready` holds, or after it has waited for a read log id
that covers the first `bound` entries; and it returns a value only then, the one it has found. -/
def Careful (bound : ℕ) (key : String) : Prop → ReadProg L → Prop
  | _, .ret (.error _) => True
  | _, .ret (.ok _) => False
  | ready, .call .currentLeader next => ∀ answer, Careful bound key ready (next answer)
  | ready, .call (.leaderNode _) next => ∀ answer, Careful bound key ready (next answer)
  | ready, .call (.getLinearizer _) next => ∀ answer,
      (∀ readLogId, answer = .ok (.ok readLogId) → bound ≤ nextIndex (some readLogId)) →
        Careful bound key ready (next answer)
  | ready, .call .getReadLinearizer next => ∀ answer,
      (∀ readLogId, answer = .ok (.ok readLogId) → bound ≤ nextIndex (some readLogId)) →
        Careful bound key ready (next answer)
  | ready, .call (.awaitReady readLogId) next => ∀ answer,
      Careful bound key (ready ∨ (answer = .ok () ∧ bound ≤ nextIndex (some readLogId)))
        (next answer)
  | ready, .call (.get key') next => ready ∧ key' = key ∧ ∀ value, next value = .ret (.ok value)

section Careful

omit [Inhabited M] [DecidableEq L]

variable {bound : ℕ} {key : String} {ready ready' : Prop}

lemma Careful.mono {p : ReadProg L} (h : Careful bound key ready p) (hready : ready → ready') :
    Careful bound key ready' p := by
  induction p generalizing ready ready' with
  | ret a => cases a with
    | error e => trivial
    | ok value => exact h
  | call op next ih =>
      cases op with
      | currentLeader => exact fun answer => ih answer (h answer) hready
      | leaderNode leaderId => exact fun answer => ih answer (h answer) hready
      | getLinearizer addr => exact fun answer hid => ih answer (h answer hid) hready
      | getReadLinearizer => exact fun answer hid => ih answer (h answer hid) hready
      | awaitReady readLogId => exact fun answer => ih answer (h answer) (Or.imp_left hready)
      | get key' => exact ⟨hready h.1, h.2⟩

lemma careful_readLocal (h : ready) : Careful (L := L) bound key ready (readLocal key) :=
  ⟨h, rfl, fun _ => rfl⟩

/-- The handlers that wait are careful from the start. -/
lemma careful_handler {mode : ReadMode} (hmode : mode ≠ .read) :
    Careful (L := L) bound key ready (mode.handler key) := by
  cases mode with
  | read => exact absurd rfl hmode
  | linearizableRead =>
      intro answer hid
      cases answer with
      | error e => trivial
      | ok answer =>
          cases answer with
          | error e => trivial
          | ok readLogId =>
              intro answer
              cases answer with
              | error e => trivial
              | ok u => exact careful_readLocal (Or.inr ⟨rfl, hid readLogId rfl⟩)
  | followerRead =>
      intro leader
      cases leader with
      | none => trivial
      | some leaderId =>
          intro node
          cases node with
          | none => trivial
          | some addr =>
              intro answer hid
              cases answer with
              | error e => trivial
              | ok answer =>
                  cases answer with
                  | error e => trivial
                  | ok readLogId =>
                      intro answer
                      cases answer with
                      | error e => trivial
                      | ok u => exact careful_readLocal (Or.inr ⟨rfl, hid readLogId rfl⟩)

end Careful

/-! ## The invariant -/

/-- What a read has to see: nothing in particular, or what was committed when it arrived. -/
def ReadRequest.bound (r : ReadRequest L) : ℕ := if r.mode = .read then 0 else r.committedBefore

/-- The value is what the key holds after a prefix of the log with at least `bound` entries. -/
def Fresh (log : List (Entry L (EntryPayload M))) (bound : ℕ) (key : String)
    (value : Option VersionedValue) : Prop :=
  ∃ n, bound ≤ n ∧ n ≤ log.length ∧ value = (replay (log.take n)).stateMachine.data[key]?

structure ReadInv (w : Replicas L M) (r : ReadRequest L) : Prop where
  committed : r.committedBefore ≤ w.committed.length
  answered : ∀ answer ∈ r.answeredBefore, answer.1.index.toNat < r.committedBefore
  careful : ∀ op next, r.prog = some (.call op next) → ∀ s ∈ w.nodes[r.node]?,
    Careful r.bound r.key (r.bound ≤ nextIndex s.lastAppliedLog) (.call op next)
  returned : ∀ value, r.prog = some (.ret (.ok value)) → Fresh w.committed r.bound r.key value

structure ReadServerInv (json : SerdeJson (BTreeMap String VersionedValue)) (w : ReadServer L M) :
    Prop where
  replicas : ReplicasInv json w.replicas
  reads : ∀ r ∈ w.reads, ReadInv w.replicas r

section Steps

variable {json : SerdeJson (BTreeMap String VersionedValue)}

omit [DecidableEq L] in
lemma Fresh.grow {log log' : List (Entry L (EntryPayload M))} {bound : ℕ} {key : String}
    {value : Option VersionedValue} (h : Fresh log bound key value) (hlog : log <+: log') :
    Fresh log' bound key value := by
  obtain ⟨n, hbound, hn, hvalue⟩ := h
  refine ⟨n, hbound, hn.trans hlog.length_le, ?_⟩
  obtain ⟨rest, rfl⟩ := hlog
  rw [List.take_append_of_le_length hn, hvalue]

omit [DecidableEq L] in
/-- A read next to a call of the replicas. -/
lemma ReadInv.replica {w w' : Replicas L M} (hw : ReplicasInv json w) {r : ReadRequest L}
    (h : ReadInv w r) {e : ReplicaEvent L M} (hstep : (replicas json).step w e = some w')
    {reads : List (ReadRequest L)} (hroll : NoRollback ⟨w, reads⟩ (.replica e)) :
    ReadInv w' (r.after e) := by
  have hgrow := committed_isPrefix_step hstep
  have hkeep : e ≠ .restart r.node → ReadInv w' r := by
    intro hrestart
    refine ⟨h.committed.trans hgrow.length_le, h.answered, fun op next hprog s' hs' => ?_,
      fun value hvalue => (h.returned value hvalue).grow hgrow⟩
    obtain ⟨s, hs, hle⟩ := advances_step hw hstep hroll r.node hrestart s' hs'
    exact (h.careful op next hprog s hs).mono fun hbound => hbound.trans hle
  cases e with
  | restart k =>
      by_cases hk : r.node = k
      · rw [ReadRequest.after, if_pos hk]
        exact ⟨h.committed.trans hgrow.length_le, h.answered, by simp, by simp⟩
      · rw [ReadRequest.after, if_neg hk]
        exact hkeep (by simpa using Ne.symm hk)
  | _ => exact hkeep (by simp)

omit [DecidableEq L] in
/-- A read that arrives. -/
lemma readInv_arrive {w : Replicas L M} (hw : ReplicasInv json w) (node : ℕ) (mode : ReadMode)
    (key : String) : ReadInv w ⟨node, mode, key, w.committed.length, w.answers,
      some (mode.handler key)⟩ := by
  refine ⟨le_rfl, fun answer hanswer => ?_, ?_, ?_⟩
  · obtain ⟨e, he, -⟩ := hw.answers answer hanswer
    exact (List.getElem?_eq_some_iff.mp he).1
  · intro op next hprog s _
    rw [← Option.some.inj hprog]
    by_cases hmode : mode = .read
    · subst hmode
      exact careful_readLocal (Nat.zero_le _)
    · exact careful_handler hmode
  · intro value hvalue
    cases mode <;> cases hvalue

omit [DecidableEq L] in
/-- A read that gets an answer. -/
lemma ReadInv.perform {w : Replicas L M} (hw : ReplicasInv json w) {r : ReadRequest L}
    (h : ReadInv w r) {op : ReadOp L} {next : op.Ans → ReadProg L}
    (hprog : r.prog = some (.call op next)) {s : StateMachineStoreInner L M}
    (hs : w.nodes[r.node]? = some s) {answer : op.Ans} (hadmits : w.Admits s op answer) :
    ReadInv w { r with prog := some (next answer) } := by
  have hcareful := h.careful op next hprog s hs
  have hbound : r.bound ≤ w.committed.length := by
    rw [ReadRequest.bound]
    split_ifs
    · exact Nat.zero_le _
    · exact h.committed
  -- everything but the look-up goes on to a careful program
  have hmove : Careful r.bound r.key (r.bound ≤ nextIndex s.lastAppliedLog) (next answer) →
      ReadInv w { r with prog := some (next answer) } := by
    intro hnext
    refine ⟨h.committed, h.answered, fun op' next' hprog' t ht => ?_, fun value hvalue => ?_⟩
    · rw [hs, Option.mem_some_iff] at ht
      rw [← Option.some.inj hprog', ← ht]
      exact hnext
    · rw [Option.some.inj hvalue] at hnext
      exact hnext.elim
  cases op with
  | currentLeader => exact hmove (hcareful answer)
  | leaderNode leaderId => exact hmove (hcareful answer)
  | getLinearizer addr =>
      refine hmove (hcareful answer fun readLogId hanswer => ?_)
      subst hanswer
      exact hbound.trans hadmits
  | getReadLinearizer =>
      refine hmove (hcareful answer fun readLogId hanswer => ?_)
      subst hanswer
      exact hbound.trans hadmits
  | awaitReady readLogId =>
      refine hmove ((hcareful answer).mono ?_)
      rintro (hready | ⟨rfl, hid⟩)
      · exact hready
      · exact hid.trans hadmits
  | get key =>
      obtain ⟨hready, rfl, hreturn⟩ := hcareful
      refine ⟨h.committed, h.answered, fun op' next' hprog' => ?_, fun value hvalue => ?_⟩
      · rw [hreturn] at hprog'
        cases hprog'
      · obtain ⟨hle, hreplay⟩ := hw.nodes s (List.mem_of_getElem? hs)
        refine ⟨nextIndex s.lastAppliedLog, hready, hle, ?_⟩
        rw [hreturn] at hvalue
        cases hvalue
        rw [← hreplay]
        exact hadmits

/-- **Every step keeps the invariant.** -/
lemma readServerInv_step {w w' : ReadServer L M} (h : ReadServerInv json w) {e : ReadEvent L M}
    (hroll : NoRollback w e) (hstep : (readServer json).step w e = some w') :
    ReadServerInv json w' := by
  cases e with
  | replica e =>
      obtain ⟨replicas', hreplicas, rfl⟩ := Option.map_eq_some_iff.mp hstep
      refine ⟨replicasInv_step h.replicas hreplicas, fun r hr => ?_⟩
      obtain ⟨r, hmem, rfl⟩ := List.mem_map.mp hr
      exact (h.reads r hmem).replica h.replicas hreplicas hroll
  | arrive node mode key =>
      cases hstep
      refine ⟨h.replicas, fun r hr => ?_⟩
      rcases List.mem_append.mp hr with hr | hr
      · exact h.reads r hr
      · rw [List.mem_singleton.mp hr]
        exact readInv_arrive h.replicas node mode key
  | perform i op answer =>
      simp only [readServer] at hstep
      split at hstep
      · rename_i r hr
        split at hstep
        · rename_i op' next s hprog hs
          split_ifs at hstep with hop hadmits
          subst hop
          cases hstep
          have hread := (h.reads r (List.mem_of_getElem? hr)).perform h.replicas hprog hs hadmits
          exact ⟨h.replicas, List.forall_set h.reads hread i⟩
        · cases hstep
      · cases hstep

omit [DecidableEq L] in
lemma readServerInv_init (count : ℕ) :
    ReadServerInv json (⟨.init count, []⟩ : ReadServer L M) :=
  ⟨replicasInv_init count, by simp⟩

end Steps

/-- **A read that waits sees what was committed.**  In every run of any number of reads next to the
replicas, where raft does not install a snapshot older than what a node has applied: a read that
brings a value brings what its key holds after a prefix of the log.  For `/linearizable_read` and
`/follower_read` that prefix has every entry that was committed when the request arrived, and so
every write that had been answered by then. -/
theorem reads_see_commits (json : SerdeJson (BTreeMap String VersionedValue)) (count : ℕ)
    (events : List (ReadEvent L M)) (w : ReadServer L M)
    (hroll : (readServer json).Along NoRollback ⟨.init count, []⟩ events)
    (hrun : (readServer json).run ⟨.init count, []⟩ events = some w) :
    ∀ r ∈ w.reads, ∀ value, r.prog = some (.ret (.ok value)) →
      ∃ n ≤ w.replicas.committed.length,
        value = (replay (w.replicas.committed.take n)).stateMachine.data[r.key]? ∧
        (r.mode ≠ .read → r.committedBefore ≤ n ∧
          ∀ answer ∈ r.answeredBefore, answer.1.index.toNat < n) := by
  have h : ReadServerInv json w := Machine.invariant_along (fun s e s' hs hC hstep =>
    readServerInv_step hs hC hstep) (readServerInv_init count) hroll hrun
  intro r hr value hvalue
  obtain ⟨n, hbound, hn, hfound⟩ := (h.reads r hr).returned value hvalue
  refine ⟨n, hn, hfound, fun hmode => ?_⟩
  rw [ReadRequest.bound, if_neg hmode] at hbound
  exact ⟨hbound, fun answer hanswer =>
    lt_of_lt_of_le ((h.reads r hr).answered answer hanswer) hbound⟩

/-- A write is answered on the first node, and then the second one, which has applied nothing, gets
a `/read` and a `/follower_read`. -/
def sampleReads : List (ReadEvent ℕ (List ℕ)) :=
  [.replica (.commit ⟨⟨1, 0⟩, .membership [1, 2]⟩),
    .replica (.commit ⟨⟨1, 1⟩, .normal (.set "k" "a")⟩), .replica (.apply 0 [false, true] none),
    .arrive 1 .read "k", .arrive 1 .followerRead "k", .perform 1 .currentLeader (some 1),
    .perform 1 (.leaderNode 1) (some "n1:21001"),
    .perform 1 (.getLinearizer "n1:21001") (.ok (.ok ⟨1, 1⟩)), .perform 0 (.get "k") none,
    .replica (.apply 1 [false, false] none), .perform 1 (.awaitReady ⟨1, 1⟩) (.ok ()),
    .perform 1 (.get "k") (some ⟨"a", 1⟩)]

/-- What a read has brought. -/
def ReadRequest.value (r : ReadRequest L) : Option (Option VersionedValue) :=
  match r.prog with
  | some (.ret (.ok value)) => some value
  | _ => none

omit [DecidableEq L] in
lemma ReadRequest.prog_of_value {r : ReadRequest L} {value : Option VersionedValue}
    (h : r.value = some value) : r.prog = some (.ret (.ok value)) := by
  unfold ReadRequest.value at h
  split at h
  · rename_i found hprog
    rw [hprog, Option.some.inj h]
  · cases h

theorem reads_see_commits_sample :
    ∃ w, (readServer sampleJson).run ⟨.init 2, []⟩ sampleReads = some w ∧
      w.reads.map ReadRequest.value = [some none, some (some ⟨"a", 1⟩)] ∧
      ∃ r ∈ w.reads, r.mode = .followerRead ∧ r.answeredBefore = [(⟨1, 1⟩, some ⟨"a", 1⟩)] ∧
        ∃ n, 1 < n ∧
          some ⟨"a", 1⟩ = (replay (w.replicas.committed.take n)).stateMachine.data[r.key]? := by
  have hend : ((readServer sampleJson).run ⟨.init 2, []⟩ sampleReads).any (fun w =>
      decide (w.reads.map ReadRequest.value = [some none, some (some ⟨"a", 1⟩)]) &&
      w.reads[1]?.any fun r => decide (r.mode = .followerRead) &&
        decide (r.value = some (some ⟨"a", 1⟩)) &&
        decide (r.answeredBefore = [(⟨1, 1⟩, some ⟨"a", 1⟩)])) = true := by
    decide +kernel
  have hroll : (readServer sampleJson).Along NoRollback ⟨.init 2, []⟩ sampleReads := by
    decide +kernel
  obtain ⟨w, hrun, hw⟩ := (Option.any_eq_true _ _).mp hend
  rw [Bool.and_eq_true, decide_eq_true_eq] at hw
  obtain ⟨hvalues, hread⟩ := hw
  obtain ⟨r, hr, hread⟩ := (Option.any_eq_true _ _).mp hread
  simp only [Bool.and_eq_true, decide_eq_true_eq] at hread
  obtain ⟨⟨hmode, hvalue⟩, hanswered⟩ := hread
  have hmem := List.mem_of_getElem? hr
  obtain ⟨n, -, hfound, hseen⟩ := reads_see_commits sampleJson 2 sampleReads w hroll hrun r hmem _
    (ReadRequest.prog_of_value hvalue)
  refine ⟨w, hrun, hvalues, r, hmem, hmode, hanswered, n, ?_, hfound⟩
  exact (hseen (by simp [hmode])).2 (⟨1, 1⟩, some ⟨"a", 1⟩) (by simp [hanswered])

end RaftBench.OpenRaft

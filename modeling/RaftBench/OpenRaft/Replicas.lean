import RaftBench.Lib.Update
import RaftBench.OpenRaft.StateMachineStore

/-!
# Replicas of the key-value store

Any number of state machine stores behind one replicated log.  Of raft only its promise is modelled:
there is one sequence of committed entries, it only grows, and a store is handed the entries behind
the last one it has applied, in order.  Everything else is free: how many entries a call of `apply`
brings, where its stream fails, which nodes hold the responders, when a snapshot is built, how long
it is on its way and to whom, and when a node loses its memory.

`ReplicasInv` says that every store and every snapshot is what some prefix of the log leaves behind,
and `replicas_follow_log` that this makes the log the only thing a store depends on.
-/

namespace RaftBench.OpenRaft

variable {L M : Type}

structure Replicas (L M : Type) where
  committed : List (Entry L (EntryPayload M))
  nodes : List (StateMachineStoreInner L M)
  /-- The snapshots that have been handed out, and may arrive anywhere at any time. -/
  shipped : List (StoredSnapshot L M)
  /-- What the responders have been sent, by the log id of their entry. -/
  answers : List (LogId L × Option VersionedValue)

inductive ReplicaEvent (L M : Type) where
  | commit (entry : Entry L (EntryPayload M))
  | apply (k : ℕ) (held : List Bool) (failure : Option IoError)
  | buildSnapshot (k : ℕ)
  | getCurrentSnapshot (k : ℕ)
  | installSnapshot (k i : ℕ)
  | refuseSnapshot (k : ℕ) (metadata : SnapshotMeta L M) (data : ByteArray)
  | restart (k : ℕ)

namespace Replicas

/-- The stream `apply` is called with: the entries behind the last applied one, each with its
responder on the node that holds it, and then perhaps a failure. -/
def stream (committed : List (Entry L (EntryPayload M))) (s : StateMachineStoreInner L M)
    (held : List Bool) (failure : Option IoError) :
    List (Except IoError (Entry L (EntryPayload M) × Option (LogId L))) :=
  ((committed.drop (nextIndex s.lastAppliedLog)).zip held).map
      (fun item => .ok (item.1, if item.2 then some item.1.logId else none))
    ++ (failure.map Except.error).toList

def setNode (w : Replicas L M) (k : ℕ) (s : StateMachineStoreInner L M) : Replicas L M :=
  { w with nodes := w.nodes.set k s }

end Replicas

/-! ## The stream -/

lemma delivered_stream (committed : List (Entry L (EntryPayload M)))
    (s : StateMachineStoreInner L M) (held : List Bool) (failure : Option IoError) :
    delivered (Replicas.stream committed s held failure)
      = ((committed.drop (nextIndex s.lastAppliedLog)).zip held).map
          fun item => (item.1, if item.2 then some item.1.logId else none) := by
  have hitems := delivered_map_ok (((committed.drop (nextIndex s.lastAppliedLog)).zip held).map
    fun item => (item.1, if item.2 then some item.1.logId else none)) failure
  rw [List.map_map] at hitems
  exact hitems

/-- The entries the stream yields are the next ones of the log. -/
lemma delivered_stream_fst (committed : List (Entry L (EntryPayload M)))
    (s : StateMachineStoreInner L M) (held : List Bool) (failure : Option IoError) :
    (delivered (Replicas.stream committed s held failure)).map Prod.fst
      = (committed.drop (nextIndex s.lastAppliedLog)).take held.length := by
  generalize hrest : committed.drop (nextIndex s.lastAppliedLog) = rest
  rw [delivered_stream, hrest, List.map_map]
  have hfst : (Prod.fst ∘ fun item : Entry L (EntryPayload M) × Bool =>
      (item.1, if item.2 then some item.1.logId else none)) = Prod.fst := rfl
  rw [hfst, List.zip_eq_zip_take_min, List.map_fst_zip (by simp)]
  rw [List.take_eq_take_iff]
  omega

/-- A responder that has been sent something belongs to its own entry. -/
lemma logId_of_mem_delivered {committed : List (Entry L (EntryPayload M))}
    {s : StateMachineStoreInner L M} {held : List Bool} {failure : Option IoError}
    {e : Entry L (EntryPayload M)} {id : LogId L}
    (h : (e, some id) ∈ delivered (Replicas.stream committed s held failure)) : e.logId = id := by
  rw [delivered_stream] at h
  obtain ⟨item, -, hitem⟩ := List.mem_map.mp h
  obtain ⟨rfl, hsome⟩ := Prod.mk.inj hitem
  split_ifs at hsome
  exact Option.some.inj hsome

/-- What stands in a piece of the log stands in the log. -/
lemma take_of_drop_take {log before after : List (Entry L (EntryPayload M))} {count n : ℕ}
    {e : Entry L (EntryPayload M)} (h : (log.drop count).take n = before ++ e :: after)
    (hcount : count ≤ log.length) : log[count + before.length]? = some e ∧
      log.take (count + before.length) = log.take count ++ before := by
  have hsplit : log = (log.take count ++ before) ++ e :: (after ++ (log.drop count).drop n) := by
    conv_lhs =>
      rw [← List.take_append_drop count log, ← List.take_append_drop n (log.drop count), h]
    simp
  have hlength : (log.take count ++ before).length = count + before.length := by
    simp [hcount]
  constructor
  · conv_lhs => rw [hsplit, ← hlength, List.getElem?_append_right le_rfl, Nat.sub_self]
    rfl
  · conv_lhs => rw [hsplit, ← hlength]
    exact List.take_left

/-! ## The machine -/

variable [Inhabited M]

def Replicas.init (count : ℕ) : Replicas L M := ⟨[], List.replicate count .init, [], []⟩

/-- The stores and the log, one call at a time. -/
def replicas (json : SerdeJson (BTreeMap String VersionedValue)) :
    Machine (Replicas L M) (ReplicaEvent L M) where
  step w
    | .commit entry =>
        if entry.position = w.committed.length then
          some { w with committed := w.committed ++ [entry] }
        else none
    | .apply k held failure =>
        w.nodes[k]?.map fun s =>
          let (s', sent, _) := s.apply (Replicas.stream w.committed s held failure)
          { w.setNode k s' with answers := w.answers ++ sent }
    | .buildSnapshot k =>
        w.nodes[k]?.map fun s =>
          match s.buildSnapshot json with
          | .error _ => w
          | .ok (s', snapshot) => { w.setNode k s' with shipped := w.shipped ++ [snapshot] }
    | .getCurrentSnapshot k =>
        w.nodes[k]?.map fun s => { w with shipped := w.shipped ++ s.getCurrentSnapshot.toList }
    | .installSnapshot k i =>
        w.nodes[k]?.bind fun s => w.shipped[i]?.map fun snapshot =>
          match s.installSnapshot json snapshot.metadata snapshot.data with
          | .error _ => w
          | .ok s' => w.setNode k s'
    | .refuseSnapshot k metadata data =>
        -- bytes that are no snapshot, with any metadata
        w.nodes[k]?.bind fun s =>
          match s.installSnapshot json metadata data with
          | .error _ => some w
          | .ok _ => none
    | .restart k => w.nodes[k]?.map fun _ => w.setNode k .init

/-- The possible steps, with their guards and their effect. -/
inductive ReplicaStep (json : SerdeJson (BTreeMap String VersionedValue)) (w : Replicas L M) :
    ReplicaEvent L M → Replicas L M → Prop where
  | commits (entry : Entry L (EntryPayload M)) (next : entry.position = w.committed.length) :
      ReplicaStep json w (.commit entry) { w with committed := w.committed ++ [entry] }
  | applies (k : ℕ) (held : List Bool) (failure : Option IoError)
      (s : StateMachineStoreInner L M) (found : w.nodes[k]? = some s) :
      ReplicaStep json w (.apply k held failure)
        { w.setNode k (s.apply (Replicas.stream w.committed s held failure)).1 with
          answers := w.answers ++ (s.apply (Replicas.stream w.committed s held failure)).2.1 }
  | builds (k : ℕ) (s s' : StateMachineStoreInner L M) (snapshot : StoredSnapshot L M)
      (found : w.nodes[k]? = some s) (built : s.buildSnapshot json = .ok (s', snapshot)) :
      ReplicaStep json w (.buildSnapshot k)
        { w.setNode k s' with shipped := w.shipped ++ [snapshot] }
  | hands (k : ℕ) (s : StateMachineStoreInner L M) (found : w.nodes[k]? = some s) :
      ReplicaStep json w (.getCurrentSnapshot k)
        { w with shipped := w.shipped ++ s.getCurrentSnapshot.toList }
  | installs (k i : ℕ) (s s' : StateMachineStoreInner L M) (snapshot : StoredSnapshot L M)
      (found : w.nodes[k]? = some s) (arrived : w.shipped[i]? = some snapshot)
      (installed : s.installSnapshot json snapshot.metadata snapshot.data = .ok s') :
      ReplicaStep json w (.installSnapshot k i) (w.setNode k s')
  | restarts (k : ℕ) (s : StateMachineStoreInner L M) (found : w.nodes[k]? = some s) :
      ReplicaStep json w (.restart k) (w.setNode k .init)
  | buildFails (k : ℕ) (s : StateMachineStoreInner L M) (e : IoError)
      (found : w.nodes[k]? = some s) (failed : s.buildSnapshot json = .error e) :
      ReplicaStep json w (.buildSnapshot k) w
  | installFails (k i : ℕ) (s : StateMachineStoreInner L M) (snapshot : StoredSnapshot L M)
      (e : IoError) (found : w.nodes[k]? = some s) (arrived : w.shipped[i]? = some snapshot)
      (failed : s.installSnapshot json snapshot.metadata snapshot.data = .error e) :
      ReplicaStep json w (.installSnapshot k i) w
  | refuses (k : ℕ) (s : StateMachineStoreInner L M) (metadata : SnapshotMeta L M)
      (data : ByteArray) (e : IoError) (found : w.nodes[k]? = some s)
      (failed : s.installSnapshot json metadata data = .error e) :
      ReplicaStep json w (.refuseSnapshot k metadata data) w

/-- **What one step can do.** -/
lemma replicas_step {json : SerdeJson (BTreeMap String VersionedValue)} {w w' : Replicas L M}
    {e : ReplicaEvent L M} (h : (replicas json).step w e = some w') : ReplicaStep json w e w' := by
  cases e with
  | commit entry =>
      simp only [replicas] at h
      split_ifs at h with hnext
      cases h
      exact .commits entry hnext
  | apply k held failure =>
      obtain ⟨s, hs, rfl⟩ := Option.map_eq_some_iff.mp h
      exact .applies k held failure s hs
  | buildSnapshot k =>
      obtain ⟨s, hs, rfl⟩ := Option.map_eq_some_iff.mp h
      cases hbuild : s.buildSnapshot json with
      | error e => exact .buildFails k s e hs hbuild
      | ok built => exact .builds k s built.1 built.2 hs hbuild
  | getCurrentSnapshot k =>
      obtain ⟨s, hs, rfl⟩ := Option.map_eq_some_iff.mp h
      exact .hands k s hs
  | installSnapshot k i =>
      obtain ⟨s, hs, h⟩ := Option.bind_eq_some_iff.mp h
      obtain ⟨snapshot, hsnapshot, rfl⟩ := Option.map_eq_some_iff.mp h
      cases hinstall : s.installSnapshot json snapshot.metadata snapshot.data with
      | error e => exact .installFails k i s snapshot e hs hsnapshot hinstall
      | ok s' => exact .installs k i s s' snapshot hs hsnapshot hinstall
  | refuseSnapshot k metadata data =>
      obtain ⟨s, hs, h⟩ := Option.bind_eq_some_iff.mp h
      cases hinstall : s.installSnapshot json metadata data with
      | error e =>
          simp only [hinstall, Option.some.injEq] at h
          exact h ▸ .refuses k s metadata data e hs hinstall
      | ok s' => simp [hinstall] at h
  | restart k =>
      obtain ⟨s, hs, rfl⟩ := Option.map_eq_some_iff.mp h
      exact .restarts k s hs

variable {json : SerdeJson (BTreeMap String VersionedValue)}

/-- Only a commit moves the log. -/
lemma committed_of_step {w w' : Replicas L M} {e : ReplicaEvent L M}
    (hstep : (replicas json).step w e = some w') (hcommit : ∀ entry, e ≠ .commit entry) :
    w'.committed = w.committed := by
  cases replicas_step hstep with
  | commits entry next => exact absurd rfl (hcommit entry)
  | _ => rfl

/-! ## The invariant -/

/-- A state that a prefix of the log leaves behind. -/
def FollowsLog (log : List (Entry L (EntryPayload M))) (a : Applied L M) : Prop :=
  nextIndex a.lastAppliedLog ≤ log.length ∧ a = replay (log.take (nextIndex a.lastAppliedLog))

/-- A snapshot that stands for such a state. -/
def SnapshotFollows (json : SerdeJson (BTreeMap String VersionedValue))
    (log : List (Entry L (EntryPayload M))) (snapshot : StoredSnapshot L M) : Prop :=
  ∃ a, snapshot.decode json = .ok a ∧ FollowsLog log a

/-- An answer that the log determines. -/
def AnswerFollows (log : List (Entry L (EntryPayload M)))
    (answer : LogId L × Option VersionedValue) : Prop :=
  ∃ e, log[answer.1.index.toNat]? = some e ∧ e.logId = answer.1 ∧
    answer.2 = ((replay (log.take answer.1.index.toNat)).applyEntry e).2

structure ReplicasInv (json : SerdeJson (BTreeMap String VersionedValue)) (w : Replicas L M) :
    Prop where
  log : Consecutive.From Entry.position 0 w.committed
  nodes : ∀ s ∈ w.nodes, FollowsLog w.committed s.toApplied
  kept : ∀ s ∈ w.nodes, ∀ snapshot ∈ s.currentSnapshot, SnapshotFollows json w.committed snapshot
  shipped : ∀ snapshot ∈ w.shipped, SnapshotFollows json w.committed snapshot
  answers : ∀ answer ∈ w.answers, AnswerFollows w.committed answer

lemma followsLog_init (log : List (Entry L (EntryPayload M))) : FollowsLog log (Applied.init) :=
  ⟨Nat.zero_le _, rfl⟩

/-- Applying the next entries of the log follows it further. -/
lemma FollowsLog.applyAll {log : List (Entry L (EntryPayload M))} {a : Applied L M}
    (hlog : Consecutive.From Entry.position 0 log) (h : FollowsLog log a) (n : ℕ) :
    FollowsLog log (a.applyAll ((log.drop (nextIndex a.lastAppliedLog)).take n)) := by
  obtain ⟨hle, heq⟩ := h
  generalize nextIndex a.lastAppliedLog = count at *
  have hpiece : a.applyAll ((log.drop count).take n) = replay (log.take (count + n)) := by
    rw [heq, replay, replay, ← Applied.applyAll_append, ← List.take_add]
  have hmin : log.take (count + n) = log.take (min (count + n) log.length) := by
    rw [List.take_eq_take_iff]
    omega
  have hend : nextIndex (replay (log.take (count + n))).lastAppliedLog
      = min (count + n) log.length := by
    rw [hmin]
    exact nextIndex_replay_take hlog (Nat.min_le_right ..)
  refine ⟨?_, ?_⟩
  · rw [hpiece, hend]
    exact Nat.min_le_right ..
  · rw [hpiece, hend, ← hmin]

/-- A longer log has the prefixes of the shorter one. -/
lemma FollowsLog.concat {log : List (Entry L (EntryPayload M))} {a : Applied L M}
    (h : FollowsLog log a) (e : Entry L (EntryPayload M)) : FollowsLog (log ++ [e]) a := by
  refine ⟨h.1.trans (by simp), ?_⟩
  rw [List.take_append_of_le_length h.1]
  exact h.2

lemma SnapshotFollows.concat {log : List (Entry L (EntryPayload M))}
    {snapshot : StoredSnapshot L M} (h : SnapshotFollows json log snapshot)
    (e : Entry L (EntryPayload M)) : SnapshotFollows json (log ++ [e]) snapshot := by
  obtain ⟨a, hdecode, ha⟩ := h
  exact ⟨a, hdecode, ha.concat e⟩

lemma AnswerFollows.concat {log : List (Entry L (EntryPayload M))}
    {answer : LogId L × Option VersionedValue} (h : AnswerFollows log answer)
    (e : Entry L (EntryPayload M)) : AnswerFollows (log ++ [e]) answer := by
  obtain ⟨e', hget, hid, hanswer⟩ := h
  have hlt := (List.getElem?_eq_some_iff.mp hget).1
  refine ⟨e', ?_, hid, ?_⟩
  · rw [List.getElem?_append_left hlt, hget]
  · rw [List.take_append_of_le_length hlt.le, hanswer]

/-! ## Steps -/

lemma answerFollows_apply {w : Replicas L M} (h : ReplicasInv json w)
    {s : StateMachineStoreInner L M} (hs : s ∈ w.nodes) {held : List Bool}
    {failure : Option IoError} {answer : LogId L × Option VersionedValue}
    (hanswer : answer ∈ (s.apply (Replicas.stream w.committed s held failure)).2.1) :
    AnswerFollows w.committed answer := by
  obtain ⟨id, response⟩ := answer
  obtain ⟨before, e, after, hsplit, hresponse⟩ := mem_apply_sent hanswer
  obtain ⟨hle, hreplay⟩ := h.nodes s hs
  have hmem : (e, some id) ∈ delivered (Replicas.stream w.committed s held failure) := by
    rw [hsplit]
    simp
  have hid := logId_of_mem_delivered hmem
  -- the entries before it are the log up to its index
  have hpiece : (w.committed.drop (nextIndex s.lastAppliedLog)).take held.length
      = before.map Prod.fst ++ e :: after.map Prod.fst := by
    rw [← delivered_stream_fst w.committed s held failure, hsplit, List.map_append, List.map_cons]
  obtain ⟨hget, htake⟩ := take_of_drop_take hpiece hle
  have hindex : id.index.toNat
      = nextIndex s.lastAppliedLog + (before.map Prod.fst).length := by
    have hposition := Consecutive.from_iff.mp h.log _ _ hget
    rw [Nat.zero_add] at hposition
    rw [← hid]
    exact hposition
  refine ⟨e, by rw [hindex, hget], hid, ?_⟩
  rw [hresponse, hindex, htake, replay, Applied.applyAll_append]
  conv_lhs => rw [hreplay]
  rfl

/-- Replacing a store by one that follows the log, with a snapshot that does. -/
lemma ReplicasInv.setNode {w : Replicas L M} (h : ReplicasInv json w) (k : ℕ)
    {s : StateMachineStoreInner L M} (hs : FollowsLog w.committed s.toApplied)
    (hkept : ∀ snapshot ∈ s.currentSnapshot, SnapshotFollows json w.committed snapshot) :
    ReplicasInv json (w.setNode k s) where
  log := h.log
  nodes := List.forall_set h.nodes hs k
  kept := List.forall_set h.kept hkept k
  shipped := h.shipped
  answers := h.answers

lemma ReplicasInv.commit {w : Replicas L M} (h : ReplicasInv json w)
    {e : Entry L (EntryPayload M)} (he : e.position = w.committed.length) :
    ReplicasInv json { w with committed := w.committed ++ [e] } where
  log := Consecutive.from_append.mpr ⟨h.log, by rw [Nat.zero_add]; exact he, trivial⟩
  nodes s hs := (h.nodes s hs).concat e
  kept s hs snapshot hsnapshot := (h.kept s hs snapshot hsnapshot).concat e
  shipped snapshot hsnapshot := (h.shipped snapshot hsnapshot).concat e
  answers answer hanswer := (h.answers answer hanswer).concat e

lemma ReplicasInv.apply {w : Replicas L M} (h : ReplicasInv json w) {k : ℕ}
    {s : StateMachineStoreInner L M} (hs : s ∈ w.nodes) (held : List Bool)
    (failure : Option IoError) :
    ReplicasInv json { w.setNode k (s.apply (Replicas.stream w.committed s held failure)).1 with
      answers := w.answers ++ (s.apply (Replicas.stream w.committed s held failure)).2.1 } := by
  have hset : ReplicasInv json
      (w.setNode k (s.apply (Replicas.stream w.committed s held failure)).1) := by
    rw [apply_store, delivered_stream_fst]
    exact h.setNode k ((h.nodes s hs).applyAll h.log held.length) (h.kept s hs)
  refine { hset with answers := fun answer hanswer => ?_ }
  rcases List.mem_append.mp hanswer with hanswer | hanswer
  · exact h.answers answer hanswer
  · exact answerFollows_apply h hs hanswer

lemma ReplicasInv.ship {w : Replicas L M} (h : ReplicasInv json w)
    {snapshots : List (StoredSnapshot L M)}
    (hs : ∀ snapshot ∈ snapshots, SnapshotFollows json w.committed snapshot) :
    ReplicasInv json { w with shipped := w.shipped ++ snapshots } where
  log := h.log
  nodes := h.nodes
  kept := h.kept
  shipped snapshot hsnapshot :=
    (List.mem_append.mp hsnapshot).elim (h.shipped snapshot) (hs snapshot)
  answers := h.answers

lemma ReplicasInv.buildSnapshot {w : Replicas L M} (h : ReplicasInv json w) (k : ℕ)
    {s s' : StateMachineStoreInner L M} (hs : s ∈ w.nodes) {snapshot : StoredSnapshot L M}
    (hbuild : s.buildSnapshot json = .ok (s', snapshot)) :
    ReplicasInv json { w.setNode k s' with shipped := w.shipped ++ [snapshot] } := by
  obtain ⟨rfl, hdecode⟩ := buildSnapshot_ok hbuild
  have hsnapshot : SnapshotFollows json w.committed snapshot :=
    ⟨s.toApplied, hdecode, h.nodes s hs⟩
  have hset := h.setNode k (s := { s with currentSnapshot := some snapshot }) (h.nodes s hs)
    fun snapshot' hsnapshot' => Option.mem_some.mp hsnapshot' ▸ hsnapshot
  exact hset.ship fun snapshot' hsnapshot' => List.mem_singleton.mp hsnapshot' ▸ hsnapshot

lemma ReplicasInv.installSnapshot {w : Replicas L M} (h : ReplicasInv json w) (k : ℕ)
    {s s' : StateMachineStoreInner L M} {snapshot : StoredSnapshot L M}
    (hsnapshot : snapshot ∈ w.shipped)
    (hinstall : s.installSnapshot json snapshot.metadata snapshot.data = .ok s') :
    ReplicasInv json (w.setNode k s') := by
  obtain ⟨a, hdecode, ha⟩ := h.shipped snapshot hsnapshot
  rw [installSnapshot_eq, hdecode] at hinstall
  cases hinstall
  exact h.setNode k ha fun snapshot' hsnapshot' =>
    Option.mem_some.mp hsnapshot' ▸ ⟨a, hdecode, ha⟩

/-- **Every step keeps the invariant.** -/
lemma replicasInv_step {w w' : Replicas L M} {e : ReplicaEvent L M} (h : ReplicasInv json w)
    (hstep : (replicas json).step w e = some w') : ReplicasInv json w' := by
  cases replicas_step hstep with
  | commits entry next => exact h.commit next
  | applies k held failure s found => exact h.apply (List.mem_of_getElem? found) held failure
  | builds k s s' snapshot found built =>
      exact h.buildSnapshot k (List.mem_of_getElem? found) built
  | hands k s found =>
      refine h.ship fun snapshot hsnapshot => ?_
      exact h.kept s (List.mem_of_getElem? found) snapshot (Option.mem_toList.mp hsnapshot)
  | installs k i s s' snapshot found arrived installed =>
      exact h.installSnapshot k (List.mem_of_getElem? arrived) installed
  | restarts k s found =>
      exact h.setNode k (followsLog_init _) (by simp [StateMachineStoreInner.init])
  | buildFails k s e found failed => exact h
  | installFails k i s snapshot e found arrived failed => exact h
  | refuses k s metadata data e found failed => exact h

lemma replicasInv_init (count : ℕ) : ReplicasInv json (Replicas.init (L := L) (M := M) count) where
  log := trivial
  nodes s hs := by
    rw [List.eq_of_mem_replicate hs]
    exact followsLog_init _
  kept s hs snapshot hsnapshot := by
    rw [List.eq_of_mem_replicate hs] at hsnapshot
    cases hsnapshot
  shipped := by simp [Replicas.init]
  answers := by simp [Replicas.init]

/-- **The log determines every replica.**  In every run of any number of stores: a store is what the
committed entries up to its last applied one leave behind, so two stores that have applied as far
hold the same data and membership, whichever entries and snapshots each of them has got there by;
every snapshot a store keeps decodes to the state its metadata names; and what a responder has been
sent is the response of its entry at its place in the log. -/
theorem replicas_follow_log (json : SerdeJson (BTreeMap String VersionedValue)) (count : ℕ)
    (events : List (ReplicaEvent L M)) (w : Replicas L M)
    (hrun : (replicas json).run (.init count) events = some w) :
    (∀ s ∈ w.nodes, s.toApplied = replay (w.committed.take (nextIndex s.lastAppliedLog))) ∧
      (∀ s ∈ w.nodes, ∀ t ∈ w.nodes, s.lastAppliedLog = t.lastAppliedLog →
        s.toApplied = t.toApplied) ∧
      (∀ s ∈ w.nodes, ∀ snapshot ∈ s.currentSnapshot, snapshot.decode json
        = .ok (replay (w.committed.take (nextIndex snapshot.metadata.lastLogId)))) ∧
      (∀ answer ∈ w.answers, ∃ e, w.committed[answer.1.index.toNat]? = some e ∧
        e.logId = answer.1 ∧
        answer.2 = ((replay (w.committed.take answer.1.index.toNat)).applyEntry e).2) := by
  have h : ReplicasInv json w := Machine.invariant (fun s e s' => replicasInv_step)
    (replicasInv_init count) hrun
  refine ⟨fun s hs => (h.nodes s hs).2, ?_, ?_, h.answers⟩
  · intro s hs t ht heq
    rw [(h.nodes s hs).2, (h.nodes t ht).2, heq]
  · intro s hs snapshot hsnapshot
    obtain ⟨a, hdecode, ha⟩ := h.kept s hs snapshot hsnapshot
    have hlast : a.lastAppliedLog = snapshot.metadata.lastLogId := by
      unfold StoredSnapshot.decode at hdecode
      split at hdecode <;> cases hdecode
      rfl
    rw [hdecode, ← hlast, ← ha.2]

/-- The first store applies a membership and a write and builds a snapshot.  The second one gets the
snapshot, loses it, gets it again and goes on with the log. -/
def sampleReplication : List (ReplicaEvent ℕ (List ℕ)) :=
  [.commit ⟨⟨1, 0⟩, .membership [1, 2]⟩, .commit ⟨⟨1, 1⟩, .normal (.set "k" "a")⟩,
    .apply 0 [false, true] none, .buildSnapshot 0,
    .commit ⟨⟨2, 2⟩, .normal (.compareAndSet "k" 1 "b")⟩, .installSnapshot 1 0, .restart 1,
    .installSnapshot 1 0, .apply 1 [true, true] none,
    .apply 0 [] (some (.other "stream closed")), .apply 0 [false] none]

theorem replicas_follow_log_sample :
    ∃ w, (replicas sampleJson).run (.init 2) sampleReplication = some w ∧
      w.nodes.map (fun s => (s.lastAppliedLog, s.get "k"))
        = [(some ⟨2, 2⟩, some ⟨"b", 2⟩), (some ⟨2, 2⟩, some ⟨"b", 2⟩)] ∧
      w.answers = [(⟨1, 1⟩, some ⟨"a", 1⟩), (⟨2, 2⟩, some ⟨"b", 2⟩)] ∧
      ∀ s ∈ w.nodes, s.toApplied = replay w.committed := by
  have hend : ((replicas sampleJson).run (.init 2) sampleReplication).any (fun w =>
      decide (w.nodes.map (fun s => (s.lastAppliedLog, s.get "k"))
        = [(some ⟨2, 2⟩, some ⟨"b", 2⟩), (some ⟨2, 2⟩, some ⟨"b", 2⟩)]) &&
      decide (w.answers = [(⟨1, 1⟩, some ⟨"a", 1⟩), (⟨2, 2⟩, some ⟨"b", 2⟩)]) &&
      w.nodes.all fun s => nextIndex s.lastAppliedLog == w.committed.length) = true := by
    decide +kernel
  obtain ⟨w, hrun, hw⟩ := (Option.any_eq_true _ _).mp hend
  simp only [Bool.and_eq_true, decide_eq_true_eq, List.all_eq_true, beq_iff_eq] at hw
  obtain ⟨⟨hnodes, hanswers⟩, hnext⟩ := hw
  obtain ⟨hfollow, -⟩ := replicas_follow_log sampleJson 2 sampleReplication w hrun
  refine ⟨w, hrun, hnodes, hanswers, fun s hs => ?_⟩
  rw [hfollow s hs, hnext s hs, List.take_length]

end RaftBench.OpenRaft

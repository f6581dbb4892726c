import RaftBench.OpenRaft.LogStore
import RaftBench.OpenRaft.StateMachine

/-!
# The state machine store of the openraft server

`openraft/vendor/sm-mem/src/lib.rs` as a whole: the key-value data with the log id it has been
applied up to and the membership in force, the stream of committed entries that changes them, and
the snapshots they are saved to and replaced from.

`Applied` is the part of the store that applying changes, and `replay` what it is after a whole log.
`serde_json` is not part of this repository: `SerdeJson` takes it as a parameter with the one law
the snapshots rely on, that what has been written is read back.
-/

namespace RaftBench.OpenRaft

/-! ## Types -/

/-- `openraft::EntryPayload`. -/
inductive EntryPayload (M : Type) where
  | blank
  | normal (req : Request)
  | membership (mem : M)
  deriving DecidableEq, Repr

/-- `openraft::StoredMembership`: a membership and the log id it was stored at. -/
structure StoredMembership (L M : Type) where
  logId : Option (LogId L) := none
  membership : M
  deriving DecidableEq, Repr

/-- `openraft::SnapshotMeta`. -/
structure SnapshotMeta (L M : Type) where
  lastLogId : Option (LogId L)
  lastMembership : StoredMembership L M
  deriving DecidableEq, Repr

/-- `StoredSnapshot`, and `openraft::Snapshot` with its cursor at the start. -/
structure StoredSnapshot (L M : Type) where
  metadata : SnapshotMeta L M
  data : ByteArray

/-- The kinds of `io::Error` that occur here. -/
inductive IoError where
  | invalidData (message : String)
  | other (message : String)
  deriving DecidableEq, Repr

/-- `serde_json` for one type. -/
structure SerdeJson (α : Type) where
  toVec : α → Except String ByteArray
  fromSlice : ByteArray → Except String α
  fromSlice_toVec : ∀ a bytes, toVec a = .ok bytes → fromSlice bytes = .ok a

/-- `StateMachineData`. -/
structure StateMachineData where
  data : BTreeMap String VersionedValue := ∅

/-- What applying an entry changes. -/
structure Applied (L M : Type) where
  lastAppliedLog : Option (LogId L) := none
  lastMembership : StoredMembership L M
  stateMachine : StateMachineData := {}

structure StateMachineStoreInner (L M : Type) extends Applied L M where
  currentSnapshot : Option (StoredSnapshot L M) := none

variable {L M ρ : Type}

/-- The state before any entry has been applied. -/
def Applied.init [Inhabited M] : Applied L M := { lastMembership := { membership := default } }

instance [Inhabited M] : Inhabited (Applied L M) := ⟨.init⟩

/-- `StateMachineStoreInner::default`. -/
def StateMachineStoreInner.init [Inhabited M] : StateMachineStoreInner L M := ⟨.init, none⟩

/-! ## Applying -/

namespace Applied

/-- Store a value under a key. -/
def insert (a : Applied L M) (key : String) (vv : VersionedValue) : Applied L M :=
  { a with stateMachine := ⟨a.stateMachine.data.insert key vv⟩ }

/-- The body of the loop of `apply`: the entry's index is the version of what it writes. -/
def applyEntry (a : Applied L M) (entry : Entry L (EntryPayload M)) :
    Applied L M × Option VersionedValue :=
  let version := entry.logId.index
  let a := { a with lastAppliedLog := some entry.logId }
  match entry.payload with
  | .blank => (a, none)
  | .normal (.set key value) => (a.insert key ⟨value, version⟩, some ⟨value, version⟩)
  | .normal (.compareAndSet key expectedVersion value) =>
      let isMatch := a.stateMachine.data[key]?.any fun current => current.version == expectedVersion
      if isMatch then (a.insert key ⟨value, version⟩, some ⟨value, version⟩)
      else (a, none)
  | .membership mem => ({ a with lastMembership := ⟨some entry.logId, mem⟩ }, none)

/-- Apply one entry after the other. -/
def applyAll (a : Applied L M) (entries : List (Entry L (EntryPayload M))) : Applied L M :=
  entries.foldl (fun a entry => (a.applyEntry entry).1) a

end Applied

/-- What a log leaves behind. -/
def replay [Inhabited M] (log : List (Entry L (EntryPayload M))) : Applied L M :=
  Applied.init.applyAll log

namespace StateMachineStoreInner

variable (self : StateMachineStoreInner L M)

/-- `apply`: the entries come from a stream that may fail, each with the responder of the request
that has proposed it, if there is one on this node.  What the responders are sent is listed in
order. -/
def apply (self : StateMachineStoreInner L M) :
    List (Except IoError (Entry L (EntryPayload M) × Option ρ)) →
      StateMachineStoreInner L M × List (ρ × Option VersionedValue) × Except IoError Unit
  | [] => (self, [], .ok ())
  | .error e :: _ => (self, [], .error e)
  | .ok (entry, responder) :: stream =>
      let (applied, response) := self.toApplied.applyEntry entry
      let (self', sent, result) := apply { self with toApplied := applied } stream
      (self', (responder.map fun r => (r, response)).toList ++ sent, result)

def get (key : String) : Option VersionedValue := self.stateMachine.data[key]?

def appliedState : Option (LogId L) × StoredMembership L M :=
  (self.lastAppliedLog, self.lastMembership)

def getCurrentSnapshot : Option (StoredSnapshot L M) := self.currentSnapshot

variable (json : SerdeJson (BTreeMap String VersionedValue))

/-- `build_snapshot`: the snapshot is kept and handed out. -/
def buildSnapshot : Except IoError (StateMachineStoreInner L M × StoredSnapshot L M) :=
  match json.toVec self.stateMachine.data with
  | .error e => .error (.invalidData e)
  | .ok data =>
      let snapshot : StoredSnapshot L M := ⟨⟨self.lastAppliedLog, self.lastMembership⟩, data⟩
      .ok ({ self with currentSnapshot := some snapshot }, snapshot)

/-- `install_snapshot`: nothing changes before the data is decoded, and then everything does. -/
def installSnapshot (_self : StateMachineStoreInner L M) (metadata : SnapshotMeta L M)
    (snapshot : ByteArray) : Except IoError (StateMachineStoreInner L M) :=
  match json.fromSlice snapshot with
  | .error e => .error (.invalidData e)
  | .ok data =>
      .ok ⟨⟨metadata.lastLogId, metadata.lastMembership, ⟨data⟩⟩, some ⟨metadata, snapshot⟩⟩

end StateMachineStoreInner

/-! ## Applying a log -/

namespace Applied

@[simp] lemma applyAll_nil (a : Applied L M) : a.applyAll [] = a := rfl

@[simp] lemma applyAll_cons (a : Applied L M) (e : Entry L (EntryPayload M))
    (es : List (Entry L (EntryPayload M))) :
    a.applyAll (e :: es) = (a.applyEntry e).1.applyAll es := rfl

lemma applyAll_append (a : Applied L M) (es fs : List (Entry L (EntryPayload M))) :
    a.applyAll (es ++ fs) = (a.applyAll es).applyAll fs :=
  List.foldl_append ..

@[simp] lemma lastAppliedLog_applyEntry (a : Applied L M) (e : Entry L (EntryPayload M)) :
    (a.applyEntry e).1.lastAppliedLog = some e.logId := by
  obtain ⟨id, payload⟩ := e
  cases payload with
  | blank => rfl
  | normal req =>
      cases req with
      | set key value => rfl
      | compareAndSet key expectedVersion value =>
          simp only [applyEntry]
          split_ifs <;> rfl
  | membership mem => rfl

lemma lastAppliedLog_applyAll (a : Applied L M) (es : List (Entry L (EntryPayload M))) :
    (a.applyAll es).lastAppliedLog = (es.getLast?.map Entry.logId).or a.lastAppliedLog := by
  induction es using List.reverseRecOn with
  | nil => rfl
  | append_singleton es e _ => simp [applyAll_append]

/-- After a piece of the log the next entry to apply is the one behind it. -/
lemma nextIndex_applyAll {a : Applied L M} {es : List (Entry L (EntryPayload M))} {first : ℕ}
    (h : Consecutive.From Entry.position first es) (ha : nextIndex a.lastAppliedLog = first) :
    nextIndex (a.applyAll es).lastAppliedLog = first + es.length := by
  rw [lastAppliedLog_applyAll]
  induction es using List.reverseRecOn with
  | nil => simpa using ha
  | append_singleton es e _ =>
      have he := (Consecutive.from_append.mp h).2.1
      simp only [List.getLast?_concat, Option.map_some, Option.some_or, nextIndex]
      have : e.logId.index.toNat = first + es.length := he
      rw [this, List.length_append, List.length_singleton, Nat.add_assoc]

end Applied

/-- The next entry behind a prefix of the log. -/
lemma nextIndex_replay_take [Inhabited M] {log : List (Entry L (EntryPayload M))} {n : ℕ}
    (h : Consecutive.From Entry.position 0 log) (hn : n ≤ log.length) :
    nextIndex (replay (log.take n)).lastAppliedLog = n := by
  have hnext := Applied.nextIndex_applyAll (a := Applied.init) (h.take n) rfl
  rw [List.length_take, Nat.min_eq_left hn, Nat.zero_add] at hnext
  exact hnext

/-! ### The stream -/

/-- The entries a stream yields before it ends or fails. -/
def delivered {α : Type} : List (Except IoError α) → List α
  | .ok a :: stream => a :: delivered stream
  | .error _ :: _ => []
  | [] => []

lemma delivered_map_ok {α : Type} (items : List α) (failure : Option IoError) :
    delivered (items.map Except.ok ++ (failure.map Except.error).toList) = items := by
  induction items with
  | nil => cases failure <;> rfl
  | cons a items ih => simp only [List.map_cons, List.cons_append, delivered, ih]

/-- `apply` applies what the stream yields and leaves the snapshot alone. -/
lemma apply_store (s : StateMachineStoreInner L M)
    (stream : List (Except IoError (Entry L (EntryPayload M) × Option ρ))) :
    (s.apply stream).1
      = { s with toApplied := s.toApplied.applyAll ((delivered stream).map Prod.fst) } := by
  induction stream generalizing s with
  | nil => rfl
  | cons item stream ih =>
      cases item with
      | error e => rfl
      | ok item =>
          simp only [StateMachineStoreInner.apply, ih, delivered, List.map_cons,
            Applied.applyAll_cons]

/-- A responder is sent the response of its own entry, in the state the entries before it have left
behind. -/
lemma mem_apply_sent {s : StateMachineStoreInner L M}
    {stream : List (Except IoError (Entry L (EntryPayload M) × Option ρ))} {r : ρ}
    {response : Option VersionedValue} (h : (r, response) ∈ (s.apply stream).2.1) :
    ∃ before e after, delivered stream = before ++ (e, some r) :: after ∧
      response = ((s.toApplied.applyAll (before.map Prod.fst)).applyEntry e).2 := by
  induction stream generalizing s with
  | nil => simp [StateMachineStoreInner.apply] at h
  | cons item stream ih =>
      cases item with
      | error e => simp [StateMachineStoreInner.apply] at h
      | ok item =>
          obtain ⟨entry, responder⟩ := item
          simp only [StateMachineStoreInner.apply, List.mem_append] at h
          rcases h with h | h
          · refine ⟨[], entry, delivered stream, ?_, ?_⟩
            · cases responder <;> simp_all [delivered]
            · cases responder <;> simp_all
          · obtain ⟨before, e, after, hsplit, hresponse⟩ := ih h
            refine ⟨(entry, responder) :: before, e, after, ?_, hresponse⟩
            simp only [delivered, hsplit, List.cons_append]

/-! ### Snapshots -/

/-- The state a snapshot stands for, once its data has been decoded. -/
def StoredSnapshot.decode (json : SerdeJson (BTreeMap String VersionedValue))
    (snapshot : StoredSnapshot L M) : Except IoError (Applied L M) :=
  match json.fromSlice snapshot.data with
  | .error e => .error (.invalidData e)
  | .ok data => .ok ⟨snapshot.metadata.lastLogId, snapshot.metadata.lastMembership, ⟨data⟩⟩

variable {json : SerdeJson (BTreeMap String VersionedValue)}

/-- Installing a snapshot is decoding it. -/
lemma installSnapshot_eq (json : SerdeJson (BTreeMap String VersionedValue))
    (s : StateMachineStoreInner L M) (snapshot : StoredSnapshot L M) :
    s.installSnapshot json snapshot.metadata snapshot.data
      = (snapshot.decode json).map fun a => ⟨a, some snapshot⟩ := by
  unfold StateMachineStoreInner.installSnapshot StoredSnapshot.decode
  cases json.fromSlice snapshot.data <;> rfl

/-- A snapshot that has been built stands for the state it was built from. -/
lemma buildSnapshot_ok {s s' : StateMachineStoreInner L M} {snapshot : StoredSnapshot L M}
    (h : s.buildSnapshot json = .ok (s', snapshot)) :
    s' = { s with currentSnapshot := some snapshot } ∧ snapshot.decode json = .ok s.toApplied := by
  unfold StateMachineStoreInner.buildSnapshot at h
  cases hvec : json.toVec s.stateMachine.data with
  | error e =>
      rw [hvec] at h
      cases h
  | ok data =>
      rw [hvec] at h
      cases h
      refine ⟨rfl, ?_⟩
      unfold StoredSnapshot.decode
      rw [json.fromSlice_toVec _ _ hvec]

/-! ### A sample snapshot -/

/-- One key with one value. -/
def sampleData : BTreeMap String VersionedValue :=
  (∅ : BTreeMap String VersionedValue).insert "k" ⟨"a", 1⟩

/-- What `serde_json` writes for it. -/
def sampleBytes : ByteArray :=
  "\x7b\"k\":\x7b\"value\":\"a\",\"version\":1\x7d\x7d".toUTF8

/-- `serde_json` on this one map. -/
def sampleJson : SerdeJson (BTreeMap String VersionedValue) where
  toVec m := if m.toList = sampleData.toList then .ok sampleBytes else .error "not the sample"
  fromSlice bytes := if bytes.data = sampleBytes.data then .ok sampleData else .error "expected value"
  fromSlice_toVec m bytes h := by
    split_ifs at h with hm
    cases h
    rw [if_pos rfl, Std.ExtTreeMap.toList_inj.mp hm]

end RaftBench.OpenRaft

import RaftBench.OpenRaft.Replicas

/-!
# Versions as optimistic locks

The version of a value is the index of the entry that wrote it, so a `CompareAndSet` that names a
version names one write.  `compareAndSet_succeeds_iff` says which one it has to be: the last write
of its key, with nothing effective in between.  Hence at most one `CompareAndSet` ever succeeds on a
version, and `compareAndSet_wins_once` says this of the answers of a whole cluster.

`kvState_applyEntry` connects the store with the model of it that the load generator's requests are
run against.
-/

namespace RaftBench.OpenRaft

variable {L M : Type}

/-! ## The store as the load generator sees it -/

/-- The data by key, and the index of the last applied entry. -/
def Applied.kvState (a : Applied L M) : KvState :=
  ⟨fun key => a.stateMachine.data[key]?, (a.lastAppliedLog.map LogId.index).getD 0⟩

lemma kvState_insert (a : Applied L M) (key : String) (vv : VersionedValue) :
    (a.insert key vv).kvState
      = ⟨Function.update a.kvState.data key (some vv), a.kvState.lastApplied⟩ := by
  simp only [Applied.kvState, Applied.insert, KvState.mk.injEq, and_true]
  funext key'
  rw [Std.ExtTreeMap.getElem?_insert, Function.update_apply]
  by_cases hkey : key = key'
  · subst hkey
    simp
  · have hne : compare key key' ≠ .eq := fun h => hkey (Std.compare_eq_iff_eq.mp h)
    rw [if_neg hne, if_neg (Ne.symm hkey)]

/-- A request is applied as the load generator's model of the server applies it. -/
lemma kvState_applyEntry (a : Applied L M) (id : LogId L) (req : Request) :
    ((a.applyEntry ⟨id, .normal req⟩).1.kvState, (a.applyEntry ⟨id, .normal req⟩).2)
      = a.kvState.apply id.index req := by
  cases req with
  | set key value =>
      simp only [Applied.applyEntry, KvState.apply, kvState_insert]
      rfl
  | compareAndSet key expectedVersion value =>
      cases hmatch : (a.kvState.data key).any fun vv => vv.version == expectedVersion with
      | true =>
          rw [KvState.apply_match _ _ _ hmatch]
          have hdata : a.stateMachine.data[key]?.any (fun vv => vv.version == expectedVersion)
              = true := hmatch
          simp only [Applied.applyEntry, hdata, if_true, kvState_insert]
          rfl
      | false =>
          rw [KvState.apply_mismatch _ _ _ hmatch]
          have hdata : a.stateMachine.data[key]?.any (fun vv => vv.version == expectedVersion)
              = false := hmatch
          simp only [Applied.applyEntry, hdata]
          rfl

/-! ## Effective writes -/

/-- The key a request is about. -/
def Request.key : Request → String
  | .set key _ => key
  | .compareAndSet key _ _ => key

def EntryPayload.key? : EntryPayload M → Option String
  | .normal req => some req.key
  | _ => none

variable [Inhabited M]

/-- The response of an entry at its place in the log. -/
def responseAt (log : List (Entry L (EntryPayload M))) (i : ℕ) : Option VersionedValue :=
  log[i]?.bind fun e => ((replay (log.take i)).applyEntry e).2

/-- The entry has written the key: a `CompareAndSet` that has failed has not. -/
def Wrote (log : List (Entry L (EntryPayload M))) (key : String) (i : ℕ) : Prop :=
  log[i]?.bind (fun e => e.payload.key?) = some key ∧ (responseAt log i).isSome

/-- Entry `i` is the last one before `n` that has written the key. -/
def LastWrite (log : List (Entry L (EntryPayload M))) (key : String) (n i : ℕ) : Prop :=
  i < n ∧ Wrote log key i ∧ ∀ k, i < k → k < n → ¬ Wrote log key k

omit [Inhabited M] in
/-- What an entry does to a key: its response is what the key holds afterwards, if it is about this
key and has one. -/
lemma data_applyEntry (a : Applied L M) (e : Entry L (EntryPayload M)) (key : String) :
    (a.applyEntry e).1.stateMachine.data[key]?
      = if e.payload.key? = some key ∧ (a.applyEntry e).2.isSome then (a.applyEntry e).2
        else a.stateMachine.data[key]? := by
  obtain ⟨id, payload⟩ := e
  cases payload with
  | blank => simp [Applied.applyEntry, EntryPayload.key?]
  | membership mem => simp [Applied.applyEntry, EntryPayload.key?]
  | normal req =>
      have happly := kvState_applyEntry a id req
      have hdata : (a.applyEntry ⟨id, .normal req⟩).1.stateMachine.data[key]?
          = (a.kvState.apply id.index req).1.data key := by rw [← happly]; rfl
      have hresponse : (a.applyEntry ⟨id, .normal req⟩).2 = (a.kvState.apply id.index req).2 := by
        rw [← happly]
      have hbefore : a.stateMachine.data[key]? = a.kvState.data key := rfl
      rw [hdata, hresponse, hbefore]
      cases req with
      | set key' value =>
          simp only [KvState.apply, EntryPayload.key?, Request.key, Option.some.injEq,
            Function.update_apply, Option.isSome_some, and_true, eq_comm]
      | compareAndSet key' expectedVersion value =>
          cases hmatch : (a.kvState.data key').any fun vv => vv.version == expectedVersion with
          | true =>
              rw [KvState.apply_match _ _ _ hmatch]
              simp only [EntryPayload.key?, Request.key, Option.some.injEq,
                Function.update_apply, Option.isSome_some, and_true, eq_comm]
          | false =>
              rw [KvState.apply_mismatch _ _ _ hmatch]
              simp

omit [Inhabited M] in
/-- What is written carries the index of the entry as its version. -/
lemma version_applyEntry {a : Applied L M} {e : Entry L (EntryPayload M)} {vv : VersionedValue}
    (h : (a.applyEntry e).2 = some vv) : vv.version = e.logId.index := by
  obtain ⟨id, payload⟩ := e
  cases payload with
  | blank => simp [Applied.applyEntry] at h
  | membership mem => simp [Applied.applyEntry] at h
  | normal req =>
      have hresponse : (a.kvState.apply id.index req).2 = some vv := by
        rw [← h, ← kvState_applyEntry]
      cases req with
      | set key value =>
          cases hresponse
          rfl
      | compareAndSet key expectedVersion value =>
          simp only [KvState.apply] at hresponse
          split_ifs at hresponse
          cases hresponse
          rfl

/-! ## What a key holds -/

variable {log : List (Entry L (EntryPayload M))} {key : String}

lemma replay_take_succ {n : ℕ} {e : Entry L (EntryPayload M)} (h : log[n]? = some e) :
    replay (log.take (n + 1)) = ((replay (log.take n)).applyEntry e).1 := by
  rw [List.take_add_one, h, replay, Applied.applyAll_append]
  rfl

lemma responseAt_eq {n : ℕ} {e : Entry L (EntryPayload M)} (h : log[n]? = some e) :
    responseAt log n = ((replay (log.take n)).applyEntry e).2 := by
  rw [responseAt, h, Option.bind_some]

/-- What a key holds before entry `n`: the response of the last entry that has written it. -/
def Holds (log : List (Entry L (EntryPayload M))) (key : String) (n : ℕ) :
    Option VersionedValue → Prop
  | none => ∀ i < n, ¬ Wrote log key i
  | some vv => ∃ i, LastWrite log key n i ∧ responseAt log i = some vv

lemma Holds.skip {n : ℕ} {value : Option VersionedValue} (h : Holds log key n value)
    (hn : ¬ Wrote log key n) : Holds log key (n + 1) value := by
  cases value with
  | none =>
      intro i hi
      rcases Nat.lt_succ_iff_lt_or_eq.mp hi with hi | rfl
      · exact h i hi
      · exact hn
  | some vv =>
      obtain ⟨i, ⟨hi, hwrote, hnone⟩, hresponse⟩ := h
      refine ⟨i, ⟨hi.trans (Nat.lt_succ_self n), hwrote, fun k hik hk => ?_⟩, hresponse⟩
      rcases Nat.lt_succ_iff_lt_or_eq.mp hk with hk | rfl
      · exact hnone k hik hk
      · exact hn

lemma Holds.write {n : ℕ} {vv : VersionedValue} (hn : Wrote log key n)
    (hresponse : responseAt log n = some vv) : Holds log key (n + 1) (some vv) := by
  refine ⟨n, ⟨Nat.lt_succ_self n, hn, fun k hnk hk => ?_⟩, hresponse⟩
  omega

/-- **Every prefix of the log.** -/
lemma holds_replay (key : String) {n : ℕ} (hn : n ≤ log.length) :
    Holds log key n (replay (log.take n)).stateMachine.data[key]? := by
  induction n with
  | zero =>
      have hempty : (replay (log.take 0)).stateMachine.data[key]? = none := by
        simp [replay, Applied.init]
      rw [hempty]
      intro i hi
      omega
  | succ n ih =>
      obtain ⟨e, he⟩ : ∃ e, log[n]? = some e := ⟨log[n], List.getElem?_eq_getElem hn⟩
      have hwrote : Wrote log key n ↔ e.payload.key? = some key ∧
          ((replay (log.take n)).applyEntry e).2.isSome := by
        rw [Wrote, responseAt_eq he, he, Option.bind_some]
      rw [replay_take_succ he, data_applyEntry]
      split_ifs with hwrites
      · obtain ⟨vv, hvv⟩ := Option.isSome_iff_exists.mp hwrites.2
        rw [hvv]
        exact Holds.write (hwrote.mpr hwrites) (by rw [responseAt_eq he, hvv])
      · exact (ih (Nat.le_of_succ_le hn)).skip fun h => hwrites (hwrote.mp h)

lemma version_responseAt (hlog : Consecutive.From Entry.position 0 log) {i : ℕ}
    {vv : VersionedValue} (h : responseAt log i = some vv) : vv.version.toNat = i := by
  rw [responseAt, Option.bind_eq_some_iff] at h
  obtain ⟨e, he, hresponse⟩ := h
  have hposition : e.logId.index.toNat = 0 + i := Consecutive.from_iff.mp hlog i e he
  rw [version_applyEntry hresponse, hposition, Nat.zero_add]

lemma LastWrite.unique {n i j : ℕ} (hi : LastWrite log key n i) (hj : LastWrite log key n j) :
    i = j := by
  rcases Nat.lt_trichotomy i j with h | h | h
  · exact absurd hj.2.1 (hi.2.2 j h hj.1)
  · exact h
  · exact absurd hi.2.1 (hj.2.2 i h hi.1)

/-- The version a key has before entry `n` is the index of its last write. -/
lemma any_version_iff (hlog : Consecutive.From Entry.position 0 log) (key : String) {n : ℕ}
    (hn : n ≤ log.length) (version : UInt64) :
    (replay (log.take n)).stateMachine.data[key]?.any (fun vv => vv.version == version) = true ↔
      LastWrite log key n version.toNat := by
  have hholds := holds_replay key hn
  cases hdata : (replay (log.take n)).stateMachine.data[key]? with
  | none =>
      rw [hdata] at hholds
      refine ⟨fun h => by simp at h, fun h => ?_⟩
      exact absurd h.2.1 (hholds _ h.1)
  | some vv =>
      rw [hdata] at hholds
      obtain ⟨i, hlast, hresponse⟩ := hholds
      have hversion := version_responseAt hlog hresponse
      simp only [Option.any_some, beq_iff_eq]
      constructor
      · rintro rfl
        rwa [hversion]
      · intro h
        rw [← UInt64.toNat_inj, hversion, hlast.unique h]

/-- The response of a `CompareAndSet`. -/
lemma responseAt_compareAndSet (hlog : Consecutive.From Entry.position 0 log) {n : ℕ}
    {id : LogId L} {expectedVersion : UInt64} {value : String}
    (h : log[n]? = some ⟨id, .normal (.compareAndSet key expectedVersion value)⟩) :
    (responseAt log n = some ⟨value, id.index⟩ ∧ LastWrite log key n expectedVersion.toNat) ∨
      (responseAt log n = none ∧ ¬ LastWrite log key n expectedVersion.toNat) := by
  have hn := (List.getElem?_eq_some_iff.mp h).1
  have hiff := any_version_iff hlog key hn.le expectedVersion
  rw [responseAt_eq h, ← hiff]
  simp only [Applied.applyEntry]
  split_ifs with hmatch
  · exact Or.inl ⟨rfl, hmatch⟩
  · exact Or.inr ⟨rfl, hmatch⟩

/-- **A version is an optimistic lock.**  For every log and every `CompareAndSet` in it: it succeeds
exactly when the entry whose index it expects has written its key and no entry in between has, and
otherwise it answers nothing. -/
theorem compareAndSet_succeeds_iff (log : List (Entry L (EntryPayload M)))
    (hlog : Consecutive.From Entry.position 0 log) (n : ℕ) (id : LogId L) (key : String)
    (expectedVersion : UInt64) (value : String)
    (h : log[n]? = some ⟨id, .normal (.compareAndSet key expectedVersion value)⟩) :
    (responseAt log n = some ⟨value, id.index⟩ ↔ LastWrite log key n expectedVersion.toNat) ∧
      (responseAt log n = none ↔ ¬ LastWrite log key n expectedVersion.toNat) := by
  rcases responseAt_compareAndSet hlog h with ⟨hresponse, hlast⟩ | ⟨hresponse, hlast⟩
  · simp [hresponse, hlast]
  · simp [hresponse, hlast]

/-- Two writers have read version 1; the first one's `CompareAndSet` is the last write before the
second one's. -/
def contendedLog : List (Entry ℕ (EntryPayload (List ℕ))) :=
  [⟨⟨1, 0⟩, .membership [1, 2]⟩, ⟨⟨1, 1⟩, .normal (.set "k" "a")⟩,
    ⟨⟨1, 2⟩, .normal (.compareAndSet "k" 1 "b")⟩, ⟨⟨1, 3⟩, .normal (.compareAndSet "k" 1 "c")⟩]

theorem compareAndSet_succeeds_contended :
    LastWrite contendedLog "k" 2 1 ∧ ¬ LastWrite contendedLog "k" 3 1 := by
  have hlog : Consecutive.From Entry.position 0 contendedLog := by decide
  have hfirst := compareAndSet_succeeds_iff contendedLog hlog 2 ⟨1, 2⟩ "k" 1 "b" rfl
  have hsecond := compareAndSet_succeeds_iff contendedLog hlog 3 ⟨1, 3⟩ "k" 1 "c" rfl
  exact ⟨hfirst.1.mp (by decide +kernel), hsecond.2.mp (by decide +kernel)⟩

/-! ## Across the replicas -/

variable {json : SerdeJson (BTreeMap String VersionedValue)}

lemma AnswerFollows.eq_responseAt {answer : LogId L × Option VersionedValue}
    (h : AnswerFollows log answer) : answer.2 = responseAt log answer.1.index.toNat := by
  obtain ⟨e, he, -, hanswer⟩ := h
  rw [hanswer, responseAt_eq he]

/-- A `CompareAndSet` that succeeds behind another one with the same version would have found it in
between. -/
lemma not_lastWrite_of_wins (hlog : Consecutive.From Entry.position 0 log) {i j : ℕ} {id : LogId L}
    {expectedVersion : UInt64} {value : String}
    (hi : log[i]? = some ⟨id, .normal (.compareAndSet key expectedVersion value)⟩)
    (hwins : (responseAt log i).isSome) (hij : i < j) :
    ¬ LastWrite log key j expectedVersion.toNat := by
  rintro ⟨-, -, hnone⟩
  rcases responseAt_compareAndSet hlog hi with ⟨-, hlast⟩ | ⟨hresponse, -⟩
  · refine hnone i hlast.1 hij ⟨?_, hwins⟩
    rw [hi]
    rfl
  · simp [hresponse] at hwins

/-- **At most one wins.**  In every run of any number of replicas, with any snapshots, failures and
restarts: a responder of a `CompareAndSet` is sent a value exactly when the expected version is the
index of the last effective write of the key before it in the log; and two responders that are sent
a value for the same key and the same expected version belong to the same entry. -/
theorem compareAndSet_wins_once (json : SerdeJson (BTreeMap String VersionedValue)) (count : ℕ)
    (events : List (ReplicaEvent L M)) (w : Replicas L M)
    (hrun : (replicas json).run (.init count) events = some w) (key : String)
    (expectedVersion : UInt64) :
    (∀ answer ∈ w.answers, ∀ value, w.committed[answer.1.index.toNat]?
        = some ⟨answer.1, .normal (.compareAndSet key expectedVersion value)⟩ →
      (answer.2.isSome ↔
        LastWrite w.committed key answer.1.index.toNat expectedVersion.toNat)) ∧
    (∀ a ∈ w.answers, ∀ b ∈ w.answers, ∀ value value',
      w.committed[a.1.index.toNat]?
        = some ⟨a.1, .normal (.compareAndSet key expectedVersion value)⟩ →
      w.committed[b.1.index.toNat]?
        = some ⟨b.1, .normal (.compareAndSet key expectedVersion value')⟩ →
      a.2.isSome → b.2.isSome → a.1 = b.1) := by
  have h : ReplicasInv json w := Machine.invariant (fun s e s' => replicasInv_step)
    (replicasInv_init count) hrun
  have hiff : ∀ answer ∈ w.answers, ∀ value, w.committed[answer.1.index.toNat]?
        = some ⟨answer.1, .normal (.compareAndSet key expectedVersion value)⟩ →
      (answer.2.isSome ↔
        LastWrite w.committed key answer.1.index.toNat expectedVersion.toNat) := by
    intro answer hanswer value he
    rw [(h.answers answer hanswer).eq_responseAt]
    rcases responseAt_compareAndSet h.log he with ⟨hresponse, hlast⟩ | ⟨hresponse, hlast⟩
    · simp [hresponse, hlast]
    · simp [hresponse, hlast]
  refine ⟨hiff, ?_⟩
  intro a ha b hb value value' hea heb hwinsa hwinsb
  have hlasta := (hiff a ha value hea).mp hwinsa
  have hlastb := (hiff b hb value' heb).mp hwinsb
  rw [(h.answers a ha).eq_responseAt] at hwinsa
  rw [(h.answers b hb).eq_responseAt] at hwinsb
  rcases Nat.lt_trichotomy a.1.index.toNat b.1.index.toNat with hlt | heq | hlt
  · exact absurd hlastb (not_lastWrite_of_wins h.log hea hwinsa hlt)
  · rw [heq, heb, Option.some.injEq, Entry.mk.injEq] at hea
    exact hea.1.symm
  · exact absurd hlasta (not_lastWrite_of_wins h.log heb hwinsb hlt)

/-- The contended log, applied by two nodes that each hold one of the responders. -/
def contendedRun : List (ReplicaEvent ℕ (List ℕ)) :=
  contendedLog.map .commit ++ [.apply 0 [false, false, true, false] none,
    .apply 1 [false, false, false, true] none]

theorem compareAndSet_wins_once_contended :
    ∃ w, (replicas sampleJson).run (.init 2) contendedRun = some w ∧
      w.answers = [(⟨1, 2⟩, some ⟨"b", 2⟩), (⟨1, 3⟩, none)] ∧
      ¬ LastWrite w.committed "k" 3 1 := by
  have hend : ((replicas sampleJson).run (.init 2) contendedRun).any (fun w =>
      decide (w.answers = [(⟨1, 2⟩, some ⟨"b", 2⟩), (⟨1, 3⟩, none)]) &&
      decide (w.committed = contendedLog)) = true := by
    decide +kernel
  obtain ⟨w, hrun, hw⟩ := (Option.any_eq_true _ _).mp hend
  simp only [Bool.and_eq_true, decide_eq_true_eq] at hw
  obtain ⟨hanswers, hcommitted⟩ := hw
  refine ⟨w, hrun, hanswers, ?_⟩
  have hiff := (compareAndSet_wins_once sampleJson 2 contendedRun w hrun "k" 1).1 (⟨1, 3⟩, none)
    (by rw [hanswers]; simp) "c" (by rw [hcommitted]; rfl)
  exact fun hlast => by simpa using hiff.mpr hlast

end RaftBench.OpenRaft

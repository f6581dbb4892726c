import RaftBench.OpenRaft.StateMachineStore

/-!
# The two stores of one server

A server hands its log to `log-mem` and its state to `sm-mem`, and a peer that has fallen behind is
brought up to date from both: it is sent the current snapshot and then the entries the log still
has.  That works only if purging never outruns the snapshots and truncating never touches what has
been applied, which neither store can check; it is raft that promises it (`Allowed`).

`catchUp` is what the peer does.  `catchUp_reaches_node` says that after every run within that
promise the peer ends where the server is, whatever it has held before.
-/

namespace RaftBench.OpenRaft

/-! ## Pieces of the log -/

section Between

variable {L P V : Type} {l l' : RaftLog L P V} {lo mid hi : ℕ}

lemma RaftLog.between_self (l : RaftLog L P V) (lo : ℕ) : l.between lo lo = [] := by
  rw [RaftLog.between, List.drop_eq_nil_of_le]
  exact List.length_take_le _ _

/-- A piece in two parts. -/
lemma RaftLog.between_append (l : RaftLog L P V) (hlo : lo ≤ mid) (hmid : mid ≤ hi) :
    l.between lo hi = l.between lo mid ++ l.between mid hi := by
  have hsplit : l.entries.take (hi - l.first)
      = l.entries.take (mid - l.first) ++ l.between mid hi := by
    rw [RaftLog.between]
    conv_lhs => rw [← List.take_append_drop (mid - l.first) (l.entries.take (hi - l.first))]
    rw [List.take_take, Nat.min_eq_left (by omega)]
  conv_lhs => rw [RaftLog.between, hsplit, List.drop_append]
  congr 1
  -- either the first part is as long as it should be, or there is no second one
  by_cases hlength : mid - l.first ≤ l.entries.length
  · have hzero : lo - l.first - (l.entries.take (mid - l.first)).length = 0 := by
      rw [List.length_take, Nat.min_eq_left hlength]
      omega
    rw [hzero, List.drop_zero]
  · have hempty : l.between mid hi = [] := by
      rw [RaftLog.between, List.drop_eq_nil_of_le]
      rw [List.length_take]
      omega
    rw [hempty, List.drop_nil]

/-- Appending behind a piece leaves it. -/
lemma RaftLog.append_frame (lo : ℕ) {entries : List (Entry L P)} (h : l.append entries = some l')
    (hentries : ∀ e ∈ entries, hi ≤ e.position) :
    l'.first = l.first ∧ l.next ≤ l'.next ∧ l'.between lo hi = l.between lo hi := by
  unfold RaftLog.append at h
  split at h
  · next hfits =>
      cases h
      cases entries with
      | nil => simp [RaftLog.first, RaftLog.next, RaftLog.between]
      | cons e entries =>
          obtain ⟨hlength, hfrom⟩ := hfits
          have hhi : hi ≤ l.first + l.offset (e :: entries) :=
            hfrom.1 ▸ hentries e (List.mem_cons_self ..)
          have htake : hi - l.first ≤ (l.entries.take (l.offset (e :: entries))).length := by
            rw [List.length_take]
            omega
          refine ⟨rfl, ?_, ?_⟩
          · simp only [RaftLog.next, RaftLog.first, Consecutive.splice, List.length_append,
              List.length_take, List.length_drop]
            omega
          · rw [RaftLog.between, RaftLog.between]
            congr 1
            show (Consecutive.splice _ _ _).take (hi - l.first) = _
            rw [Consecutive.splice, List.append_assoc, List.take_append_of_le_length htake,
              List.take_take, Nat.min_eq_left (by simpa using htake.trans (List.length_take_le ..))]
  · cases h

lemma RaftLog.truncateAfter_frame (lo : ℕ) {lastLogId : Option (LogId L)}
    (h : l.truncateAfter lastLogId = some l') (hlast : hi ≤ nextIndex lastLogId) :
    l'.first = l.first ∧ (hi ≤ l.next → hi ≤ l'.next) ∧ l'.between lo hi = l.between lo hi := by
  unfold RaftLog.truncateAfter at h
  split at h
  · cases h
    refine ⟨rfl, ?_, ?_⟩
    · simp only [RaftLog.next, RaftLog.first, List.length_take]
      omega
    · rw [RaftLog.between, RaftLog.between]
      congr 1
      show (l.entries.take _).take (hi - l.first) = _
      rw [List.take_take, Nat.min_eq_left (by omega)]
  · cases h

variable [LT L] [DecidableLT L] [DecidableEq L]

lemma RaftLog.purge_frame {logId : LogId L} (h : l.purge logId = some l')
    (hlo : logId.index.toNat + 1 ≤ lo) (hhi : lo ≤ hi) :
    l'.first ≤ lo ∧ l.next ≤ l'.next ∧ l'.between lo hi = l.between lo hi := by
  unfold RaftLog.purge at h
  split at h
  · next hle =>
      cases h
      obtain ⟨-, hfirst⟩ := hle
      refine ⟨hlo, ?_, ?_⟩
      · simp only [RaftLog.next, List.length_drop]
        show l.first + l.entries.length ≤ nextIndex (some logId) + _
        simp only [nextIndex]
        omega
      · rw [RaftLog.between, RaftLog.between]
        show ((l.entries.drop (nextIndex (some logId) - l.first)).take
          (hi - nextIndex (some logId))).drop (lo - nextIndex (some logId)) = _
        simp only [nextIndex]
        rw [List.take_drop, List.drop_drop]
        congr 2 <;> omega
  · cases h

end Between

/-! ## The server -/

variable {L M V : Type}

structure RaftNode (L M V : Type) where
  log : LogStoreInner L (EntryPayload M) V
  sm : StateMachineStoreInner L M

def RaftNode.init [Inhabited M] : RaftNode L M V := ⟨{}, .init⟩

/-- The calls raft makes; an `apply` gets the entries from the log store. -/
inductive NodeEvent (L M V : Type) where
  | log (call : LogCall L (EntryPayload M) V)
  | apply (upTo : UInt64) (failure : Option IoError)
  | buildSnapshot
  | installSnapshot (metadata : SnapshotMeta L M) (data : ByteArray)

/-- The entries from behind the last applied one up to an index, out of the log store. -/
def RaftNode.pending (n : RaftNode L M V) (applied : Option (LogId L)) (upTo : UInt64) :
    Option (List (Entry L (EntryPayload M))) :=
  n.log.tryGetLogEntries ⟨.included (LogStoreInner.startIndex applied), .excluded upTo⟩

/-- Apply entries that nobody waits for. -/
def StateMachineStoreInner.applyEntries (s : StateMachineStoreInner L M)
    (entries : List (Entry L (EntryPayload M))) (failure : Option IoError) :
    StateMachineStoreInner L M :=
  (s.apply (ρ := Unit) ((entries.map fun e => (e, none)).map Except.ok
    ++ (failure.map Except.error).toList)).1

section Machine

variable [LT L] [DecidableLT L] [DecidableEq L]
  (json : SerdeJson (BTreeMap String VersionedValue))

def raftNode : Machine (RaftNode L M V) (NodeEvent L M V) where
  step n
    | .log call => (logStore.step n.log call).map fun log => { n with log := log }
    | .apply upTo failure =>
        (n.pending n.sm.lastAppliedLog upTo).map fun entries =>
          { n with sm := n.sm.applyEntries entries failure }
    | .buildSnapshot =>
        match n.sm.buildSnapshot json with
        | .error _ => some n
        | .ok (sm, _) => some { n with sm := sm }
    | .installSnapshot metadata data =>
        match n.sm.installSnapshot json metadata data with
        | .error _ => some n
        | .ok sm => some { n with sm := sm }

end Machine

/-- What raft promises of its calls: entries are appended without a hole and never over an applied
one, nothing applied is truncated, nothing is purged that the current snapshot does not cover, and
an installed snapshot is not older than the state it replaces. -/
def Allowed [LT L] [DecidableLT L] [DecidableEq L] (n : RaftNode L M V) : NodeEvent L M V → Prop
  | .log (.append entries) =>
      ∀ e ∈ entries.head?, Consecutive.From Entry.position e.position entries ∧
        nextIndex n.sm.lastAppliedLog ≤ e.position ∧
        e.position ≤ nextIndex n.log.getLogState.lastLogId
  | .log (.truncateAfter lastLogId) =>
      nextIndex n.sm.lastAppliedLog ≤ nextIndex lastLogId ∧ nextIndex lastLogId < 2 ^ 64
  | .log (.purge logId) =>
      LogId.optionLe n.log.lastPurgedLogId (some logId) = true ∧
        nextIndex n.log.lastPurgedLogId ≤ logId.index.toNat + 1 ∧
        ∃ snapshot ∈ n.sm.currentSnapshot,
          logId.index.toNat + 1 ≤ nextIndex snapshot.metadata.lastLogId
  | .log (.saveCommitted _) => True
  | .log (.saveVote _) => True
  | .apply upTo _ => nextIndex n.sm.lastAppliedLog ≤ upTo.toNat
  | .buildSnapshot => True
  | .installSnapshot metadata _ =>
      nextIndex n.sm.lastAppliedLog ≤ nextIndex metadata.lastLogId ∧
        nextIndex metadata.lastLogId < 2 ^ 64

instance [LT L] [DecidableLT L] [DecidableEq L] (n : RaftNode L M V) :
    ∀ e, Decidable (Allowed n e)
  | .log (.append _) => inferInstanceAs (Decidable (∀ e ∈ _, _))
  | .log (.truncateAfter _) => inferInstanceAs (Decidable (_ ∧ _))
  | .log (.purge _) => inferInstanceAs (Decidable (_ ∧ _ ∧ ∃ snapshot ∈ _, _))
  | .log (.saveCommitted _) => isTrue trivial
  | .log (.saveVote _) => isTrue trivial
  | .apply _ _ => inferInstanceAs (Decidable (_ ≤ _))
  | .buildSnapshot => isTrue trivial
  | .installSnapshot _ _ => inferInstanceAs (Decidable (_ ∧ _))

/-- A peer with the given store is sent the current snapshot, if there is one, and then the entries
from there to the last applied one. -/
def RaftNode.catchUp (json : SerdeJson (BTreeMap String VersionedValue)) (n : RaftNode L M V)
    (peer : StateMachineStoreInner L M) : Except IoError (StateMachineStoreInner L M) := do
  let peer ← match n.sm.getCurrentSnapshot with
    | none => pure peer
    | some snapshot => peer.installSnapshot json snapshot.metadata snapshot.data
  match n.pending peer.lastAppliedLog (LogStoreInner.startIndex n.sm.lastAppliedLog) with
  | none => .error (.other "range start is greater than range end")
  | some entries => pure (peer.applyEntries entries none)

/-! ## The invariant -/

lemma toApplied_applyEntries (s : StateMachineStoreInner L M)
    (entries : List (Entry L (EntryPayload M))) (failure : Option IoError) :
    s.applyEntries entries failure = { s with toApplied := s.toApplied.applyAll entries } := by
  rw [StateMachineStoreInner.applyEntries, apply_store, delivered_map_ok, List.map_map]
  simp [Function.comp_def]

section Invariant

variable [Inhabited M] {json : SerdeJson (BTreeMap String VersionedValue)}

/-- What the current snapshot stands for; without one it is the state before any entry. -/
def StateMachineStoreInner.base (json : SerdeJson (BTreeMap String VersionedValue))
    (s : StateMachineStoreInner L M) : Except IoError (Applied L M) :=
  match s.currentSnapshot with
  | none => .ok .init
  | some snapshot => snapshot.decode json

/-- The snapshot covers what has been purged, and the log has what lies between it and the state. -/
structure NodeInv (json : SerdeJson (BTreeMap String VersionedValue)) (n : RaftNode L M V)
    (l : RaftLog L (EntryPayload M) V) (base : Applied L M) : Prop where
  log : Represents n.log l
  decoded : n.sm.base json = .ok base
  covered : l.first ≤ nextIndex base.lastAppliedLog
  behind : nextIndex base.lastAppliedLog ≤ nextIndex n.sm.lastAppliedLog
  bound : nextIndex n.sm.lastAppliedLog < 2 ^ 64
  reach : nextIndex base.lastAppliedLog = nextIndex n.sm.lastAppliedLog ∨
    nextIndex n.sm.lastAppliedLog ≤ l.next
  state : n.sm.toApplied = base.applyAll
    (l.between (nextIndex base.lastAppliedLog) (nextIndex n.sm.lastAppliedLog))

/-- The entries read from the log store, by their numbers. -/
lemma NodeInv.pending {n : RaftNode L M V} {l : RaftLog L (EntryPayload M) V} {base : Applied L M}
    (h : NodeInv json n l base) {applied : Option (LogId L)} {upTo : UInt64}
    (happlied : nextIndex applied ≤ upTo.toNat) :
    n.pending applied upTo = some (l.between (nextIndex applied) upTo.toNat) := by
  have hstart : (LogStoreInner.startIndex applied).toNat = nextIndex applied :=
    toNat_startIndex (happlied.trans_lt upTo.toNat_lt)
  rw [RaftNode.pending, h.log.tryGetLogEntries, RaftLog.read_eq_between, hstart]
  rw [UInt64.le_iff_toNat_le, hstart]
  exact happlied

/-- The numbers and the pieces stay, whatever else a call does to the log. -/
lemma NodeInv.changeLog {n : RaftNode L M V} {l l' : RaftLog L (EntryPayload M) V}
    {base : Applied L M} (h : NodeInv json n l base) {log : LogStoreInner L (EntryPayload M) V}
    (hlog : Represents log l') (hcovered : l'.first ≤ nextIndex base.lastAppliedLog)
    (hreach : nextIndex n.sm.lastAppliedLog ≤ l.next → nextIndex n.sm.lastAppliedLog ≤ l'.next)
    (hbetween : l'.between (nextIndex base.lastAppliedLog) (nextIndex n.sm.lastAppliedLog)
      = l.between (nextIndex base.lastAppliedLog) (nextIndex n.sm.lastAppliedLog)) :
    NodeInv json { n with log := log } l' base where
  log := hlog
  decoded := h.decoded
  covered := hcovered
  behind := h.behind
  bound := h.bound
  reach := h.reach.imp_right hreach
  state := hbetween ▸ h.state

lemma RaftLog.next_eq {P : Type} (l : RaftLog L P V) : l.next = nextIndex l.state.lastLogId := by
  rw [RaftLog.state]
  cases hlast : l.entries.getLast? with
  | none =>
      rw [List.getLast?_eq_none_iff] at hlast
      simp [RaftLog.next, RaftLog.first, hlast]
  | some e =>
      have hget := hlast
      rw [List.getLast?_eq_getElem?] at hget
      have hposition : e.logId.index.toNat = nextIndex l.purged + (l.entries.length - 1) :=
        Consecutive.from_iff.mp l.consecutive _ _ hget
      have hlength := (List.getElem?_eq_some_iff.mp hget).1
      simp only [Option.map_some, Option.some_or, RaftLog.next, RaftLog.first]
      show _ = e.logId.index.toNat + 1
      omega

/-- Consecutive entries that start within the log fit it. -/
lemma RaftLog.fits_of_from {P : Type} {l : RaftLog L P V} {e : Entry L P}
    {entries : List (Entry L P)} (h : Consecutive.From Entry.position e.position (e :: entries))
    (hfirst : l.first ≤ e.position) (hnext : e.position ≤ l.next) : l.Fits (e :: entries) := by
  have hoffset : l.offset (e :: entries) = e.position - l.first := rfl
  rw [RaftLog.Fits, hoffset, Nat.add_sub_cancel' hfirst]
  refine ⟨?_, h⟩
  rw [RaftLog.next] at hnext
  omega

section Steps

variable {n n' : RaftNode L M V} {l : RaftLog L (EntryPayload M) V} {base : Applied L M}

/-- Applying what the log has behind the state. -/
lemma NodeInv.stepApply (h : NodeInv json n l base) {upTo : UInt64}
    (hallowed : nextIndex n.sm.lastAppliedLog ≤ upTo.toNat) (failure : Option IoError) :
    NodeInv json ⟨n.log, n.sm.applyEntries
      (l.between (nextIndex n.sm.lastAppliedLog) upTo.toNat) failure⟩ l base := by
  obtain ⟨hfrom, hlength⟩ := l.consecutive_between (nextIndex n.sm.lastAppliedLog) upTo.toNat
  have hbehind := h.behind
  have hcovered := h.covered
  rw [Nat.max_eq_left (hcovered.trans hbehind)] at hfrom hlength
  have hnext := Applied.nextIndex_applyAll hfrom (a := n.sm.toApplied) rfl
  rw [toApplied_applyEntries]
  rcases Nat.lt_or_ge (nextIndex n.sm.lastAppliedLog) l.next with hlt | hge
  · have happlied : nextIndex (n.sm.toApplied.applyAll
        (l.between (nextIndex n.sm.lastAppliedLog) upTo.toNat)).lastAppliedLog
        = min upTo.toNat l.next := by
      rw [hnext, hlength]
      omega
    have htwo : l.between (nextIndex base.lastAppliedLog) (min upTo.toNat l.next)
        = l.between (nextIndex base.lastAppliedLog) (nextIndex n.sm.lastAppliedLog)
          ++ l.between (nextIndex n.sm.lastAppliedLog) upTo.toNat := by
      rw [← l.between_append hbehind hallowed]
      simp only [RaftLog.between]
      congr 1
      rw [List.take_eq_take_iff, RaftLog.next]
      omega
    have hupTo := upTo.toNat_lt
    refine ⟨h.log, h.decoded, hcovered, ?_, ?_, Or.inr ?_, ?_⟩
    · rw [happlied]
      omega
    · rw [happlied]
      omega
    · rw [happlied]
      exact Nat.min_le_right ..
    · rw [happlied, htwo, Applied.applyAll_append, ← h.state]
  · have hnone : l.between (nextIndex n.sm.lastAppliedLog) upTo.toNat = [] := by
      rw [← List.length_eq_zero_iff, hlength]
      omega
    rw [hnone]
    exact ⟨h.log, h.decoded, hcovered, hbehind, h.bound, h.reach, h.state⟩

/-- A state that is its own base needs nothing from the log. -/
lemma NodeInv.rebase (h : NodeInv json n l base) (sm : StateMachineStoreInner L M)
    (hbase : sm.base json = .ok sm.toApplied)
    (hle : nextIndex n.sm.lastAppliedLog ≤ nextIndex sm.lastAppliedLog)
    (hbound : nextIndex sm.lastAppliedLog < 2 ^ 64) :
    NodeInv json { n with sm := sm } l sm.toApplied where
  log := h.log
  decoded := hbase
  covered := h.covered.trans (h.behind.trans hle)
  behind := le_rfl
  bound := hbound
  reach := Or.inl rfl
  state := by
    rw [l.between_self]
    rfl

variable [LT L] [DecidableLT L] [DecidableEq L]

/-- A call of the log store. -/
lemma NodeInv.stepLog (h : NodeInv json n l base) {call : LogCall L (EntryPayload M) V}
    (hallowed : Allowed n (.log call)) {log : LogStoreInner L (EntryPayload M) V}
    (hstep : logStore.step n.log call = some log) :
    ∃ l', NodeInv json { n with log := log } l' base := by
  have hstore : ∀ {l'}, raftLog.step l call = some l' → Represents log l' := by
    intro l' hl'
    obtain ⟨log', hlog', hrepresents⟩ := represents_step h.log hl'
    rw [hstep, Option.some.injEq] at hlog'
    exact hlog' ▸ hrepresents
  have hbehind := h.behind
  have hcovered := h.covered
  cases call with
  | append entries =>
      have hfits : l.Fits entries ∧ ∀ e ∈ entries, nextIndex n.sm.lastAppliedLog ≤ e.position := by
        cases entries with
        | nil => exact ⟨⟨Nat.zero_le _, trivial⟩, by simp⟩
        | cons e entries =>
            obtain ⟨hfrom, happlied, hlast⟩ := hallowed e rfl
            rw [h.log.getLogState, ← l.next_eq] at hlast
            refine ⟨RaftLog.fits_of_from hfrom (by omega) hlast, fun e' he' => ?_⟩
            exact happlied.trans (hfrom.getElem?_sub he').1
      have hl' : l.append entries = some _ := dif_pos hfits.1
      obtain ⟨hfirst, hnext, hbetween⟩ := RaftLog.append_frame
        (nextIndex base.lastAppliedLog) hl' hfits.2
      exact ⟨_, h.changeLog (hstore hl') (hfirst ▸ hcovered) (fun hle => hle.trans hnext) hbetween⟩
  | truncateAfter lastLogId =>
      obtain ⟨happlied, hbound⟩ := hallowed
      have hl' : l.truncateAfter lastLogId = some _ := if_pos hbound
      obtain ⟨hfirst, hnext, hbetween⟩ := RaftLog.truncateAfter_frame
        (nextIndex base.lastAppliedLog) hl' happlied
      exact ⟨_, h.changeLog (hstore hl') (hfirst ▸ hcovered) hnext hbetween⟩
  | purge logId =>
      obtain ⟨hle, hfirst, snapshot, hsnapshot, hid⟩ := hallowed
      rw [h.log.purged] at hle hfirst
      rw [Option.mem_def] at hsnapshot
      -- what the snapshot covers is what the base covers
      have hbase : nextIndex snapshot.metadata.lastLogId = nextIndex base.lastAppliedLog := by
        have hdecoded := h.decoded
        rw [StateMachineStoreInner.base, hsnapshot] at hdecoded
        simp only [StoredSnapshot.decode] at hdecoded
        split at hdecoded <;> cases hdecoded
        rfl
      have hl' : l.purge logId = some _ := dif_pos ⟨hle, hfirst⟩
      obtain ⟨hfirst', hnext, hbetween⟩ := RaftLog.purge_frame hl' (hbase ▸ hid) hbehind
      exact ⟨_, h.changeLog (hstore hl') hfirst' (fun hle => hle.trans hnext) hbetween⟩
  | saveCommitted committed =>
      exact ⟨_, h.changeLog (hstore rfl) hcovered id rfl⟩
  | saveVote vote =>
      exact ⟨_, h.changeLog (hstore rfl) hcovered id rfl⟩

/-- **Every call within the promise keeps the invariant.** -/
lemma nodeInv_step {e : NodeEvent L M V} (h : NodeInv json n l base) (hallowed : Allowed n e)
    (hstep : (raftNode json).step n e = some n') : ∃ l' base', NodeInv json n' l' base' := by
  cases e with
  | log call =>
      obtain ⟨log, hlog, rfl⟩ := Option.map_eq_some_iff.mp hstep
      obtain ⟨l', hl'⟩ := h.stepLog hallowed hlog
      exact ⟨l', base, hl'⟩
  | apply upTo failure =>
      obtain ⟨entries, hentries, rfl⟩ := Option.map_eq_some_iff.mp hstep
      rw [h.pending hallowed, Option.some.injEq] at hentries
      exact ⟨l, base, hentries ▸ h.stepApply hallowed failure⟩
  | buildSnapshot =>
      simp only [raftNode] at hstep
      cases hbuild : n.sm.buildSnapshot json with
      | error e =>
          simp only [hbuild, Option.some.injEq] at hstep
          exact ⟨l, base, hstep ▸ h⟩
      | ok built =>
          simp only [hbuild, Option.some.injEq] at hstep
          obtain ⟨sm', snapshot⟩ := built
          obtain ⟨hsm, hdecode⟩ := buildSnapshot_ok hbuild
          refine ⟨l, sm'.toApplied, hstep ▸ h.rebase sm' ?_ ?_ ?_⟩
          · rw [hsm]
            exact hdecode
          · rw [hsm]
          · rw [hsm]
            exact h.bound
  | installSnapshot metadata data =>
      obtain ⟨hle, hbound⟩ := hallowed
      simp only [raftNode] at hstep
      have hinstall := installSnapshot_eq json n.sm ⟨metadata, data⟩
      cases hdecode : StoredSnapshot.decode json ⟨metadata, data⟩ with
      | error e =>
          simp only [hinstall, hdecode, Except.map, Option.some.injEq] at hstep
          exact ⟨l, base, hstep ▸ h⟩
      | ok a =>
          simp only [hinstall, hdecode, Except.map, Option.some.injEq] at hstep
          have hlast : a.lastAppliedLog = metadata.lastLogId := by
            simp only [StoredSnapshot.decode] at hdecode
            split at hdecode <;> cases hdecode
            rfl
          refine ⟨l, a, hstep ▸ h.rebase ⟨a, some ⟨metadata, data⟩⟩ hdecode ?_ ?_⟩
          · rw [hlast]
            exact hle
          · rw [hlast]
            exact hbound

end Steps

lemma nodeInv_init : NodeInv json (RaftNode.init (L := L) (M := M) (V := V)) {} Applied.init where
  log := ⟨rfl, Std.ExtTreeMap.toList_eq_nil_iff.mpr rfl, rfl, rfl⟩
  decoded := rfl
  covered := le_rfl
  behind := le_rfl
  bound := Nat.two_pow_pos 64
  reach := Or.inl rfl
  state := rfl

/-- From the base the entries of the log lead to the state. -/
lemma NodeInv.reaches {n : RaftNode L M V} {l : RaftLog L (EntryPayload M) V} {base : Applied L M}
    (h : NodeInv json n l base) {peer : StateMachineStoreInner L M}
    (hpeer : peer.toApplied = base) :
    ∃ entries, n.pending peer.lastAppliedLog (LogStoreInner.startIndex n.sm.lastAppliedLog)
        = some entries ∧ (peer.applyEntries entries none).toApplied = n.sm.toApplied := by
  have hend := toNat_startIndex h.bound
  refine ⟨_, h.pending ?_, ?_⟩
  · rw [hpeer, hend]
    exact h.behind
  · rw [toApplied_applyEntries, hend, hpeer]
    exact h.state.symm

end Invariant

/-- **A peer catches up.**  After every run of calls within raft's promise, a peer that is sent the
server's snapshot and then the rest of its log ends in the server's state: the last applied log id,
the membership and the data.  With a snapshot the peer may have held anything before; without one it
must not have applied anything. -/
theorem catchUp_reaches_node [LT L] [DecidableLT L] [DecidableEq L] [Inhabited M]
    (json : SerdeJson (BTreeMap String VersionedValue)) (events : List (NodeEvent L M V))
    (n : RaftNode L M V) (hallowed : (raftNode json).Along Allowed .init events)
    (hrun : (raftNode json).run .init events = some n) (peer : StateMachineStoreInner L M)
    (hpeer : n.sm.currentSnapshot = none → peer.toApplied = .init) :
    ∃ peer', n.catchUp json peer = .ok peer' ∧ peer'.toApplied = n.sm.toApplied := by
  obtain ⟨l, base, h⟩ : ∃ l base, NodeInv json n l base :=
    Machine.invariant_along (I := fun n => ∃ l base, NodeInv json n l base)
      (fun n e n' ⟨l, base, h⟩ hC hstep => nodeInv_step h hC hstep)
      ⟨{}, .init, nodeInv_init⟩ hallowed hrun
  cases hsnapshot : n.sm.currentSnapshot with
  | none =>
      have hdecoded := h.decoded
      rw [StateMachineStoreInner.base, hsnapshot] at hdecoded
      cases hdecoded
      obtain ⟨entries, hentries, hreached⟩ := h.reaches (hpeer hsnapshot)
      refine ⟨_, ?_, hreached⟩
      simp only [RaftNode.catchUp, StateMachineStoreInner.getCurrentSnapshot, hsnapshot, pure_bind,
        hentries]
      rfl
  | some snapshot =>
      have hdecoded := h.decoded
      rw [StateMachineStoreInner.base, hsnapshot] at hdecoded
      have hinstall := installSnapshot_eq json peer snapshot
      rw [show snapshot.decode json = .ok base from hdecoded] at hinstall
      have hpeer : (⟨base, some snapshot⟩ : StateMachineStoreInner L M).toApplied = base := rfl
      obtain ⟨entries, hentries, hreached⟩ := h.reaches hpeer
      refine ⟨_, ?_, hreached⟩
      simp only [RaftNode.catchUp, StateMachineStoreInner.getCurrentSnapshot, hsnapshot, hinstall,
        Except.map, bind, Except.bind, hentries]
      rfl

/-- Two entries are applied, saved to a snapshot and partly purged; then the log goes on. -/
def sampleNodeRun : List (NodeEvent ℕ (List ℕ) ℕ) :=
  [.log (.append [⟨⟨1, 0⟩, .membership [1, 2]⟩, ⟨⟨1, 1⟩, .normal (.set "k" "a")⟩]),
    .apply 2 none, .buildSnapshot, .log (.purge ⟨1, 0⟩),
    .log (.append [⟨⟨2, 2⟩, .normal (.compareAndSet "k" 1 "b")⟩, ⟨⟨2, 3⟩, .blank⟩]),
    .apply 3 (some (.other "stream closed")), .log (.truncateAfter (some ⟨2, 2⟩))]

theorem catchUp_reaches_node_sample :
    ∃ n peer', (raftNode sampleJson).run .init sampleNodeRun = some n ∧
      n.log.getLogState = ⟨some ⟨1, 0⟩, some ⟨2, 2⟩⟩ ∧ n.sm.get "k" = some ⟨"b", 2⟩ ∧
      n.catchUp sampleJson ⟨⟨some ⟨0, 7⟩, ⟨none, []⟩, {}⟩, none⟩ = .ok peer' ∧
      peer'.toApplied = n.sm.toApplied := by
  have hend : ((raftNode sampleJson).run .init sampleNodeRun).any (fun n =>
      decide (n.log.getLogState = ⟨some ⟨1, 0⟩, some ⟨2, 2⟩⟩) &&
      decide (n.sm.get "k" = some ⟨"b", 2⟩) && n.sm.currentSnapshot.isSome) = true := by
    decide +kernel
  obtain ⟨n, hrun, hn⟩ := (Option.any_eq_true _ _).mp hend
  simp only [Bool.and_eq_true, decide_eq_true_eq, Option.isSome_iff_ne_none] at hn
  obtain ⟨⟨hstate, hget⟩, hsnapshot⟩ := hn
  have hallowed : (raftNode sampleJson).Along Allowed .init sampleNodeRun := by
    decide +kernel
  obtain ⟨peer', hpeer', hreached⟩ := catchUp_reaches_node sampleJson sampleNodeRun n hallowed hrun
    ⟨⟨some ⟨0, 7⟩, ⟨none, []⟩, {}⟩, none⟩ fun hnone => absurd hnone hsnapshot
  exact ⟨n, peer', hrun, hstate, hget, hpeer', hreached⟩

end RaftBench.OpenRaft

import Mathlib.Algebra.Ring.Nat
import RaftBench.Lib.Consecutive
import RaftBench.Lib.Machine
import RaftBench.Lib.OrderedMap

/-!
# The log store of the openraft server

`openraft/vendor/log-mem/src/log_store.rs`: a map from log indices to entries, the id of the last
purged entry, the saved vote and the saved commit id.  Raft calls it through a few operations, and
none of them checks more than that a purge does not go back.

* `LogStoreInner` — the store and its operations, as the source has them.  `none` is a panic.
* `RaftLog` — what the store is for: a log whose front has been purged.  Its entries are numbered
  consecutively behind the last purged one, and a call that would break this is not enabled.
* `logStore_refines_raftLog` — whatever sequence of calls a `RaftLog` goes through, the store goes
  through as well, without a panic, and then every read of the store answers what the log says.
-/

namespace RaftBench.OpenRaft

/-! ## Log ids and entries -/

/-- `openraft::LogId`: who has proposed an entry, and its index. -/
structure LogId (L : Type) where
  leaderId : L
  index : UInt64
  deriving DecidableEq, Repr

/-- `openraft::Entry`. -/
structure Entry (L P : Type) where
  logId : LogId L
  payload : P
  deriving DecidableEq, Repr

section LogIds

variable {L P : Type} [LT L] [DecidableLT L] [DecidableEq L]

/-- The derived order of log ids: by leader first, then by index. -/
def LogId.le (a b : LogId L) : Bool :=
  a.leaderId < b.leaderId || (a.leaderId == b.leaderId && a.index ≤ b.index)

/-- The derived order of optional log ids: `None` comes first. -/
def LogId.optionLe : Option (LogId L) → Option (LogId L) → Bool
  | none, _ => true
  | some _, none => false
  | some a, some b => a.le b

end LogIds

variable {L P V : Type}

def Entry.index (e : Entry L P) : UInt64 := e.logId.index

/-- The index as a number. -/
def Entry.position (e : Entry L P) : ℕ := e.index.toNat

/-- The index behind a log id; behind none it is 0. -/
def nextIndex : Option (LogId L) → ℕ
  | none => 0
  | some id => id.index.toNat + 1

/-! ## The store -/

structure LogStoreInner (L P V : Type) where
  lastPurgedLogId : Option (LogId L) := none
  log : BTreeMap UInt64 (Entry L P) := ∅
  committed : Option (LogId L) := none
  vote : Option V := none

/-- `openraft::LogState`. -/
structure LogState (L : Type) where
  lastPurgedLogId : Option (LogId L)
  lastLogId : Option (LogId L)
  deriving DecidableEq, Repr

namespace LogStoreInner

variable (self : LogStoreInner L P V)

def tryGetLogEntries (range : BTreeMap.Range UInt64) : Option (List (Entry L P)) :=
  (self.log.range range).map fun entries => entries.map Prod.snd

def getLogState : LogState L :=
  let last := self.log.nextBack.map fun e => e.2.logId
  let lastPurged := self.lastPurgedLogId
  ⟨lastPurged, match last with
    | none => lastPurged
    | some x => some x⟩

def saveCommitted (committed : Option (LogId L)) : LogStoreInner L P V :=
  { self with committed := committed }

def readCommitted : Option (LogId L) := self.committed

def saveVote (vote : V) : LogStoreInner L P V := { self with vote := some vote }

def readVote : Option V := self.vote

def append (entries : List (Entry L P)) : LogStoreInner L P V :=
  { self with log := entries.foldl (fun log entry => log.insert entry.index entry) self.log }

/-- Remove the keys of a range, which are collected first. -/
def removeRange (range : BTreeMap.Range UInt64) : Option (LogStoreInner L P V) :=
  (self.log.range range).map fun entries =>
    { self with log := BTreeMap.removeAll self.log (entries.map Prod.fst) }

/-- Where `truncate_after` starts; the addition wraps. -/
def startIndex : Option (LogId L) → UInt64
  | some logId => logId.index + 1
  | none => 0

def truncateAfter (lastLogId : Option (LogId L)) : Option (LogStoreInner L P V) :=
  self.removeRange ⟨.included (startIndex lastLogId), .unbounded⟩

/-- `purge` asserts that it does not go back. -/
def purge [LT L] [DecidableLT L] [DecidableEq L] (logId : LogId L) :
    Option (LogStoreInner L P V) :=
  if LogId.optionLe self.lastPurgedLogId (some logId) then
    { self with lastPurgedLogId := some logId }.removeRange ⟨.unbounded, .included logId.index⟩
  else none

end LogStoreInner

/-- The calls that change the store. -/
inductive LogCall (L P V : Type) where
  | append (entries : List (Entry L P))
  | truncateAfter (lastLogId : Option (LogId L))
  | purge (logId : LogId L)
  | saveCommitted (committed : Option (LogId L))
  | saveVote (vote : V)

section Machines

variable [LT L] [DecidableLT L] [DecidableEq L]

/-- The store, driven by its calls. -/
def logStore : Machine (LogStoreInner L P V) (LogCall L P V) where
  step s
    | .append entries => some (s.append entries)
    | .truncateAfter lastLogId => s.truncateAfter lastLogId
    | .purge logId => s.purge logId
    | .saveCommitted committed => some (s.saveCommitted committed)
    | .saveVote vote => some (s.saveVote vote)

end Machines

/-! ## The log the store stands for -/

/-- A log whose front has been purged.  Its entries follow the last purged one without a hole. -/
structure RaftLog (L P V : Type) where
  purged : Option (LogId L) := none
  entries : List (Entry L P) := []
  committed : Option (LogId L) := none
  vote : Option V := none
  consecutive : Consecutive.From Entry.position (nextIndex purged) entries := by trivial

namespace RaftLog

variable (l : RaftLog L P V)

/-- The index of the first entry that has not been purged. -/
def first : ℕ := nextIndex l.purged

/-- The index behind the last entry. -/
def next : ℕ := l.first + l.entries.length

/-- Where the new entries start among those that are there. -/
def offset (entries : List (Entry L P)) : ℕ :=
  (entries.head?.map fun e => e.position - l.first).getD 0

/-- The new entries are consecutive, leave no hole behind the last entry and do not reach back into
what has been purged. -/
def Fits (entries : List (Entry L P)) : Prop :=
  l.offset entries ≤ l.entries.length ∧
    Consecutive.From Entry.position (l.first + l.offset entries) entries

instance (entries : List (Entry L P)) : Decidable (l.Fits entries) :=
  inferInstanceAs (Decidable (_ ∧ _))

/-- Append, overwriting what has the index of a new entry. -/
def append (entries : List (Entry L P)) : Option (RaftLog L P V) :=
  if h : l.Fits entries then
    some { l with
      entries := Consecutive.splice l.entries (l.offset entries) entries
      consecutive := l.consecutive.splice h.1 h.2 }
  else none

/-- Keep the entries up to a log id.  The last of all indices has none behind it. -/
def truncateAfter (lastLogId : Option (LogId L)) : Option (RaftLog L P V) :=
  if nextIndex lastLogId < 2 ^ 64 then
    some { l with
      entries := l.entries.take (nextIndex lastLogId - l.first)
      consecutive := l.consecutive.take _ }
  else none

/-- Purge up to a log id, which is not below the last purged one in either order. -/
def purge [LT L] [DecidableLT L] [DecidableEq L] (logId : LogId L) : Option (RaftLog L P V) :=
  if h : LogId.optionLe l.purged (some logId) = true ∧ l.first ≤ logId.index.toNat + 1 then
    some { l with
      purged := some logId
      entries := l.entries.drop (nextIndex (some logId) - l.first)
      consecutive := l.consecutive.drop_sub (Or.inl h.2) }
  else none

def state : LogState L := ⟨l.purged, (l.entries.getLast?.map Entry.logId).or l.purged⟩

/-- The entries of a range of indices. -/
def read (range : BTreeMap.Range UInt64) : Option (List (Entry L P)) :=
  if range.isOrdered then some (l.entries.filter fun e => range.contains e.index) else none

end RaftLog

/-- The log, driven by the same calls as the store. -/
def raftLog [LT L] [DecidableLT L] [DecidableEq L] : Machine (RaftLog L P V) (LogCall L P V) where
  step l
    | .append entries => l.append entries
    | .truncateAfter lastLogId => l.truncateAfter lastLogId
    | .purge logId => l.purge logId
    | .saveCommitted committed => some { l with committed := committed }
    | .saveVote vote => some { l with vote := some vote }

/-! ## The store keeps the log -/

/-- The store holds exactly the entries of the log, each under its own index. -/
structure Represents (s : LogStoreInner L P V) (l : RaftLog L P V) : Prop where
  purged : s.lastPurgedLogId = l.purged
  entries : s.log.toList = l.entries.map fun e => (e.index, e)
  committed : s.committed = l.committed
  vote : s.vote = l.vote

lemma compare_index_lt {a b : UInt64} : compare a b = .lt ↔ a.toNat < b.toNat := by
  rw [Std.compare_eq_lt, UInt64.lt_iff_toNat_lt]

lemma isLE_compare_index {a b : UInt64} : (compare a b).isLE = true ↔ a.toNat ≤ b.toNat := by
  rw [Std.isLE_compare, UInt64.le_iff_toNat_le]

/-- Filtering the entries of the store by a condition on the index. -/
lemma filter_index_map {p : UInt64 → Bool} {q : ℕ → Bool} (h : ∀ k, p k = q k.toNat)
    (entries : List (Entry L P)) :
    (entries.map fun e => (e.index, e)).filter (fun e => p e.1)
      = (entries.filter fun e => q e.position).map fun e => (e.index, e) := by
  rw [List.filter_map]
  congr 1
  refine List.filter_congr fun e _ => ?_
  exact h e.index

/-- One entry is written at its place. -/
lemma toList_insert_entry {log : BTreeMap UInt64 (Entry L P)} {entries : List (Entry L P)}
    {first n : ℕ} (hlog : log.toList = entries.map fun e => (e.index, e))
    (hentries : Consecutive.From Entry.position first entries) {e : Entry L P}
    (he : e.position = first + n) :
    (log.insert e.index e).toList
      = (Consecutive.splice entries n [e]).map fun e => (e.index, e) := by
  have hbefore := filter_index_map (p := fun k => compare k e.index == .lt)
    (q := fun k => k < first + n) (fun k => by
      rw [Bool.eq_iff_iff, beq_iff_eq, compare_index_lt, decide_eq_true_iff, ← he]
      rfl) entries
  have hbehind := filter_index_map (p := fun k => compare e.index k == .lt)
    (q := fun k => first + n + 1 ≤ k) (fun k => by
      rw [Bool.eq_iff_iff, beq_iff_eq, compare_index_lt, decide_eq_true_iff, ← he]
      rfl) entries
  rw [hentries.filter_lt, Nat.add_sub_cancel_left] at hbefore
  rw [hentries.filter_le, Nat.add_assoc, Nat.add_sub_cancel_left] at hbehind
  rw [BTreeMap.toList_insert, hlog, hbefore, hbehind, Consecutive.splice]
  simp

lemma toList_append {log : BTreeMap UInt64 (Entry L P)} {entries new : List (Entry L P)}
    {first n : ℕ} (hlog : log.toList = entries.map fun e => (e.index, e))
    (hentries : Consecutive.From Entry.position first entries) (hn : n ≤ entries.length)
    (hnew : Consecutive.From Entry.position (first + n) new) :
    (new.foldl (fun log entry => log.insert entry.index entry) log).toList
      = (Consecutive.splice entries n new).map fun e => (e.index, e) := by
  induction new generalizing log entries n with
  | nil => simpa using hlog
  | cons e new ih =>
      have hone : Consecutive.From Entry.position (first + n) [e] := ⟨hnew.1, trivial⟩
      rw [List.foldl_cons, Consecutive.splice_cons hn]
      exact ih (toList_insert_entry hlog hentries hnew.1) (hentries.splice hn hone)
        (Consecutive.length_splice_singleton hn e) hnew.2

lemma removeRange_eq (s : LogStoreInner L P V) {range : BTreeMap.Range UInt64}
    (h : range.isOrdered = true) : s.removeRange range = some { s with
      log := BTreeMap.removeAll s.log
        ((s.log.toList.filter fun e => range.contains e.1).map Prod.fst) } := by
  rw [LogStoreInner.removeRange, BTreeMap.range, if_pos h]
  rfl

/-- Removing a range of indices, where `q` says which numbers stay. -/
lemma toList_removeRange {log : BTreeMap UInt64 (Entry L P)} {entries : List (Entry L P)}
    (hlog : log.toList = entries.map fun e => (e.index, e)) {range : BTreeMap.Range UInt64}
    {q : ℕ → Bool} (hq : ∀ k, (!range.contains k) = q k.toNat) :
    (BTreeMap.removeAll log
        ((log.toList.filter fun e => range.contains e.1).map Prod.fst)).toList
      = (entries.filter fun e => q e.position).map fun e => (e.index, e) := by
  rw [BTreeMap.toList_removeAll, hlog]
  exact filter_index_map hq entries

section Steps

variable {s : LogStoreInner L P V} {l l' : RaftLog L P V}

lemma represents_append (h : Represents s l) {entries : List (Entry L P)}
    (hl : l.append entries = some l') : Represents (s.append entries) l' := by
  unfold RaftLog.append at hl
  split at hl
  · next hfits =>
      cases hl
      exact ⟨h.purged, toList_append h.entries l.consecutive hfits.1 hfits.2, h.committed, h.vote⟩
  · cases hl

lemma toNat_startIndex {lastLogId : Option (LogId L)} (h : nextIndex lastLogId < 2 ^ 64) :
    (LogStoreInner.startIndex lastLogId).toNat = nextIndex lastLogId := by
  cases lastLogId with
  | none => rfl
  | some id =>
      have hid : id.index.toNat + 1 < 2 ^ 64 := h
      simp only [LogStoreInner.startIndex, nextIndex, UInt64.toNat_add, UInt64.toNat_one]
      exact Nat.mod_eq_of_lt hid

lemma represents_truncateAfter (h : Represents s l) {lastLogId : Option (LogId L)}
    (hl : l.truncateAfter lastLogId = some l') :
    ∃ s', s.truncateAfter lastLogId = some s' ∧ Represents s' l' := by
  unfold RaftLog.truncateAfter at hl
  split at hl
  · next hbound =>
      cases hl
      refine ⟨_, removeRange_eq s rfl, h.purged, ?_, h.committed, h.vote⟩
      refine (toList_removeRange h.entries (q := fun k => k < nextIndex lastLogId) ?_).trans ?_
      · intro k
        rw [Bool.eq_iff_iff, Bool.not_eq_true', decide_eq_true_iff, ← toNat_startIndex hbound,
          ← not_le, ← isLE_compare_index]
        simp [BTreeMap.Range.contains, BTreeMap.Bound.admitsAbove, BTreeMap.Bound.admitsBelow]
      · rw [l.consecutive.filter_lt]
        rfl
  · cases hl

variable [LT L] [DecidableLT L] [DecidableEq L]

lemma represents_purge (h : Represents s l) {logId : LogId L} (hl : l.purge logId = some l') :
    ∃ s', s.purge logId = some s' ∧ Represents s' l' := by
  unfold RaftLog.purge at hl
  split at hl
  · next hle =>
      cases hl
      refine ⟨_, (if_pos (h.purged ▸ hle.1)).trans (removeRange_eq _ rfl), rfl, ?_, h.committed,
        h.vote⟩
      refine (toList_removeRange h.entries (q := fun k => logId.index.toNat + 1 ≤ k) ?_).trans ?_
      · intro k
        rw [Bool.eq_iff_iff, Bool.not_eq_true', decide_eq_true_iff, Nat.succ_le_iff, ← not_le,
          ← isLE_compare_index]
        simp [BTreeMap.Range.contains, BTreeMap.Bound.admitsAbove, BTreeMap.Bound.admitsBelow]
      · rw [l.consecutive.filter_le]
        rfl
  · cases hl

/-- **One call.**  What the log can do, the store does. -/
lemma represents_step {call : LogCall L P V} (h : Represents s l)
    (hl : raftLog.step l call = some l') :
    ∃ s', logStore.step s call = some s' ∧ Represents s' l' := by
  cases call with
  | append entries => exact ⟨_, rfl, represents_append h hl⟩
  | truncateAfter lastLogId => exact represents_truncateAfter h hl
  | purge logId => exact represents_purge h hl
  | saveCommitted committed =>
      cases hl
      exact ⟨_, rfl, h.purged, h.entries, rfl, h.vote⟩
  | saveVote vote =>
      cases hl
      exact ⟨_, rfl, h.purged, h.entries, h.committed, rfl⟩

end Steps

/-! ## What the store answers -/

lemma Represents.getLogState {s : LogStoreInner L P V} {l : RaftLog L P V}
    (h : Represents s l) : s.getLogState = l.state := by
  have hlast : s.log.nextBack.map (fun e => e.2.logId) = l.entries.getLast?.map Entry.logId := by
    rw [BTreeMap.nextBack, h.entries, List.getLast?_map, Option.map_map]
    rfl
  rw [LogStoreInner.getLogState, RaftLog.state, hlast, h.purged]
  cases l.entries.getLast?.map Entry.logId <;> rfl

lemma Represents.tryGetLogEntries {s : LogStoreInner L P V} {l : RaftLog L P V}
    (h : Represents s l) (range : BTreeMap.Range UInt64) :
    s.tryGetLogEntries range = l.read range := by
  rw [LogStoreInner.tryGetLogEntries, BTreeMap.range, RaftLog.read, h.entries]
  split_ifs
  · rw [Option.map_some, List.filter_map, List.map_map]
    simp [Function.comp_def]
  · rfl

/-- The entries of a half-open range of indices. -/
def RaftLog.between (l : RaftLog L P V) (lo hi : ℕ) : List (Entry L P) :=
  (l.entries.take (hi - l.first)).drop (lo - l.first)

/-- A half-open range is a piece of the log. -/
lemma RaftLog.read_eq_between (l : RaftLog L P V) {lo hi : UInt64} (h : lo ≤ hi) :
    l.read ⟨.included lo, .excluded hi⟩ = some (l.between lo.toNat hi.toNat) := by
  have hordered : BTreeMap.Range.isOrdered ⟨.included lo, .excluded hi⟩ = true :=
    Std.isLE_compare.mpr h
  have hlt := l.consecutive.filter_lt hi.toNat
  have hle := (l.consecutive.take (hi.toNat - nextIndex l.purged)).filter_le lo.toNat
  rw [RaftLog.read, if_pos hordered, RaftLog.between, RaftLog.first, ← hle, ← hlt,
    List.filter_filter]
  congr 1
  refine List.filter_congr fun e _ => ?_
  rw [Bool.eq_iff_iff]
  simp only [BTreeMap.Range.contains, BTreeMap.Bound.admitsAbove, BTreeMap.Bound.admitsBelow,
    Bool.and_eq_true, isLE_compare_index, beq_iff_eq, compare_index_lt, decide_eq_true_eq]
  exact Iff.rfl

/-- It has the indices of the range that are in the log, one entry each and in order. -/
lemma RaftLog.consecutive_between (l : RaftLog L P V) (lo hi : ℕ) :
    Consecutive.From Entry.position (max lo l.first) (l.between lo hi) ∧
      (l.between lo hi).length = min hi l.next - max lo l.first := by
  constructor
  · have hmax : max lo l.first = nextIndex l.purged + (lo - l.first) := by
      rw [RaftLog.first]
      omega
    rw [hmax]
    exact (l.consecutive.take (hi - l.first)).drop (lo - l.first)
  · rw [RaftLog.between, List.length_drop, List.length_take, RaftLog.next]
    omega

/-- **The store refines the log.**  Whatever calls a log whose front is purged goes through, from
the empty one, the store goes through them without a panic; then its state, the entries it reads
for every range, its commit id and its vote are those of the log.  In particular a half-open range
of indices is answered without a hole. -/
theorem logStore_refines_raftLog [LT L] [DecidableLT L] [DecidableEq L]
    (calls : List (LogCall L P V)) (l : RaftLog L P V) (hrun : raftLog.run {} calls = some l) :
    ∃ s : LogStoreInner L P V, logStore.run {} calls = some s ∧
      s.getLogState = l.state ∧
      (∀ range, s.tryGetLogEntries range = l.read range) ∧
      (∀ lo hi : UInt64, lo ≤ hi →
        ∃ entries, s.tryGetLogEntries ⟨.included lo, .excluded hi⟩ = some entries ∧
          Consecutive.From Entry.position (max lo.toNat l.first) entries ∧
          entries.length = min hi.toNat l.next - max lo.toNat l.first) ∧
      s.readCommitted = l.committed ∧ s.readVote = l.vote := by
  have hinit : Represents ({} : LogStoreInner L P V) {} := by
    refine ⟨rfl, ?_, rfl, rfl⟩
    exact Std.ExtTreeMap.toList_eq_nil_iff.mpr rfl
  obtain ⟨s, hs, h⟩ := Machine.simulation (N := logStore) (R := fun l s => Represents s l)
    (f := id) (C := fun _ => True) (fun l call l' s hR _ hstep => represents_step hR hstep)
    hinit (fun _ _ => trivial) hrun
  rw [List.map_id] at hs
  refine ⟨s, hs, h.getLogState, h.tryGetLogEntries, ?_, h.committed, h.vote⟩
  intro lo hi hle
  refine ⟨l.between lo.toNat hi.toNat, ?_, l.consecutive_between lo.toNat hi.toNat⟩
  rw [h.tryGetLogEntries, l.read_eq_between hle]

/-- Four entries are appended, the second is purged up to, and the last one is replaced by an entry
of a later leader. -/
def sampleCalls : List (LogCall ℕ String ℕ) :=
  [.saveVote 1, .append [⟨⟨1, 0⟩, "a"⟩, ⟨⟨1, 1⟩, "b"⟩, ⟨⟨1, 2⟩, "c"⟩, ⟨⟨1, 3⟩, "d"⟩],
    .saveCommitted (some ⟨1, 2⟩), .purge ⟨1, 1⟩, .truncateAfter (some ⟨1, 2⟩),
    .append [⟨⟨2, 3⟩, "e"⟩]]

theorem logStore_refines_raftLog_sample :
    ∃ s : LogStoreInner ℕ String ℕ, logStore.run {} sampleCalls = some s ∧
      s.getLogState = ⟨some ⟨1, 1⟩, some ⟨2, 3⟩⟩ ∧
      s.tryGetLogEntries ⟨.included 0, .excluded 9⟩
        = some [⟨⟨1, 2⟩, "c"⟩, ⟨⟨2, 3⟩, "e"⟩] := by
  have hend : (raftLog.run {} sampleCalls).map (fun l => (l.state, l.entries))
      = some (⟨some ⟨1, 1⟩, some ⟨2, 3⟩⟩, [⟨⟨1, 2⟩, "c"⟩, ⟨⟨2, 3⟩, "e"⟩]) := by
    decide +kernel
  obtain ⟨l, hrun, hl⟩ := Option.map_eq_some_iff.mp hend
  obtain ⟨hstate, hentries⟩ := Prod.mk.inj hl
  obtain ⟨s, hs, hanswer, hread, -⟩ := logStore_refines_raftLog sampleCalls l hrun
  refine ⟨s, hs, hanswer.trans hstate, ?_⟩
  rw [hread, RaftLog.read, hentries]
  decide +kernel

end RaftBench.OpenRaft

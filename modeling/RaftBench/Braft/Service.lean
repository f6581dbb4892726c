import RaftBench.Lib.Linearizability
import RaftBench.Lib.Update
import RaftBench.Braft.Registers
import RaftBench.Braft.Snapshot

/-!
# The atomic service is linearizable

A group of `Atomic` servers as its clients see it.  A request arrives at any server; a leader hands
it to raft and keeps the closure, everybody else redirects.  Of raft only its promise is modelled:
there is one log, it only grows, a task gets into it at most once, every server applies it in order,
and a closure is run at most once, with or without success.  Which tasks get in and when, who is
leader when, when closures are given up although their entry is committed later, when a server takes
a snapshot, loads one or restarts: all of that is free.

`service_linearizable` says that the answers are those of a family of registers, in the order of the
log, and that this order respects real time.
-/

namespace RaftBench.Braft

open Linearizability

/-! ## The machine -/

structure Server where
  atomic : Atomic := {}
  /-- how many entries of the log are in the map -/
  applied : ℕ := 0

/-- An `AtomicClosure`, the server that holds it and the call it answers. -/
structure Pending where
  server : ℕ
  call : ℕ
  closure : AtomicClosure
  deriving DecidableEq, Repr

/-- A finished snapshot: how much of the log it covers, and its data file. -/
structure SnapshotFile where
  index : ℕ
  data : List Char
  deriving DecidableEq, Repr

structure Service (pb : Protobuf) where
  servers : List Server
  /-- the tasks handed to raft, each with its call -/
  proposed : List (ℕ × LogEntry pb) := []
  log : List (ℕ × LogEntry pb) := []
  pending : List Pending := []
  /-- the closures `on_apply` is done with, which run asynchronously -/
  applied : List Pending := []
  files : List SnapshotFile := []
  calls : ℕ := 0
  history : List (Action ℕ Message AtomicResponse) := []
  /-- the calls that were answered at the door -/
  redirected : List (ℕ × AtomicResponse) := []
  /-- the calls whose task raft has given up -/
  failed : List (ℕ × AtomicResponse) := []
  /-- the `CHECK`s that have failed anywhere -/
  checks : List CheckFailure := []

inductive ServiceEvent where
  | request (k : ℕ) (message : Message)
  | commit (i : ℕ)
  | apply (k n : ℕ)
  /-- `AtomicClosure::Run` with an ok status -/
  | finish (i : ℕ)
  /-- `AtomicClosure::Run` with an error -/
  | fail (i : ℕ)
  | onLeaderStart (k : ℕ) (term : Int64)
  | onLeaderStop (k : ℕ)
  /-- the node learns of a leader, or of the loss of one -/
  | follow (k : ℕ) (leader : Option String)
  | snapshotSave (k : ℕ) (values : List (Int64 × Int64))
  | snapshotLoad (k i : ℕ)
  | restart (k : ℕ)
  deriving DecidableEq, Repr

namespace Service

variable {pb : Protobuf} (w : Service pb)

def init (count : ℕ) : Service pb := { servers := List.replicate count {} }

/-- The order in which the calls take effect. -/
def order : List (ℕ × Message) := w.log.map fun entry => (entry.1, entry.2.request)

/-- `iter.done()` on server `k`. -/
def closureOf (k call : ℕ) : Option AtomicClosure :=
  (w.pending.find? fun p => p.server = k ∧ p.call = call).map Pending.closure

/-- An entry as the iterator on server `k` presents it. -/
def entryOn (k : ℕ) (entry : ℕ × LogEntry pb) : Entry :=
  ⟨entry.2.data, w.closureOf k entry.1⟩

/-- The closures of a batch, with the responses filled in. -/
def answer (k : ℕ) (batch : List (ℕ × LogEntry pb)) (responses : List AtomicResponse) :
    List Pending :=
  (batch.zip responses).filterMap fun item =>
    (w.closureOf k item.1.1).map fun closure =>
      ⟨k, item.1.1, { closure with response := item.2 }⟩

def setServer (k : ℕ) (s : Server) : Service pb := { w with servers := w.servers.set k s }

/-- A request at server `k`. -/
def request (checkTerm : Bool) (k : ℕ) (s : Server) (message : Message) : Service pb :=
  let begun : Service pb := { w with
    calls := w.calls + 1, history := w.history ++ [.invoke w.calls message] }
  match h : s.atomic.apply pb checkTerm message {} with
  | .answered response => { begun with redirected := w.redirected ++ [(w.calls, response)] }
  | .task task => { begun with
      proposed := w.proposed ++ [(w.calls, ⟨message, task.data, (apply_task_encoded h).1⟩)]
      pending := w.pending ++ [⟨k, w.calls, task.done⟩] }

/-- `on_apply` on server `k`, with the next `n` entries. -/
def onApply (k : ℕ) (s : Server) (n : ℕ) : Service pb :=
  let batch := (w.log.drop s.applied).take n
  match Braft.onApply pb s.atomic.valueMap (batch.map (w.entryOn k)) with
  | .error e => { w with checks := w.checks ++ [e] }
  | .ok (map, responses) =>
      { w.setServer k ⟨{ s.atomic with valueMap := map }, s.applied + batch.length⟩ with
        pending := w.pending.filter fun p => ¬ (p.server = k ∧ p.call ∈ batch.map Prod.fst)
        applied := w.applied ++ w.answer k batch responses }

/-- `on_snapshot_load` on server `k`. -/
def snapshotLoad (k : ℕ) (s : Server) (file : SnapshotFile) : Service pb :=
  match s.atomic.onSnapshotLoad (some file.data) with
  | .error e => { w with checks := w.checks ++ [e] }
  | .ok (_, atomic) => w.setServer k ⟨atomic, file.index⟩

end Service

def service (pb : Protobuf) (checkTerm : Bool) : Machine (Service pb) ServiceEvent where
  step w
    | .request k message => w.servers[k]?.map fun s => w.request checkTerm k s message
    | .commit i =>
        w.proposed[i]?.bind fun entry =>
          if entry.1 ∈ w.log.map Prod.fst then none
          else some { w with log := w.log ++ [entry] }
    | .apply k n => w.servers[k]?.map fun s => w.onApply k s n
    | .finish i =>
        w.applied[i]?.bind fun p => w.servers[p.server]?.map fun s => { w with
          applied := w.applied.eraseIdx i
          history := w.history ++ [.respond p.call (p.closure.run s.atomic true)] }
    | .fail i =>
        w.pending[i]?.bind fun p => w.servers[p.server]?.map fun s => { w with
          pending := w.pending.eraseIdx i
          failed := w.failed ++ [(p.call, p.closure.run s.atomic false)] }
    | .onLeaderStart k term => w.servers[k]?.map fun s =>
        w.setServer k { s with atomic := { s.atomic with leaderTerm := term } }
    | .onLeaderStop k => w.servers[k]?.map fun s =>
        w.setServer k { s with atomic := { s.atomic with leaderTerm := -1 } }
    | .follow k leader => w.servers[k]?.map fun s =>
        w.setServer k { s with atomic := { s.atomic with leaderId := leader } }
    | .snapshotSave k values =>
        w.servers[k]?.bind fun s =>
          if Enumerates values s.atomic.valueMap then
            some { w with files := w.files ++ [⟨s.applied, saveSnapshot ⟨values⟩⟩] }
          else none
    | .snapshotLoad k i =>
        -- raft does not load a snapshot on a leader
        w.servers[k]?.bind fun s => w.files[i]?.bind fun file =>
          if s.atomic.leaderTerm = -1 then some (w.snapshotLoad k s file) else none
    | .restart k => w.servers[k]?.map fun _ => { w.setServer k {} with
        pending := w.pending.filter fun p => p.server ≠ k
        applied := w.applied.filter fun p => p.server ≠ k }

/-! ## The registers -/

/-- The sequential object: a register for every id, all of them `0` at first. -/
def registers : SeqObject (Int64 → Int64) Message AtomicResponse where
  init := fun _ => 0
  act f m := (Function.update f m.id (registerAct (f m.id) m).1, (registerAct (f m.id) m).2)

lemma registers_after (ms : List Message) : registers.after ms = valueOf (replay ∅ ms).1 := by
  induction ms using List.reverseRecOn with
  | nil =>
      funext id
      simp [SeqObject.after, registers, replay, valueOf]
  | append_singleton ms m ih =>
      have hreplay : (replay ∅ (ms ++ [m])).1 = (execute (replay ∅ ms).1 m).1 := by
        rw [replay_append]
        rfl
      rw [hreplay, valueOf_execute, registers.after_concat, ih]
      rfl

lemma replay_getElem? (map : ValueMap) (ms : List Message) (i : ℕ) :
    (replay map ms).2[i]? = ms[i]?.map fun m => (execute (replay map (ms.take i)).1 m).2 := by
  induction ms generalizing map i with
  | nil => simp [replay]
  | cons m ms ih =>
      cases i with
      | zero => rfl
      | succ i => exact ih (execute map m).1 i

/-- **Replaying the log answers as the registers do.** -/
lemma registers_answer (ms : List Message) (i : ℕ) :
    registers.answer ms i = (replay ∅ ms).2[i]? := by
  rw [replay_getElem?, SeqObject.answer]
  refine Option.map_congr fun m _ => ?_
  rw [registers_after, execute_response]
  rfl

/-! ## The invariant -/

namespace Service

variable {pb : Protobuf} {w : Service pb}

def requests (w : Service pb) : List Message := w.log.map fun entry => entry.2.request

lemma order_fst : w.order.map Prod.fst = w.log.map Prod.fst := by
  rw [order, List.map_map]
  rfl

lemma order_snd : w.order.map Prod.snd = w.requests := by
  rw [order, List.map_map]
  rfl

/-- A map that the first `n` entries of the log leave behind. -/
def Reaches (w : Service pb) (n : ℕ) (map : ValueMap) : Prop :=
  n ≤ w.log.length ∧ map = (replay ∅ (w.requests.take n)).1

/-- A call that stands in the log, with the answer of its place. -/
def Answers (w : Service pb) (call : ℕ) (response : AtomicResponse) : Prop :=
  ∃ i, (w.log.map Prod.fst)[i]? = some call ∧ registers.answer w.requests i = some response

structure Inv (w : Service pb) : Prop where
  below : ∀ entry ∈ w.proposed, entry.1 < w.calls
  begun : ∀ entry ∈ w.proposed, .invoke entry.1 entry.2.request ∈ w.history
  logged : ∀ entry ∈ w.log, entry ∈ w.proposed
  held : ∀ p ∈ w.pending, p.call < w.calls
  closures : ∀ p ∈ w.pending, ∀ entry ∈ w.proposed, entry.1 = p.call →
    p.closure = ⟨entry.2.request, {}⟩
  linearizes : Linearizes registers w.order w.history
  applied : ∀ p ∈ w.applied, w.Answers p.call p.closure.response
  servers : ∀ s ∈ w.servers, w.Reaches s.applied s.atomic.valueMap
  files : ∀ f ∈ w.files, w.Reaches f.index (loadPairs f.data ∅)
  checks : w.checks = []
  away : ∀ a ∈ w.redirected, a.1 < w.calls ∧ a.1 ∉ w.proposed.map Prod.fst
  blank : ∀ p ∈ w.pending, p.closure.response = {}
  refused : ∀ a ∈ w.redirected ++ w.failed, a.2.success = false ∧ a.2.oldValue = none

lemma reaches_zero (w : Service pb) : w.Reaches 0 ∅ := ⟨Nat.zero_le _, rfl⟩

lemma inv_init (count : ℕ) : Inv (init count : Service pb) where
  below := by simp [init]
  begun := by simp [init]
  logged := by simp [init]
  held := by simp [init]
  closures := by simp [init]
  linearizes := Linearizes.nil
  applied := by simp [init]
  servers s hs := by
    rw [List.eq_of_mem_replicate hs]
    exact reaches_zero _
  files := by simp [init]
  checks := rfl
  away := by simp [init]
  blank := by simp [init]
  refused := by simp [init]

/-! ## Steps -/

lemma Inv.setServer (h : Inv w) (k : ℕ) {s : Server} (hs : w.Reaches s.applied s.atomic.valueMap) :
    Inv (w.setServer k s) :=
  { h with servers := List.forall_set h.servers hs k }

/-- A redirect says nothing but where to go. -/
lemma redirect_refuses (atomic : Atomic) {response : AtomicResponse}
    (h : response.oldValue = none) :
    (atomic.redirect response).success = false ∧ (atomic.redirect response).oldValue = none := by
  unfold Atomic.redirect
  split <;> exact ⟨rfl, h⟩

lemma refuses_of_answered {checkTerm : Bool} {atomic : Atomic} {message : Message}
    {response : AtomicResponse} (h : atomic.apply pb checkTerm message {} = .answered response) :
    response.success = false ∧ response.oldValue = none := by
  simp only [Atomic.apply] at h
  split_ifs at h
  · cases h
    exact redirect_refuses atomic rfl
  all_goals
    cases hlog : encode pb message with
    | none =>
        simp only [hlog, Submission.answered.injEq] at h
        exact h ▸ ⟨rfl, rfl⟩
    | some log => simp [hlog] at h

/-- A request is redirected, or becomes a task of a new call. -/
lemma Inv.request (h : Inv w) (checkTerm : Bool) (k : ℕ) (s : Server) (message : Message) :
    Inv (w.request checkTerm k s message) := by
  have hnew : w.calls ∉ w.order.map Prod.fst := by
    rw [order_fst]
    intro hmem
    obtain ⟨entry, hentry, hcall⟩ := List.mem_map.mp hmem
    exact absurd (h.below entry (h.logged entry hentry)) (hcall ▸ lt_irrefl _)
  have hinvoke := h.linearizes.invoke message hnew
  unfold Service.request
  split
  · next response hanswered =>
      have hunproposed : w.calls ∉ w.proposed.map Prod.fst := by
        intro hmem
        obtain ⟨entry, hentry, hcall⟩ := List.mem_map.mp hmem
        exact absurd (h.below entry hentry) (hcall ▸ lt_irrefl _)
      refine { h with
        below := fun entry hentry => (h.below entry hentry).trans (Nat.lt_succ_self _)
        begun := fun entry hentry => List.mem_append_left _ (h.begun entry hentry)
        held := fun p hp => (h.held p hp).trans (Nat.lt_succ_self _)
        linearizes := hinvoke
        away := ?_, refused := ?_ }
      · exact List.forall_concat
          (fun a ha => ⟨(h.away a ha).1.trans (Nat.lt_succ_self _), (h.away a ha).2⟩)
          ⟨Nat.lt_succ_self _, hunproposed⟩
      · intro a ha
        rw [List.append_assoc, List.mem_append, List.mem_append] at ha
        rcases ha with ha | ha | ha
        · exact h.refused a (List.mem_append_left _ ha)
        · rw [List.mem_singleton.mp ha]
          exact refuses_of_answered hanswered
        · exact h.refused a (List.mem_append_right _ ha)
  · next task htask =>
      have hdone := (apply_task_encoded htask).2
      refine { h with
        below := ?_, begun := ?_, logged := ?_, held := ?_, closures := ?_, linearizes := hinvoke
        away := ?_, blank := ?_ }
      · exact List.forall_concat
          (fun entry hentry => (h.below entry hentry).trans (Nat.lt_succ_self _))
          (Nat.lt_succ_self _)
      · exact List.forall_concat
          (fun entry hentry => List.mem_append_left _ (h.begun entry hentry)) (by simp)
      · exact fun entry hentry => List.mem_append_left _ (h.logged entry hentry)
      · exact List.forall_concat
          (fun p hp => (h.held p hp).trans (Nat.lt_succ_self _)) (Nat.lt_succ_self _)
      · -- the new call is the only one with its number
        intro p hp entry hentry hcall
        rcases List.mem_append.mp hp with hp | hp <;>
          rcases List.mem_append.mp hentry with hentry | hentry
        · exact h.closures p hp entry hentry hcall
        · rw [List.mem_singleton.mp hentry] at hcall
          exact absurd (h.held p hp) (hcall ▸ lt_irrefl _)
        · rw [List.mem_singleton.mp hp] at hcall
          exact absurd (h.below entry hentry) (hcall ▸ lt_irrefl _)
        · rw [List.mem_singleton.mp hp, List.mem_singleton.mp hentry]
          exact hdone
      · intro a ha
        obtain ⟨hlt, haway⟩ := h.away a ha
        refine ⟨hlt.trans (Nat.lt_succ_self _), ?_⟩
        rw [List.map_append, List.mem_append, not_or]
        refine ⟨haway, fun hmem => ?_⟩
        rw [List.mem_singleton.mp hmem] at hlt
        exact lt_irrefl _ hlt
      · refine List.forall_concat h.blank ?_
        rw [hdone]

/-- What the first entries of the log leave behind, and the answers of their places, do not change
when the log grows. -/
lemma Reaches.commit {n : ℕ} {map : ValueMap} (h : w.Reaches n map) (entry : ℕ × LogEntry pb) :
    Reaches { w with log := w.log ++ [entry] } n map := by
  refine ⟨h.1.trans (by simp), ?_⟩
  have hlen : n ≤ w.requests.length := by
    rw [requests, List.length_map]
    exact h.1
  rw [requests, List.map_append, ← requests, List.take_append_of_le_length hlen]
  exact h.2

lemma Answers.commit {call : ℕ} {response : AtomicResponse} (h : w.Answers call response)
    (entry : ℕ × LogEntry pb) : Answers { w with log := w.log ++ [entry] } call response := by
  obtain ⟨i, hcall, hanswer⟩ := h
  refine ⟨i, ?_, ?_⟩
  · rw [List.map_append, List.getElem?_append_left (List.getElem?_eq_some_iff.mp hcall).1, hcall]
  · rw [requests, List.map_append, ← requests]
    exact registers.answer_append hanswer _

lemma Inv.commit (h : Inv w) {entry : ℕ × LogEntry pb} (hentry : entry ∈ w.proposed)
    (hnew : entry.1 ∉ w.log.map Prod.fst) : Inv { w with log := w.log ++ [entry] } := by
  have hopen : ∀ r, .respond entry.1 r ∉ w.history := by
    intro r hr
    obtain ⟨i, hcall, -⟩ := h.linearizes.answered _ r hr
    rw [order_fst] at hcall
    exact hnew (List.mem_of_getElem? hcall)
  have horder : order { w with log := w.log ++ [entry] }
      = w.order ++ [(entry.1, entry.2.request)] := by
    rw [order, List.map_append]
    rfl
  refine { h with
    logged := List.forall_concat h.logged hentry, linearizes := ?_
    applied := fun p hp => (h.applied p hp).commit entry
    servers := fun s hs => (h.servers s hs).commit entry
    files := fun f hf => (h.files f hf).commit entry }
  rw [horder]
  rw [← order_fst] at hnew
  exact h.linearizes.append hnew (h.begun entry hentry) hopen

/-- Every entry is presented with its own closure or without one. -/
lemma Inv.entryOn (h : Inv w) (k : ℕ) {entry : ℕ × LogEntry pb} (hentry : entry ∈ w.log) :
    ∃ isLocal, w.entryOn k entry = entry.2.entry isLocal := by
  rw [Service.entryOn, closureOf]
  cases hfind : w.pending.find? (fun p => p.server = k ∧ p.call = entry.1) with
  | none => exact ⟨false, rfl⟩
  | some p =>
      have hp : p.server = k ∧ p.call = entry.1 := by simpa using List.find?_some hfind
      have hclosure := h.closures p (List.mem_of_find?_eq_some hfind) entry
        (h.logged entry hentry) hp.2.symm
      exact ⟨true, by simp [LogEntry.entry, hclosure]⟩

/-- `on_apply` on entries that are presented so. -/
lemma onApply_entries {f : ℕ × LogEntry pb → Entry} (map : ValueMap)
    (batch : List (ℕ × LogEntry pb))
    (hf : ∀ entry ∈ batch, ∃ isLocal, f entry = entry.2.entry isLocal) :
    Braft.onApply pb map (batch.map f) = .ok (replay map (batch.map fun entry => entry.2.request)) := by
  induction batch generalizing map with
  | nil => rfl
  | cons entry batch ih =>
      obtain ⟨isLocal, hentry⟩ := hf entry List.mem_cons_self
      have hrest := ih (execute map entry.2.request).1
        fun entry' hentry' => hf entry' (List.mem_cons_of_mem _ hentry')
      rw [List.map_cons, Braft.onApply, hentry, handle_eq_execute]
      simp only [bind, Except.bind, hrest, List.map_cons, replay]
      rfl

lemma map_batch (w : Service pb) (a n : ℕ) :
    (((w.log.drop a).take n).map fun entry => entry.2.request) = (w.requests.drop a).take n := by
  rw [requests, List.map_take, List.map_drop]

/-- The next entries of the log, and what they leave behind. -/
lemma Reaches.apply {a : ℕ} {map : ValueMap} (h : w.Reaches a map) (n : ℕ) :
    w.Reaches (a + ((w.log.drop a).take n).length) (replay map ((w.requests.drop a).take n)).1 := by
  obtain ⟨hle, rfl⟩ := h
  refine ⟨?_, ?_⟩
  · simp only [List.length_take, List.length_drop]
    omega
  · have hend : w.requests.take (a + ((w.log.drop a).take n).length)
        = w.requests.take a ++ (w.requests.drop a).take n := by
      rw [← List.take_add, List.take_eq_take_iff, requests, List.length_map, List.length_take,
        List.length_drop]
      omega
    rw [hend, replay_append]

/-- The answers to the next entries are those of their places in the log. -/
lemma Reaches.answer {a : ℕ} {map : ValueMap} (h : w.Reaches a map) {n j : ℕ}
    {response : AtomicResponse}
    (hj : (replay map ((w.requests.drop a).take n)).2[j]? = some response) :
    registers.answer w.requests (a + j) = some response := by
  obtain ⟨hle, rfl⟩ := h
  have hlength : (replay ∅ (w.requests.take a)).2.length = a := by
    rw [replay_responses_length, List.length_take, requests, List.length_map]
    exact Nat.min_eq_left hle
  have hsplit : w.requests
      = w.requests.take a ++ ((w.requests.drop a).take n ++ (w.requests.drop a).drop n) := by
    rw [List.take_append_drop, List.take_append_drop]
  rw [registers_answer, hsplit, replay_append,
    List.getElem?_append_right (hlength.le.trans (Nat.le_add_right ..)), hlength,
    Nat.add_sub_cancel_left, replay_append,
    List.getElem?_append_left (List.getElem?_eq_some_iff.mp hj).1, hj]

/-- The closures a batch answers get the answers of their places. -/
lemma answers_of_mem_answer {a n : ℕ} {map : ValueMap} (h : w.Reaches a map) {k : ℕ}
    {p : Pending} (hp : p ∈ w.answer k ((w.log.drop a).take n)
      (replay map ((w.requests.drop a).take n)).2) :
    w.Answers p.call p.closure.response := by
  obtain ⟨⟨⟨call, entry⟩, response⟩, hitem, hclosure⟩ := List.mem_filterMap.mp hp
  obtain ⟨closure, -, rfl⟩ := Option.map_eq_some_iff.mp hclosure
  obtain ⟨j, hj⟩ := List.mem_iff_getElem?.mp hitem
  obtain ⟨hentry, hresponse⟩ := List.getElem?_zip_eq_some.mp hj
  have hplace : w.log[a + j]? = some (call, entry) := by
    rw [List.getElem?_take] at hentry
    split_ifs at hentry
    rwa [List.getElem?_drop] at hentry
  refine ⟨a + j, ?_, h.answer hresponse⟩
  rw [List.getElem?_map, hplace]
  rfl

/-- `on_apply` checks nothing that is not so, and answers the closures it finds. -/
lemma Inv.onApply (h : Inv w) (k : ℕ) {s : Server} (hs : s ∈ w.servers) (n : ℕ) :
    Inv (w.onApply k s n) := by
  have hreaches := h.servers s hs
  have hok := onApply_entries s.atomic.valueMap ((w.log.drop s.applied).take n)
    fun entry hentry => h.entryOn k (List.mem_of_mem_drop (List.mem_of_mem_take hentry))
  rw [map_batch] at hok
  simp only [Service.onApply, hok]
  exact { h with
    held := fun p hp => h.held p (List.mem_of_mem_filter hp)
    closures := fun p hp => h.closures p (List.mem_of_mem_filter hp)
    applied := fun p hp => (List.mem_append.mp hp).elim (h.applied p)
      fun hp => answers_of_mem_answer hreaches hp
    servers := List.forall_set h.servers (hreaches.apply n) k
    blank := fun p hp => h.blank p (List.mem_of_mem_filter hp) }

lemma Inv.finish (h : Inv w) {i : ℕ} {p : Pending} (hp : p ∈ w.applied) (atomic : Atomic) :
    Inv { w with
      applied := w.applied.eraseIdx i
      history := w.history ++ [.respond p.call (p.closure.run atomic true)] } := by
  obtain ⟨j, hcall, hanswer⟩ := h.applied p hp
  rw [← order_fst] at hcall
  rw [← order_snd] at hanswer
  exact { h with
    begun := fun entry hentry => List.mem_append_left _ (h.begun entry hentry)
    linearizes := h.linearizes.respond hcall hanswer
    applied := fun p' hp' => h.applied p' (List.mem_of_mem_eraseIdx hp') }

/-- A closure that is given up is redirected, whatever becomes of its entry. -/
lemma Inv.fail (h : Inv w) {i : ℕ} {p : Pending} (hp : p ∈ w.pending) (atomic : Atomic) :
    Inv { w with
      pending := w.pending.eraseIdx i
      failed := w.failed ++ [(p.call, p.closure.run atomic false)] } := by
  refine { h with
    held := fun p hp => h.held p (List.mem_of_mem_eraseIdx hp)
    closures := fun p hp => h.closures p (List.mem_of_mem_eraseIdx hp)
    blank := fun p hp => h.blank p (List.mem_of_mem_eraseIdx hp), refused := ?_ }
  rw [← List.append_assoc]
  refine List.forall_concat h.refused (redirect_refuses atomic ?_)
  rw [h.blank p hp]

lemma Inv.snapshotSave (h : Inv w) {s : Server} (hs : s ∈ w.servers)
    {values : List (Int64 × Int64)} (hvalues : Enumerates values s.atomic.valueMap) :
    Inv { w with files := w.files ++ [⟨s.applied, saveSnapshot ⟨values⟩⟩] } := by
  refine { h with files := List.forall_concat h.files ?_ }
  rw [loadPairs_saveSnapshot hvalues]
  exact h.servers s hs

lemma Inv.snapshotLoad (h : Inv w) (k : ℕ) {s : Server} (hterm : s.atomic.leaderTerm = -1)
    {file : SnapshotFile} (hfile : file ∈ w.files) : Inv (w.snapshotLoad k s file) := by
  have hload : s.atomic.onSnapshotLoad (some file.data)
      = .ok (0, { s.atomic with valueMap := loadPairs file.data ∅ }) := by
    rw [Atomic.onSnapshotLoad, if_neg (not_not.mpr hterm)]
  rw [Service.snapshotLoad, hload]
  exact h.setServer k (h.files file hfile)

/-- **Every step keeps the invariant.** -/
lemma inv_step {checkTerm : Bool} {w' : Service pb} {e : ServiceEvent} (h : Inv w)
    (hstep : (service pb checkTerm).step w e = some w') : Inv w' := by
  cases e with
  | request k message =>
      obtain ⟨s, -, rfl⟩ := Option.map_eq_some_iff.mp hstep
      exact h.request checkTerm k s message
  | commit i =>
      obtain ⟨entry, hentry, hstep⟩ := Option.bind_eq_some_iff.mp hstep
      split_ifs at hstep with hnew
      cases hstep
      exact h.commit (List.mem_of_getElem? hentry) hnew
  | apply k n =>
      obtain ⟨s, hs, rfl⟩ := Option.map_eq_some_iff.mp hstep
      exact h.onApply k (List.mem_of_getElem? hs) n
  | finish i =>
      obtain ⟨p, hp, hstep⟩ := Option.bind_eq_some_iff.mp hstep
      obtain ⟨s, -, rfl⟩ := Option.map_eq_some_iff.mp hstep
      exact h.finish (List.mem_of_getElem? hp) s.atomic
  | fail i =>
      obtain ⟨p, hp, hstep⟩ := Option.bind_eq_some_iff.mp hstep
      obtain ⟨s, -, rfl⟩ := Option.map_eq_some_iff.mp hstep
      exact h.fail (List.mem_of_getElem? hp) s.atomic
  | onLeaderStart k term =>
      obtain ⟨s, hs, rfl⟩ := Option.map_eq_some_iff.mp hstep
      exact h.setServer k (h.servers s (List.mem_of_getElem? hs))
  | onLeaderStop k =>
      obtain ⟨s, hs, rfl⟩ := Option.map_eq_some_iff.mp hstep
      exact h.setServer k (h.servers s (List.mem_of_getElem? hs))
  | follow k leader =>
      obtain ⟨s, hs, rfl⟩ := Option.map_eq_some_iff.mp hstep
      exact h.setServer k (h.servers s (List.mem_of_getElem? hs))
  | snapshotSave k values =>
      obtain ⟨s, hs, hstep⟩ := Option.bind_eq_some_iff.mp hstep
      split_ifs at hstep with hvalues
      cases hstep
      exact h.snapshotSave (List.mem_of_getElem? hs) hvalues
  | snapshotLoad k i =>
      obtain ⟨s, -, hstep⟩ := Option.bind_eq_some_iff.mp hstep
      obtain ⟨file, hfile, hstep⟩ := Option.bind_eq_some_iff.mp hstep
      split_ifs at hstep with hterm
      cases hstep
      exact h.snapshotLoad k hterm (List.mem_of_getElem? hfile)
  | restart k =>
      obtain ⟨s, -, rfl⟩ := Option.map_eq_some_iff.mp hstep
      exact { h with
        held := fun p hp => h.held p (List.mem_of_mem_filter hp)
        closures := fun p hp => h.closures p (List.mem_of_mem_filter hp)
        applied := fun p hp => h.applied p (List.mem_of_mem_filter hp)
        servers := List.forall_set h.servers (reaches_zero w) k
        blank := fun p hp => h.blank p (List.mem_of_mem_filter hp) }

lemma oldValue_of_answer {ms : List Message} {i : ℕ} {response : AtomicResponse}
    (h : registers.answer ms i = some response) : response.oldValue.isSome := by
  obtain ⟨m, -, rfl⟩ := Option.map_eq_some_iff.mp h
  exact (answers_registerAct _ m).2.1

end Service

open Service in
/-- **The service is linearizable.**  In every run of a group of any size, with any leaders,
requests, commits, given-up closures, snapshots and restarts: the order of the log linearizes the
answered calls over a family of registers that start at `0`; an answered call has an `old_value`.
A call that is refused has none and no success; if it was redirected at the door it never takes
effect.  No `CHECK` fails. -/
theorem service_linearizable (pb : Protobuf) (checkTerm : Bool) (count : ℕ)
    (events : List ServiceEvent) (w : Service pb)
    (hrun : (service pb checkTerm).run (.init count) events = some w) :
    Linearizes registers w.order w.history ∧
      (∀ call response, .respond call response ∈ w.history → response.oldValue.isSome) ∧
      (∀ a ∈ w.redirected ++ w.failed, a.2.success = false ∧ a.2.oldValue = none) ∧
      (∀ a ∈ w.redirected, a.1 ∉ w.order.map Prod.fst) ∧ w.checks = [] := by
  have h : Inv w := Machine.invariant (fun s e s' => inv_step) (inv_init count) hrun
  refine ⟨h.linearizes, ?_, h.refused, ?_, h.checks⟩
  · intro call response hmem
    obtain ⟨i, -, hanswer⟩ := h.linearizes.answered call response hmem
    exact oldValue_of_answer hanswer
  · intro a ha hmem
    rw [order_fst] at hmem
    obtain ⟨entry, hentry, hcall⟩ := List.mem_map.mp hmem
    exact (h.away a ha).2 (List.mem_map.mpr ⟨entry, h.logged entry hentry, hcall⟩)

/-- The `int64`s that are one byte on the wire. -/
def smallByte (x : Int64) : Option UInt8 :=
  if x.toNatClampNeg < 128 ∧ Int64.ofNat x.toNatClampNeg = x then some (.ofNat x.toNatClampNeg) else none

/-- The wire format of a message of such fields: each one behind its tag. -/
def writeFields : ℕ → List Int64 → Option (List UInt8)
  | _, [] => some []
  | n, x :: xs => (smallByte x).bind fun b =>
      (writeFields (n + 1) xs).map fun bytes => .ofNat (8 * n) :: b :: bytes

def readFields : ℕ → List UInt8 → Option (List Int64)
  | _, [] => some []
  | n, tag :: b :: bytes =>
      if tag = .ofNat (8 * n) then (readFields (n + 1) bytes).map (Int64.ofNat b.toNat :: ·)
      else none
  | _, [_] => none

lemma readFields_writeFields {n : ℕ} {xs : List Int64} {bytes : List UInt8}
    (h : writeFields n xs = some bytes) : readFields n bytes = some xs := by
  induction xs generalizing n bytes with
  | nil =>
      cases h
      rfl
  | cons x xs ih =>
      obtain ⟨b, hb, h⟩ := Option.bind_eq_some_iff.mp h
      obtain ⟨rest, hrest, rfl⟩ := Option.map_eq_some_iff.mp h
      rw [smallByte] at hb
      split_ifs at hb with hx
      cases hb
      have hbyte : (UInt8.ofNat x.toNatClampNeg).toNat = x.toNatClampNeg :=
        UInt8.toNat_ofNat_of_lt (hx.1.trans (by decide))
      rw [readFields, if_pos rfl, ih hrest, hbyte, hx.2]
      rfl

/-- A codec from the fields of a message. -/
def fieldCodec {α : Type} (fields : α → List Int64) (build : List Int64 → Option α)
    (h : ∀ m, build (fields m) = some m) : Codec α where
  serialize m := writeFields 1 (fields m)
  parse bytes := (readFields 1 bytes).bind build
  parse_serialize m bytes hbytes := by
    rw [readFields_writeFields hbytes]
    exact h m

def sampleProtobuf : Protobuf where
  get := fieldCodec (fun r => [r.id]) (fun | [id] => some ⟨id⟩ | _ => none) fun _ => rfl
  exchange := fieldCodec (fun r => [r.id, r.value])
    (fun | [id, value] => some ⟨id, value⟩ | _ => none) fun _ => rfl
  compareExchange := fieldCodec (fun r => [r.id, r.expectedValue, r.newValue])
    (fun | [id, expected, new] => some ⟨id, expected, new⟩ | _ => none) fun _ => rfl

/-- The first leader answers one call and gives up another one, whose entry is committed all the
same; the server that asks for a `get` too early is redirected, becomes leader and exchanges the
value. -/
def sampleService : List ServiceEvent :=
  [.onLeaderStart 0 1, .follow 1 (some "n0"), .request 0 (.compareExchange ⟨7, 0, 5⟩),
    .request 1 (.get ⟨7⟩), .request 0 (.compareExchange ⟨7, 5, 6⟩), .fail 1, .commit 0, .commit 1,
    .apply 0 1, .snapshotSave 0 [(7, 5)], .finish 0, .onLeaderStop 0, .onLeaderStart 1 2,
    .request 1 (.exchange ⟨7, 9⟩), .commit 2, .snapshotLoad 0 0, .apply 1 3, .finish 0, .restart 0,
    .apply 0 3]

theorem service_linearizable_sample :
    ∃ w, (service sampleProtobuf true).run (.init 2) sampleService = some w ∧
      w.order.map Prod.fst = [0, 2, 3] ∧ w.redirected.map Prod.fst = [1] ∧
      w.failed.map Prod.fst = [2] ∧
      .respond 3 { success := true, id := some 7, oldValue := some 6, newValue := some 9 }
        ∈ w.history ∧
      Linearizes registers w.order w.history := by
  have hend : ((service sampleProtobuf true).run (.init 2) sampleService).any (fun w =>
      decide (w.order.map Prod.fst = [0, 2, 3]) && decide (w.redirected.map Prod.fst = [1]) &&
      decide (w.failed.map Prod.fst = [2]) &&
      decide (.respond 3 { success := true, id := some 7, oldValue := some 6, newValue := some 9 }
        ∈ w.history)) = true := by
    decide +kernel
  obtain ⟨w, hrun, hw⟩ := (Option.any_eq_true _ _).mp hend
  simp only [Bool.and_eq_true, decide_eq_true_eq] at hw
  obtain ⟨⟨⟨horder, hredirected⟩, hfailed⟩, hhistory⟩ := hw
  refine ⟨w, hrun, horder, hredirected, hfailed, hhistory, ?_⟩
  exact (service_linearizable sampleProtobuf true 2 sampleService w hrun).1

end RaftBench.Braft

import RaftBench.Lib.Cells
import RaftBench.Braft.Replication

/-!
# The atomic server is a family of registers

The three operations reach `_value_map` differently: `get_value` seeks and creates nothing,
`exchange` and `cas` index it, which creates an entry with value `0` even when the comparison
then fails.  None of that is visible.  `register` says what an operation does to one `int64`, and
`replay_eq_family` shows that replaying a log answers exactly as the family of these registers
does, every one of them starting at `0`.

The chain law and the independence of the ids are then facts about families of cells.
-/

namespace RaftBench.Braft

/-! ## One register -/

/-- What an operation does to the value of its id, and what it answers. -/
def registerAct (value : Int64) : Message → Int64 × AtomicResponse
  | .get r => (value, {
      success := true, id := some r.id, oldValue := some value, newValue := some value })
  | .exchange r => (r.value, {
      success := true, id := some r.id, oldValue := some value, newValue := some r.value })
  | .compareExchange r =>
      let value' := if value = r.expectedValue then r.newValue else value
      (value', {
        success := decide (value = r.expectedValue), id := some r.id,
        oldValue := some value, newValue := some value' })

/-- The registers of the server, one for each id. -/
def register : Cell Int64 Int64 Message AtomicResponse where
  key := Message.id
  act := registerAct

/-! ## The map refines the registers -/

/-- **One operation.**  It answers as the register of its id, and the id reads afterwards as that
register's new value. -/
lemma execute_eq_registerAct (map : ValueMap) (m : Message) :
    (valueOf (execute map m).1 m.id, (execute map m).2) = registerAct (valueOf map m.id) m := by
  cases m with
  | get r => rfl
  | exchange r =>
      show (valueOf ((index map r.id).insert r.id r.value) r.id, _) = _
      rw [valueOf_insert_self]
      simp only [execute, exchangeOn, valueOf_index, registerAct, Message.id]
  | compareExchange r =>
      simp only [execute, Message.id, registerAct]
      rw [casOn_response, valueOf_casOn]
      rfl

lemma execute_response (map : ValueMap) (m : Message) :
    (execute map m).2 = (registerAct (valueOf map m.id) m).2 :=
  congrArg Prod.snd (execute_eq_registerAct map m)

/-- What every id reads as after an operation: the register of its own id has moved. -/
lemma valueOf_execute (map : ValueMap) (m : Message) :
    valueOf (execute map m).1
      = Function.update (valueOf map) m.id (registerAct (valueOf map m.id) m).1 := by
  funext id
  by_cases h : id = m.id
  · subst h
    rw [Function.update_self, ← execute_eq_registerAct]
  · rw [Function.update_of_ne h, valueOf_execute_of_ne map m h]

/-- **A whole log.**  The answers are those of the family of registers, and so is what every id
reads as in the end; which entries the map holds plays no part. -/
theorem replay_eq_family (map : ValueMap) (ms : List Message) :
    (valueOf (replay map ms).1, (replay map ms).2) = register.family (valueOf map) ms := by
  induction ms generalizing map with
  | nil => rfl
  | cons m ms ih =>
      have hrest := ih (execute map m).1
      rw [valueOf_execute] at hrest
      simp only [replay, Cell.family, register, execute_response] at hrest ⊢
      rw [← hrest]

/-! ## What an answer says about its request -/

/-- The response carries the id and the value found; the value left follows from the request. -/
def Answers (m : Message) (r : AtomicResponse) : Prop :=
  r.id = some m.id ∧ r.oldValue.isSome ∧
    match m with
    | .get _ => r.newValue = r.oldValue
    | .exchange q => r.newValue = some q.value
    | .compareExchange q =>
        (r.success = true ↔ r.oldValue = some q.expectedValue) ∧
          r.newValue = if r.success then some q.newValue else r.oldValue

lemma answers_registerAct (value : Int64) (m : Message) : Answers m (registerAct value m).2 := by
  cases m with
  | get r => exact ⟨rfl, rfl, rfl⟩
  | exchange r => exact ⟨rfl, rfl, rfl⟩
  | compareExchange r =>
      refine ⟨rfl, rfl, ?_, ?_⟩
      · simp only [registerAct, decide_eq_true_eq, Option.some.injEq]
      · simp only [registerAct, decide_eq_true_eq, apply_ite some]

lemma answers_replay (map : ValueMap) (ms : List Message) :
    List.Forall₂ Answers ms (replay map ms).2 := by
  induction ms generalizing map with
  | nil => exact List.Forall₂.nil
  | cons m ms ih =>
      have hanswer : Answers m (execute map m).2 := by
        rw [execute_response]
        exact answers_registerAct (valueOf map m.id) m
      exact List.Forall₂.cons hanswer (ih (execute map m).1)

/-! ## The answers one id gets -/

/-- The responses that carry an id are those of its register, run over its own requests. -/
lemma replay_filter (map : ValueMap) (ms : List Message) (id : Int64) :
    (replay map ms).2.filter (fun r => r.id = some id)
      = (register.run (valueOf map id) (ms.filter fun m => m.id = id)).2 := by
  have hresponses : (replay map ms).2 = (register.family (valueOf map) ms).2 :=
    congrArg Prod.snd (replay_eq_family map ms)
  rw [hresponses]
  exact Cell.family_filter (fun value m => (answers_registerAct value m).1) id (valueOf map) ms

/-- The responses carry the ids of the requests, in the order of the log. -/
lemma replay_ids (map : ValueMap) (ms : List Message) :
    (replay map ms).2.map AtomicResponse.id = ms.map fun m => some m.id := by
  induction ms generalizing map with
  | nil => rfl
  | cons m ms ih =>
      have hid : (execute map m).2.id = some m.id := by
        rw [execute_response]
        exact (answers_registerAct (valueOf map m.id) m).1
      simp only [replay, List.map_cons, hid, ih]

/-- A log with the requests of one id only gets exactly the answers that id got before. -/
lemma replay_of_filter (map : ValueMap) (ms : List Message) (id : Int64) :
    (replay map (ms.filter fun m => m.id = id)).2
      = (replay map ms).2.filter fun r => r.id = some id := by
  -- all the requests left are on this id, so filtering their answers keeps every one of them
  have hown : ∀ r ∈ (replay map (ms.filter fun m => m.id = id)).2, r.id = some id := by
    intro r hr
    have hmem := List.mem_map_of_mem (f := AtomicResponse.id) hr
    rw [replay_ids] at hmem
    obtain ⟨m, hm, hid⟩ := List.mem_map.mp hmem
    rw [← hid, of_decide_eq_true (List.mem_filter.mp hm).2]
  rw [replay_filter, ← List.filter_eq_self.mpr fun r hr => decide_eq_true (hown r hr),
    replay_filter, List.filter_filter]
  simp only [Bool.and_self]

/-- **Independent registers.**  From the empty map, `on_apply` answers every entry, each answer
fits its request, and the answers one id gets form a chain that starts at `0`.  They are the
answers the id gets when every entry on another id is deleted from the log, whichever nodes hold
the closures. -/
theorem onApply_registers (pb : Protobuf) (isLocal : ℕ → Bool) (log : List (LogEntry pb)) :
    ∃ map responses,
      onApply pb ∅ (entriesOn isLocal log) = .ok (map, responses) ∧
      List.Forall₂ Answers (log.map LogEntry.request) responses ∧
      ∀ id : Int64, ∃ own, own = responses.filter (fun r => r.id = some id) ∧
        (∀ r ∈ own.head?, r.oldValue = some 0) ∧
        own.IsChain (fun r s => s.oldValue = r.newValue) ∧
        ∀ isLocal' : ℕ → Bool, ∃ map',
          onApply pb ∅ (entriesOn isLocal' (log.filter fun e => e.request.id = id))
            = .ok (map', own) := by
  have hbefore : ∀ value m, (register.act value m).2.oldValue = some value := by
    intro value m
    cases m <;> rfl
  have hafter : ∀ value m, (register.act value m).2.newValue = some (register.act value m).1 := by
    intro value m
    cases m <;> rfl
  refine ⟨_, _, onApply_eq_replay isLocal ∅ log, answers_replay ∅ _, ?_⟩
  intro id
  refine ⟨_, rfl, ?_, ?_, ?_⟩
  · rw [replay_filter]
    exact Cell.run_head hbefore 0 _
  · rw [replay_filter]
    exact Cell.run_chained hbefore hafter 0 _
  · intro isLocal'
    have hrequests : (log.filter fun e => e.request.id = id).map LogEntry.request
        = (log.map LogEntry.request).filter fun m => m.id = id := by
      rw [List.filter_map]
      rfl
    refine ⟨(replay ∅ ((log.map LogEntry.request).filter fun m => m.id = id)).1, ?_⟩
    rw [onApply_eq_replay, hrequests, ← replay_of_filter]

end RaftBench.Braft

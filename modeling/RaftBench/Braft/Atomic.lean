import Mathlib.Data.Finmap

/-!
# The atomic server's state machine

`braft/server.cpp` keeps a map from `int64` ids to `int64` values and changes it only while
applying committed log entries.  The leader builds an entry from a request (a type byte, then the
protobuf bytes) and remembers the request in a closure; when the entry is committed the node that
holds the closure executes the request from memory, every other node parses the bytes.

* `apply` — what the service methods do before replication: redirect, fail, or hand over a task.
* `getValue`, `exchange`, `cas` — the three operations, each taking the request from the closure
  or from the bytes.
* `onApply` — the loop over a batch of committed entries.
* `execute` — the same three operations as one total function of the message, and `replay` over a
  log of messages.  `Replication.lean` connects them with both ways of obtaining the message.

Protobuf is not part of this repository: `Protobuf` takes the three codecs as a parameter that
carries the one law the code relies on, that parsing a serialization gives the message back.
-/

namespace RaftBench.Braft

/-! ## Messages -/

structure GetRequest where
  id : Int64
  deriving DecidableEq, Repr

structure ExchangeRequest where
  id : Int64
  value : Int64
  deriving DecidableEq, Repr

structure CompareExchangeRequest where
  id : Int64
  expectedValue : Int64
  newValue : Int64
  deriving DecidableEq, Repr

/-- The response message.  `success` is a required field that every server path sets; the others
are optional, and the client tells an executed request from a redirected one by `oldValue`. -/
structure AtomicResponse where
  success : Bool := false
  id : Option Int64 := none
  newValue : Option Int64 := none
  oldValue : Option Int64 := none
  redirect : Option String := none
  deriving DecidableEq, Repr

/-- A request of the atomic service, as the closure holds it. -/
inductive Message where
  | get (request : GetRequest)
  | exchange (request : ExchangeRequest)
  | compareExchange (request : CompareExchangeRequest)
  deriving DecidableEq, Repr

def Message.id : Message → Int64
  | .get r => r.id
  | .exchange r => r.id
  | .compareExchange r => r.id

/-- The downcasts `dynamic_cast` performs on the closure's request. -/
def Message.asGet? : Message → Option GetRequest
  | .get r => some r
  | _ => none

def Message.asExchange? : Message → Option ExchangeRequest
  | .exchange r => some r
  | _ => none

def Message.asCompareExchange? : Message → Option CompareExchangeRequest
  | .compareExchange r => some r
  | _ => none

/-- `AtomicOpType`, with the byte each operation is logged under. -/
inductive AtomicOpType where
  | unknown | get | exchange | cas
  deriving DecidableEq, Repr

def AtomicOpType.toByte : AtomicOpType → UInt8
  | .unknown => 0
  | .get => 1
  | .exchange => 2
  | .cas => 3

/-- The service method a request arrives through passes its own operation type to `apply`. -/
def Message.opType : Message → AtomicOpType
  | .get _ => .get
  | .exchange _ => .exchange
  | .compareExchange _ => .cas

/-- One message type's wire codec. -/
structure Codec (α : Type) where
  serialize : α → Option (List UInt8)
  parse : List UInt8 → Option α
  parse_serialize : ∀ m bytes, serialize m = some bytes → parse bytes = some m

/-- The three request codecs protobuf generates. -/
structure Protobuf where
  get : Codec GetRequest
  exchange : Codec ExchangeRequest
  compareExchange : Codec CompareExchangeRequest

def Protobuf.serialize (pb : Protobuf) : Message → Option (List UInt8)
  | .get r => pb.get.serialize r
  | .exchange r => pb.exchange.serialize r
  | .compareExchange r => pb.compareExchange.serialize r

/-! ## The node -/

/-- `butil::FlatMap<int64_t, int64_t>`: a finite map, whatever its internal layout. -/
abbrev ValueMap := Finmap (fun _ : Int64 => Int64)

/-- The value the operations see for an id: an absent one reads as `0`. -/
def valueOf (map : ValueMap) (id : Int64) : Int64 := (map.lookup id).getD 0

/-- `_value_map[id]` creates the entry with value `0` when the id is absent. -/
def index (map : ValueMap) (id : Int64) : ValueMap :=
  if id ∈ map then map else map.insert id 0

/-- The members of `Atomic` its operations read.  `leaderId` is `none` when the node does not
exist yet or knows no leader. -/
structure Atomic where
  leaderTerm : Int64 := -1
  leaderId : Option String := none
  valueMap : ValueMap := ∅

/-- `AtomicClosure`: the RPC's request and the response object it will be answered with. -/
structure AtomicClosure where
  request : Message
  response : AtomicResponse := {}
  deriving DecidableEq, Repr

/-- `braft::Task`, with the expected term set under `--check_term`. -/
structure Task where
  data : List UInt8
  done : AtomicClosure
  expectedTerm : Option Int64
  deriving DecidableEq, Repr

/-- What `apply` does with a request: answer it on the spot, or hand a task to raft. -/
inductive Submission where
  | answered (response : AtomicResponse)
  | task (task : Task)
  deriving DecidableEq, Repr

def Atomic.redirect (self : Atomic) (response : AtomicResponse) : AtomicResponse :=
  match self.leaderId with
  | some leader => { response with success := false, redirect := some leader }
  | none => { response with success := false }

/-- The log entry of a request: its type byte followed by its protobuf bytes. -/
def encode (pb : Protobuf) (request : Message) : Option (List UInt8) :=
  (pb.serialize request).map fun bytes => request.opType.toByte :: bytes

def Atomic.apply (pb : Protobuf) (checkTerm : Bool) (self : Atomic) (request : Message)
    (response : AtomicResponse) : Submission :=
  let term := self.leaderTerm
  if term < 0 then .answered (self.redirect response)
  else
    match encode pb request with
    | none => .answered { response with success := false }
    | some log =>
        .task ⟨log, ⟨request, response⟩, if checkTerm then some term else none⟩

/-- `AtomicClosure::Run`: a task that raft could not apply is answered with a redirect. -/
def AtomicClosure.run (self : Atomic) (statusOk : Bool) (closure : AtomicClosure) :
    AtomicResponse :=
  if statusOk then closure.response else self.redirect closure.response

/-! ## Applying committed entries -/

/-- The `CHECK`s of the apply path, and the null dereference behind a failed `dynamic_cast`. -/
inductive CheckFailure where
  | unknownType (type : UInt8)
  | parseFailed
  | badCast
  | leaderLoadsSnapshot
  deriving DecidableEq, Repr

/-- Every operation obtains its request the same way: from the closure when this node holds it,
otherwise by parsing the entry's bytes. -/
def requestOf {α : Type} (codec : Codec α) (cast : Message → Option α) (data : List UInt8) :
    Option Message → Except CheckFailure α
  | some request =>
      match cast request with
      | some r => .ok r
      | none => .error .badCast
  | none =>
      match codec.parse data with
      | some r => .ok r
      | none => .error .parseFailed

/-- The effect of `get_value` once its request is known.  It only seeks, so it never creates an
entry. -/
def getValueOn (map : ValueMap) (req : GetRequest) (response : AtomicResponse) :
    ValueMap × AtomicResponse :=
  (map, { response with
    success := true, id := some req.id,
    oldValue := some (valueOf map req.id), newValue := some (valueOf map req.id) })

def exchangeOn (map : ValueMap) (req : ExchangeRequest) (response : AtomicResponse) :
    ValueMap × AtomicResponse :=
  let oldValue := valueOf (index map req.id) req.id
  ((index map req.id).insert req.id req.value, { response with
    success := true, id := some req.id, oldValue := some oldValue, newValue := some req.value })

/-- The effect of `cas` once its request is known.  A mismatch leaves the value alone, but the
entry `_value_map[id]` created is there. -/
def casOn (map : ValueMap) (req : CompareExchangeRequest) (response : AtomicResponse) :
    ValueMap × AtomicResponse :=
  let oldValue := valueOf (index map req.id) req.id
  let response := { response with oldValue := some oldValue, id := some req.id }
  if oldValue ≠ req.expectedValue then
    (index map req.id, { response with success := false, newValue := some oldValue })
  else
    ((index map req.id).insert req.id req.newValue,
      { response with success := true, newValue := some req.newValue })

section Operations

variable (pb : Protobuf) (map : ValueMap) (data : List UInt8) (request : Option Message)
  (response : AtomicResponse)

def getValue : Except CheckFailure (ValueMap × AtomicResponse) := do
  let req ← requestOf pb.get Message.asGet? data request
  pure (getValueOn map req response)

def exchange : Except CheckFailure (ValueMap × AtomicResponse) := do
  let req ← requestOf pb.exchange Message.asExchange? data request
  pure (exchangeOn map req response)

def cas : Except CheckFailure (ValueMap × AtomicResponse) := do
  let req ← requestOf pb.compareExchange Message.asCompareExchange? data request
  pure (casOn map req response)

end Operations

/-- A committed entry as the iterator presents it; `done` is set on the node that proposed it. -/
structure Entry where
  data : List UInt8
  done : Option AtomicClosure
  deriving DecidableEq, Repr

/-- The body of the `on_apply` loop: cut the type byte off, take request and response from the
closure if there is one, and dispatch. -/
def handle (pb : Protobuf) (map : ValueMap) (entry : Entry) :
    Except CheckFailure (ValueMap × AtomicResponse) :=
  let type := entry.data.headD AtomicOpType.unknown.toByte
  let data := entry.data.tail
  let request := entry.done.map AtomicClosure.request
  let response := (entry.done.map AtomicClosure.response).getD {}
  if type = AtomicOpType.get.toByte then getValue pb map data request response
  else if type = AtomicOpType.exchange.toByte then exchange pb map data request response
  else if type = AtomicOpType.cas.toByte then cas pb map data request response
  else .error (.unknownType type)

/-- `on_apply`: the responses are listed in log order. -/
def onApply (pb : Protobuf) : ValueMap → List Entry →
    Except CheckFailure (ValueMap × List AtomicResponse)
  | map, [] => .ok (map, [])
  | map, entry :: entries => do
      let (map', response) ← handle pb map entry
      let (map'', responses) ← onApply pb map' entries
      pure (map'', response :: responses)

/-! ## The operations as one function of the message -/

/-- What applying a message does to the map and what it answers. -/
def execute (map : ValueMap) : Message → ValueMap × AtomicResponse
  | .get r => getValueOn map r {}
  | .exchange r => exchangeOn map r {}
  | .compareExchange r => casOn map r {}

/-- A whole log of messages. -/
def replay : ValueMap → List Message → ValueMap × List AtomicResponse
  | map, [] => (map, [])
  | map, m :: ms =>
      let (map', response) := execute map m
      let (map'', responses) := replay map' ms
      (map'', response :: responses)

lemma replay_append (map : ValueMap) (ms ns : List Message) :
    replay map (ms ++ ns) = ((replay (replay map ms).1 ns).1,
      (replay map ms).2 ++ (replay (replay map ms).1 ns).2) := by
  induction ms generalizing map with
  | nil => rfl
  | cons m ms ih => simp only [List.cons_append, replay, ih]

lemma replay_responses_length (map : ValueMap) (ms : List Message) :
    (replay map ms).2.length = ms.length := by
  induction ms generalizing map with
  | nil => rfl
  | cons m ms ih => simp only [replay, List.length_cons, ih]

/-! ### Reading the map back -/

@[simp] lemma valueOf_insert_self (map : ValueMap) (id v : Int64) :
    valueOf (map.insert id v) id = v := by
  simp [valueOf]

lemma valueOf_insert_of_ne (map : ValueMap) {id id' : Int64} (v : Int64) (h : id' ≠ id) :
    valueOf (map.insert id v) id' = valueOf map id' := by
  rw [valueOf, Finmap.lookup_insert_of_ne _ h, valueOf]

/-- Creating an entry does not change what any id reads as. -/
@[simp] lemma valueOf_index (map : ValueMap) (id id' : Int64) :
    valueOf (index map id) id' = valueOf map id' := by
  unfold index
  split_ifs with h
  · rfl
  · by_cases hid : id' = id
    · subst hid
      rw [valueOf_insert_self, valueOf, Finmap.lookup_eq_none.mpr h, Option.getD_none]
    · exact valueOf_insert_of_ne map 0 hid

/-- An operation touches the value of its own id only. -/
lemma valueOf_execute_of_ne (map : ValueMap) (m : Message) {id : Int64} (h : id ≠ m.id) :
    valueOf (execute map m).1 id = valueOf map id := by
  cases m with
  | get r => rfl
  | exchange r =>
      have hr : id ≠ r.id := h
      show valueOf ((index map r.id).insert r.id r.value) id = valueOf map id
      rw [valueOf_insert_of_ne _ _ hr, valueOf_index]
  | compareExchange r =>
      have hr : id ≠ r.id := h
      simp only [execute, casOn]
      split_ifs
      · exact valueOf_index map r.id id
      · exact (valueOf_insert_of_ne _ _ hr).trans (valueOf_index map r.id id)

/-- `cas` swaps the value in exactly when it finds the expected one. -/
lemma valueOf_casOn (map : ValueMap) (req : CompareExchangeRequest) (response : AtomicResponse) :
    valueOf (casOn map req response).1 req.id
      = if valueOf map req.id = req.expectedValue then req.newValue else valueOf map req.id := by
  simp only [casOn, valueOf_index]
  by_cases h : valueOf map req.id = req.expectedValue
  · rw [if_neg (not_not.mpr h), if_pos h]
    exact valueOf_insert_self _ _ _
  · rw [if_pos h, if_neg h]
    exact valueOf_index map req.id req.id

/-- The response of `cas` reports the value it found and the value it left. -/
lemma casOn_response (map : ValueMap) (req : CompareExchangeRequest) (response : AtomicResponse) :
    (casOn map req response).2 = { response with
      success := decide (valueOf map req.id = req.expectedValue),
      id := some req.id,
      oldValue := some (valueOf map req.id),
      newValue := some (valueOf (casOn map req response).1 req.id) } := by
  rw [valueOf_casOn]
  simp only [casOn, valueOf_index]
  by_cases h : valueOf map req.id = req.expectedValue
  · rw [if_neg (not_not.mpr h), if_pos h, decide_eq_true h]
  · rw [if_pos h, if_neg h, decide_eq_false h]

end RaftBench.Braft

import Mathlib.Algebra.Ring.Nat
import RaftBench.Lib.Json
import RaftBench.Lib.Prog
import RaftBench.Lib.Decimal

/-!
# The requests of the openraft load generator

`do_set` and `do_compare_and_set` of `openraft/loadgen/src/main.rs`, from the tracked leader at the
bottom to the two retry loops at the top, as interactive programs over three operations: one HTTP
attempt against the tracked leader, `rotate`, and `set_leader`.

What the environment decides is the `Outcome` of an attempt.  The bytes of a reply matter only
through what `serde_json` makes of them, so a reply is the parsed value, or `none` where the bytes
are not JSON.
-/

namespace RaftBench.OpenRaft

/-! ## The tracked leader -/

/-- `Cluster`: the peers and the one believed to be the leader. -/
structure Cluster where
  peers : List String
  leader : String
  peers_ne : peers ≠ []

namespace Cluster

variable (c : Cluster)

/-- `Cluster::new`. -/
def new (peers : List String) (h : peers ≠ []) : Cluster := ⟨peers, peers.head h, h⟩

def current : String := c.leader

def setLeader (addr : String) : Cluster := { c with leader := addr }

lemma peers_pos : 0 < c.peers.length := List.length_pos_iff.mpr c.peers_ne

/-- The first position of an address among the peers, or 0. -/
def position (addr : String) : ℕ := (c.peers.findIdx? (· == addr)).getD 0

/-- The peer after an address. -/
def next (addr : String) : String :=
  c.peers.get ⟨(c.position addr + 1) % c.peers.length, Nat.mod_lt _ c.peers_pos⟩

def rotate : Cluster := { c with leader := c.next c.leader }

end Cluster

/-! ## Requests and replies -/

/-- `types_kv::Request`. -/
inductive Request where
  | set (key value : String)
  | compareAndSet (key : String) (expectedVersion : UInt64) (value : String)
  deriving DecidableEq, Repr

/-- The body of a POST: the key of a read or the request of a write. -/
inductive Body where
  | key (key : String)
  | request (req : Request)
  deriving DecidableEq, Repr

/-- What becomes of one HTTP attempt: `send()` fails, reading the body fails, or a body arrives. -/
inductive Outcome where
  | unreachable
  | interrupted
  | replied (parsed : Option Json)

/-- What the requests do to the outside. -/
inductive ClientOp where
  /-- read the tracked leader and POST to it -/
  | attempt (path : String) (body : Body)
  | rotate
  | setLeader (addr : String)

abbrev ClientOp.Ans : ClientOp → Type
  | .attempt _ _ => Outcome
  | .rotate => Unit
  | .setLeader _ => Unit

abbrev Client := Prog ClientOp ClientOp.Ans

def attempt (path : String) (body : Body) : Client Outcome :=
  Prog.perform (ClientOp.attempt path body)

def rotate : Client Unit := Prog.perform ClientOp.rotate

def setLeader (addr : String) : Client Unit := Prog.perform (ClientOp.setLeader addr)

/-- Why a single request brought nothing. -/
inductive SendError where
  | unreachable
  | interrupted
  | unparsable
  | unexpected (envelope : Json)
  | malformed

/-- `send_raw`: an unreachable leader rotates the tracked one. -/
def sendRaw (path : String) (body : Body) : Client (Except SendError (Option Json)) := do
  match ← attempt path body with
  | .unreachable =>
      rotate
      return .error .unreachable
  | .interrupted => return .error .interrupted
  | .replied parsed => return .ok parsed

/-- `send`: the reply as JSON. -/
def send (path : String) (body : Body) : Client (Except SendError Json) := do
  match ← sendRaw path body with
  | .error e => return .error e
  | .ok none => return .error .unparsable
  | .ok (some resp) => return .ok resp

/-- `extract_forward_to_leader`: the address of the new leader, where the reply has one. -/
def extractForwardToLeader (resp : Json) : Option String := do
  let err ← resp.get "Err"
  let forward ← err.get "ForwardToLeader"
  let leaderNode ← forward.get "leader_node"
  let data ← leaderNode.get "data"
  data.asStr

/-- `is_cas_mismatch`: an `Ok` whose `data.value` is null. -/
def isCasMismatch (resp : Json) : Bool :=
  match resp.get "Ok" with
  | some ok =>
      match (ok.get "data").bind (Json.get "value") with
      | some v => v.isNull
      | none => false
  | none => false

/-! ## Reading -/

/-- `types_kv::VersionedValue`. -/
structure VersionedValue where
  value : String
  version : UInt64
  deriving DecidableEq, Repr

/-- The derived `Deserialize` of `VersionedValue`: from an object, or from an array in the order of
the fields. -/
def VersionedValue.fromValue : Json → Option VersionedValue
  | .object fields => do
      let value ← (← fields.lookup "value").asStr
      let version ← (← fields.lookup "version").asU64
      return ⟨value, version⟩
  | .array [value, version] => do return ⟨← value.asStr, ← version.asU64⟩
  | _ => none

/-- The derived `Deserialize` of an optional value: null is `None`. -/
def optionFromValue : Json → Option (Option VersionedValue)
  | .null => some none
  | v => (VersionedValue.fromValue v).map some

/-- The derived `Deserialize` of `types_kv::Response`; a missing optional field is `None`. -/
def responseFromValue : Json → Option (Option VersionedValue)
  | .object fields =>
      match fields.lookup "value" with
      | some v => optionFromValue v
      | none => some none
  | .array [v] => optionFromValue v
  | _ => none

/-- What `read_current` makes of a reply. -/
def readReply (envelope : Json) : Except SendError (Option String × UInt64) :=
  match envelope.get "Ok" with
  | none => .error (.unexpected envelope)
  | some ok =>
      match responseFromValue ok with
      | none => .error .malformed
      | some (some vv) => .ok (some vv.value, vv.version)
      | some none => .ok (none, 0)

/-- `read_current`: the value and the version of a key. -/
def readCurrent (key : String) : Client (Except SendError (Option String × UInt64)) := do
  match ← sendRaw "read" (.key key) with
  | .error e => return .error e
  | .ok none => return .error .unparsable
  | .ok (some envelope) => return readReply envelope

/-! ## The two retry loops -/

/-- The loop of `post_with_forwarding`. -/
def postLoop (path : String) (body : Body) : ℕ → Client (Except String Unit)
  | 0 => return .error (path ++ ": exceeded forwarding retry budget")
  | n + 1 => do
      match ← send path body with
      | .ok resp =>
          match extractForwardToLeader resp with
          | some newLeader =>
              setLeader newLeader
              postLoop path body n
          | none => return .ok ()
      | .error _ => postLoop path body n

/-- `post_with_forwarding`, for a cluster of `peers` peers. -/
def postWithForwarding (peers : ℕ) (path : String) (body : Body) : Client (Except String Unit) :=
  postLoop path body (max (peers * 4) 8)

def doSet (peers : ℕ) (key value : String) : Client (Except String Unit) :=
  postWithForwarding peers "write" (.request (.set key value))

/-- Drop a plus sign. -/
def dropPlus : List Char → List Char
  | '+' :: rest => rest
  | chars => chars

/-- `str::parse::<u64>`: decimal digits, with an optional plus sign, below `2 ^ 64`. -/
def parseU64 (s : String) : Option ℕ :=
  (Decimal.ofDigits (dropPlus s.toList)).filter (· < 2 ^ 64)

/-- The value an increment writes: the successor of a number (a release build wraps around), and
`value` where the key holds none. -/
def nextValue (currentValue value : String) : String :=
  match parseU64 currentValue with
  | some n => String.ofList (Decimal.printNat ((n + 1) % 2 ^ 64))
  | none => value

/-- The loop of `do_compare_and_set`. -/
def compareAndSetLoop (peers : ℕ) (key value : String) : ℕ → Client (Except String Unit)
  | 0 => return .error "compare_and_set: exceeded retry budget"
  | n + 1 => do
      match ← readCurrent key with
      | .error _ => compareAndSetLoop peers key value n
      | .ok (none, _) =>
          let _ ← doSet peers key "0"
          compareAndSetLoop peers key value n
      | .ok (some currentValue, expectedVersion) =>
          let req := .compareAndSet key expectedVersion (nextValue currentValue value)
          match ← send "write" (.request req) with
          | .error _ => compareAndSetLoop peers key value n
          | .ok resp =>
              match extractForwardToLeader resp with
              | some newLeader =>
                  setLeader newLeader
                  compareAndSetLoop peers key value n
              | none =>
                  if isCasMismatch resp then compareAndSetLoop peers key value n
                  else return .ok ()

def doCompareAndSet (peers : ℕ) (key value : String) : Client (Except String Unit) :=
  compareAndSetLoop peers key value (max (peers * 4) 10)

/-! ## One turn of the loops -/

/-- What `post_with_forwarding` does with the outcome of an attempt. -/
def postNext (path : String) (body : Body) (n : ℕ) : Outcome → Client (Except String Unit)
  | .unreachable => .call .rotate fun _ => postLoop path body n
  | .interrupted => postLoop path body n
  | .replied none => postLoop path body n
  | .replied (some resp) =>
      match extractForwardToLeader resp with
      | some newLeader => .call (.setLeader newLeader) fun _ => postLoop path body n
      | none => .ret (.ok ())

lemma postLoop_succ (path : String) (body : Body) (n : ℕ) :
    postLoop path body (n + 1) = .call (.attempt path body) (postNext path body n) := by
  refine congrArg (Prog.call (ClientOp.attempt path body)) (funext fun o => ?_)
  cases o with
  | unreachable => rfl
  | interrupted => rfl
  | replied parsed =>
      cases parsed with
      | none => rfl
      | some resp =>
          simp only [postNext, Prog.pure_eq, Prog.bind]
          cases extractForwardToLeader resp <;> rfl

/-- What `do_compare_and_set` does with the outcome of its write. -/
def casWriteNext (peers : ℕ) (key value : String) (n : ℕ) : Outcome → Client (Except String Unit)
  | .unreachable => .call .rotate fun _ => compareAndSetLoop peers key value n
  | .interrupted => compareAndSetLoop peers key value n
  | .replied none => compareAndSetLoop peers key value n
  | .replied (some resp) =>
      match extractForwardToLeader resp with
      | some newLeader =>
          .call (.setLeader newLeader) fun _ => compareAndSetLoop peers key value n
      | none => if isCasMismatch resp then compareAndSetLoop peers key value n else .ret (.ok ())

/-- What `do_compare_and_set` does with a value it has read. -/
def casReadValue (peers : ℕ) (key value : String) (n : ℕ) :
    Except SendError (Option String × UInt64) → Client (Except String Unit)
  | .error _ => compareAndSetLoop peers key value n
  | .ok (none, _) => doSet peers key "0" >>= fun _ => compareAndSetLoop peers key value n
  | .ok (some currentValue, expectedVersion) =>
      .call (.attempt "write"
          (.request (.compareAndSet key expectedVersion (nextValue currentValue value))))
        (casWriteNext peers key value n)

/-- What `do_compare_and_set` does with the outcome of its read. -/
def casReadNext (peers : ℕ) (key value : String) (n : ℕ) : Outcome → Client (Except String Unit)
  | .unreachable => .call .rotate fun _ => compareAndSetLoop peers key value n
  | .interrupted => compareAndSetLoop peers key value n
  | .replied none => compareAndSetLoop peers key value n
  | .replied (some envelope) => casReadValue peers key value n (readReply envelope)

lemma compareAndSetLoop_succ (peers : ℕ) (key value : String) (n : ℕ) :
    compareAndSetLoop peers key value (n + 1)
      = .call (.attempt "read" (.key key)) (casReadNext peers key value n) := by
  refine congrArg (Prog.call (ClientOp.attempt "read" (.key key))) (funext fun o => ?_)
  cases o with
  | unreachable => rfl
  | interrupted => rfl
  | replied parsed =>
      cases parsed with
      | none => rfl
      | some envelope =>
          simp only [casReadNext, Prog.pure_eq, Prog.bind]
          rcases readReply envelope with e | ⟨currentValue, expectedVersion⟩
          · rfl
          · cases currentValue with
            | none => rfl
            | some currentValue =>
                refine congrArg (Prog.call (ClientOp.attempt "write" _)) (funext fun o => ?_)
                cases o with
                | unreachable => rfl
                | interrupted => rfl
                | replied parsed =>
                    cases parsed with
                    | none => rfl
                    | some resp =>
                        simp only [casWriteNext, Prog.pure_eq, Prog.bind]
                        cases extractForwardToLeader resp <;> rfl

end RaftBench.OpenRaft

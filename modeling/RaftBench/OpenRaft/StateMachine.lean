import RaftBench.OpenRaft.Client

/-!
# The key-value server behind the load generator

The vendored state machine (`openraft/vendor/sm-mem/src/lib.rs`) as far as one committed entry after
another goes: a `Set` is unconditional, a `CompareAndSet` compares the stored version, and the
version an entry writes is its log index.  `serve` adds the JSON around it that the handlers of
`/read` and `/write` answer with.  Of a write's answer only `data` is modelled; its log id and
membership are not read by the generator.

The three `_answer` lemmas say what the generator makes of these answers.
-/

namespace RaftBench.OpenRaft

/-! ## Applying an entry -/

/-- The data of the state machine and the index of the last applied entry. -/
structure KvState where
  data : String → Option VersionedValue
  lastApplied : UInt64

/-- Apply the entry with the given log index: the new state and the response. -/
def KvState.apply (s : KvState) (index : UInt64) : Request → KvState × Option VersionedValue
  | .set key value =>
      (⟨Function.update s.data key (some ⟨value, index⟩), index⟩, some ⟨value, index⟩)
  | .compareAndSet key expectedVersion value =>
      if (s.data key).any (fun current => current.version == expectedVersion) then
        (⟨Function.update s.data key (some ⟨value, index⟩), index⟩, some ⟨value, index⟩)
      else (⟨s.data, index⟩, none)

lemma KvState.apply_match (s : KvState) {key : String} {version : UInt64} (value : String)
    (index : UInt64) (h : (s.data key).any (fun vv => vv.version == version) = true) :
    s.apply index (.compareAndSet key version value)
      = (⟨Function.update s.data key (some ⟨value, index⟩), index⟩, some ⟨value, index⟩) :=
  if_pos h

lemma KvState.apply_mismatch (s : KvState) {key : String} {version : UInt64} (value : String)
    (index : UInt64) (h : (s.data key).any (fun vv => vv.version == version) = false) :
    s.apply index (.compareAndSet key version value) = (⟨s.data, index⟩, none) := by
  rw [apply, if_neg (by simp [h])]

/-! ## Answers -/

/-- The derived `Serialize` of `VersionedValue`. -/
def VersionedValue.toJson (vv : VersionedValue) : Json :=
  .object [("value", .string vv.value), ("version", .number (.posInt vv.version))]

/-- The derived `Serialize` of `types_kv::Response`. -/
def responseToJson (value : Option VersionedValue) : Json :=
  .object [("value", match value with
    | some vv => vv.toJson
    | none => .null)]

/-- The answer to a read. -/
def readAnswer (value : Option VersionedValue) : Json := .object [("Ok", responseToJson value)]

/-- The answer to a committed write. -/
def writeAnswer (value : Option VersionedValue) : Json :=
  .object [("Ok", .object [("data", responseToJson value)])]

/-- The answer of a node that knows another one to be the leader. -/
def forwardAnswer (addr : String) : Json :=
  .object [("Err", .object [("ForwardToLeader",
    .object [("leader_node", .object [("data", .string addr)])])])]

/-- Serve a request: a read finds the current value, a write is committed at `index`. -/
def KvState.serve (s : KvState) (index : UInt64) : Body → KvState × Json
  | .key key => (s, readAnswer (s.data key))
  | .request req => ((s.apply index req).1, writeAnswer (s.apply index req).2)

lemma extractForwardToLeader_writeAnswer (value : Option VersionedValue) :
    extractForwardToLeader (writeAnswer value) = none := rfl

lemma extractForwardToLeader_forwardAnswer (addr : String) :
    extractForwardToLeader (forwardAnswer addr) = some addr := rfl

lemma isCasMismatch_writeAnswer (value : Option VersionedValue) :
    isCasMismatch (writeAnswer value) = value.isNone := by
  cases value <;> rfl

lemma readReply_readAnswer (value : Option VersionedValue) :
    readReply (readAnswer value)
      = .ok (value.map VersionedValue.value, (value.map VersionedValue.version).getD 0) := by
  cases value <;> rfl

/-! ## Counters -/

/-- The text of a counter. -/
def numeral (n : ℕ) : String := String.ofList (Decimal.printNat n)

/-- The first character of a numeral is a digit, so it is not taken for a sign. -/
lemma dropPlus_printNat (n : ℕ) : dropPlus (Decimal.printNat n) = Decimal.printNat n := by
  unfold dropPlus
  split
  · next rest heq =>
      have hplus : Char.isDigit '+' = true :=
        Decimal.isDigit_of_mem_printNat (heq ▸ List.mem_cons_self ..)
      exact absurd hplus (by decide)
  · rfl

lemma parseU64_numeral {n : ℕ} (hn : n < 2 ^ 64) : parseU64 (numeral n) = some n := by
  rw [parseU64, numeral, String.toList_ofList, dropPlus_printNat, Decimal.ofDigits_printNat]
  simpa using hn

lemma nextValue_numeral {n : ℕ} (hn : n < 2 ^ 64) (value : String) :
    nextValue (numeral n) value = numeral ((n + 1) % 2 ^ 64) := by
  simp only [nextValue, parseU64_numeral hn]
  rfl

/-- The number a key holds; an absent key counts as 0. -/
def counterOf (value : Option VersionedValue) : ℕ :=
  ((value.bind fun vv => parseU64 vv.value)).getD 0

lemma counterOf_numeral {n : ℕ} (hn : n < 2 ^ 64) (version : UInt64) :
    counterOf (some ⟨numeral n, version⟩) = n := by
  simp [counterOf, parseU64_numeral hn]

end RaftBench.OpenRaft

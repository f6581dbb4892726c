import Mathlib.Combinatorics.Enumerative.DoubleCounting
import RaftBench.OpenRaft.Increment
import RaftBench.OpenRaft.Versions

/-!
# Increments on the cluster

The load generator's `do_compare_and_set` against the replicated store, with everything that can go
wrong between them.  A read is answered by whichever node it is sent to, from that node's own store:
it may be arbitrarily old, or find a node that has just lost everything.  A request may not arrive,
or be committed after the caller has given it up, and an answer may get lost.  A write that is
answered is answered with what its entry was applied to, or with a `ForwardToLeader`.

What makes this safe is that the version of a value is the index of the entry that wrote it
(`RaftBench.OpenRaft.Versions`).  However old the read, a `CompareAndSet` that takes effect finds
the very write that was read, so it adds one to what the key holds.

* `counterOf_eq_tally` — of a log in which every `CompareAndSet` was built from a value that some
  entry has written: the key holds the number of `CompareAndSet`s that took effect since the last
  `Set`.
* `acknowledged_increments_kept` — of every run of the calls against the cluster.
-/

namespace RaftBench.OpenRaft

variable {L M : Type} [Inhabited M]

/-! ## A log of increments -/

section Log

variable (log : List (Entry L (EntryPayload M))) (key : String)

/-- Some entry has written this value, and its index is the version. -/
def Known (version : UInt64) (current : String) : Prop :=
  Wrote log key version.toNat ∧ responseAt log version.toNat = some ⟨current, version⟩

/-- What a call asks for: to initialise the key, or to increment a value it has read. -/
inductive Built : Request → Prop where
  | init : Built (.set key "0")
  | increment (version : UInt64) (current value : String) (known : Known log key version current) :
      Built (.compareAndSet key version (nextValue current value))

/-- All requests about the key are of this kind. -/
def Incremental : Prop :=
  ∀ e ∈ log, ∀ req, e.payload = .normal req → req.key = key → Built log key req

/-- Entry `i` is a `Set` of the key. -/
def resets (i : ℕ) : Bool :=
  match log[i]?.map Entry.payload with
  | some (.normal (.set key' _)) => key' == key
  | _ => false

/-- Entry `i` is a `CompareAndSet` of the key that has taken effect. -/
def increments (i : ℕ) : Bool :=
  match log[i]?.map Entry.payload with
  | some (.normal (.compareAndSet key' _ _)) => key' == key && (responseAt log i).isSome
  | _ => false

/-- The `CompareAndSet`s among the first entries that have taken effect since the last `Set`. -/
def tally : ℕ → ℕ
  | 0 => 0
  | n + 1 => if resets log key n then 0 else if increments log key n then tally n + 1 else tally n

end Log

section Tally

variable {log : List (Entry L (EntryPayload M))} {key : String} {n : ℕ}
  {e : Entry L (EntryPayload M)}

/-- An entry that is about something else. -/
lemma tally_skip (he : log[n]? = some e) (hkey : e.payload.key? ≠ some key) :
    tally log key (n + 1) = tally log key n ∧
      (replay (log.take (n + 1))).stateMachine.data[key]?
        = (replay (log.take n)).stateMachine.data[key]? := by
  have hneither : resets log key n = false ∧ increments log key n = false := by
    rw [resets, increments, he, Option.map_some]
    obtain ⟨id, payload⟩ := e
    cases payload with
    | blank => exact ⟨rfl, rfl⟩
    | membership mem => exact ⟨rfl, rfl⟩
    | normal req =>
        have hne : req.key ≠ key := fun h => hkey (congrArg some h)
        cases req with
        | set key' value => exact ⟨beq_eq_false_iff_ne.mpr hne, rfl⟩
        | compareAndSet key' version value =>
            refine ⟨rfl, ?_⟩
            have hkey' : (key' == key) = false := beq_eq_false_iff_ne.mpr hne
            simp only [hkey', Bool.false_and]
  refine ⟨?_, ?_⟩
  · rw [tally, hneither.1, hneither.2]
    rfl
  · rw [replay_take_succ he, data_applyEntry, if_neg fun h => hkey h.1]

/-- What the key holds and how often it was incremented. -/
def Tallied (log : List (Entry L (EntryPayload M))) (key : String) (n : ℕ) : Prop :=
  ((replay (log.take n)).stateMachine.data[key]? = none ∧ tally log key n = 0) ∨
    ∃ version, (replay (log.take n)).stateMachine.data[key]?
      = some ⟨numeral (tally log key n), version⟩ ∧ tally log key n < n

/-- A `CompareAndSet` that takes effect finds the value it was built from. -/
lemma Known.found {version : UInt64} {current : String} (hknown : Known log key version current)
    (hn : n ≤ log.length) (hlast : LastWrite log key n version.toNat) :
    (replay (log.take n)).stateMachine.data[key]? = some ⟨current, version⟩ := by
  have hholds := holds_replay key hn
  cases hdata : (replay (log.take n)).stateMachine.data[key]? with
  | none =>
      rw [hdata] at hholds
      exact absurd hlast.2.1 (hholds _ hlast.1)
  | some vv =>
      rw [hdata] at hholds
      obtain ⟨i, hi, hresponse⟩ := hholds
      rw [hi.unique hlast, hknown.2] at hresponse
      exact hresponse.symm

lemma Tallied.unchanged (h : Tallied log key n) (htally : tally log key (n + 1) = tally log key n)
    (hdata : (replay (log.take (n + 1))).stateMachine.data[key]?
      = (replay (log.take n)).stateMachine.data[key]?) : Tallied log key (n + 1) := by
  rw [Tallied, htally, hdata]
  rcases h with hnone | ⟨version, hsome, hlt⟩
  · exact Or.inl hnone
  · exact Or.inr ⟨version, hsome, hlt.trans (Nat.lt_succ_self n)⟩

/-- A `Set` starts again from zero. -/
lemma tallied_set {id : LogId L} (he : log[n]? = some ⟨id, .normal (.set key "0")⟩) :
    Tallied log key (n + 1) := by
  have hresets : resets log key n = true := by
    rw [resets, he]
    exact beq_self_eq_true key
  have htally : tally log key (n + 1) = 0 := by rw [tally, if_pos hresets]
  have hdata : (replay (log.take (n + 1))).stateMachine.data[key]? = some ⟨"0", id.index⟩ := by
    rw [replay_take_succ he, data_applyEntry]
    exact if_pos ⟨rfl, rfl⟩
  rw [Tallied, htally, hdata]
  exact Or.inr ⟨id.index, rfl, Nat.succ_pos n⟩

/-- A `CompareAndSet` built from what the key holds counts one more, and one that comes too late
leaves everything as it is. -/
lemma tallied_compareAndSet (hlog : Consecutive.From Entry.position 0 log) {id : LogId L}
    {version : UInt64} {current value : String}
    (he : log[n]? = some ⟨id, .normal (.compareAndSet key version (nextValue current value))⟩)
    (hknown : Known log key version current) (h : Tallied log key n) :
    Tallied log key (n + 1) := by
  have hdata := data_applyEntry (replay (log.take n))
    ⟨id, .normal (.compareAndSet key version (nextValue current value))⟩ key
  rw [← replay_take_succ he, ← responseAt_eq he] at hdata
  have hresets : resets log key n = false := by
    rw [resets, he]
    rfl
  have hincrements : increments log key n = (responseAt log n).isSome := by
    rw [increments, he]
    exact (congrArg (· && _) (beq_self_eq_true key)).trans (Bool.true_and _)
  have htally : tally log key (n + 1)
      = if (responseAt log n).isSome then tally log key n + 1 else tally log key n := by
    rw [tally, hresets, hincrements, if_neg (by simp)]
  rcases responseAt_compareAndSet hlog he with ⟨hresponse, hlast⟩ | ⟨hresponse, -⟩
  · have hfound := hknown.found (List.getElem?_eq_some_iff.mp he).1.le hlast
    rw [hresponse, Option.isSome_some, if_pos rfl] at htally
    rw [hresponse, if_pos ⟨rfl, rfl⟩] at hdata
    rw [Tallied, htally, hdata]
    rcases h with ⟨hnone, -⟩ | ⟨version', hsome, hlt⟩
    · rw [hfound] at hnone
      cases hnone
    · rw [hfound, Option.some.injEq, VersionedValue.mk.injEq] at hsome
      -- the count is below the index, and that is a `u64`
      have hposition : id.index.toNat = 0 + n := Consecutive.from_iff.mp hlog n _ he
      have hsmall := id.index.toNat_lt
      refine Or.inr ⟨id.index, ?_, Nat.succ_lt_succ hlt⟩
      rw [hsome.1, nextValue_numeral (by omega), Nat.mod_eq_of_lt (by omega)]
  · rw [hresponse, Option.isSome_none, if_neg (by simp)] at htally
    rw [hresponse, if_neg (by simp)] at hdata
    exact h.unchanged htally hdata

/-- **One more entry.** -/
lemma tallied_succ (hlog : Consecutive.From Entry.position 0 log) (hbuilt : Incremental log key)
    (he : log[n]? = some e) (h : Tallied log key n) : Tallied log key (n + 1) := by
  by_cases hkey : e.payload.key? = some key
  · obtain ⟨id, payload⟩ := e
    cases payload with
    | blank => cases hkey
    | membership mem => cases hkey
    | normal req =>
        cases hbuilt _ (List.mem_of_getElem? he) req rfl (Option.some.inj hkey) with
        | init => exact tallied_set he
        | increment version current value hknown => exact tallied_compareAndSet hlog he hknown h
  · obtain ⟨htally, hdata⟩ := tally_skip he hkey
    exact h.unchanged htally hdata

lemma tallied (hlog : Consecutive.From Entry.position 0 log) (hbuilt : Incremental log key)
    (hn : n ≤ log.length) : Tallied log key n := by
  induction n with
  | zero => exact Or.inl ⟨by simp [replay, Applied.init], rfl⟩
  | succ n ih =>
      exact tallied_succ hlog hbuilt (List.getElem?_eq_getElem hn) (ih (Nat.le_of_succ_le hn))

/-- The `CompareAndSet`s that have taken effect. -/
def effects (log : List (Entry L (EntryPayload M))) (key : String) (n : ℕ) : Finset ℕ :=
  (Finset.range n).filter fun i => increments log key i = true

lemma effects_succ : effects log key (n + 1)
    = if increments log key n then insert n (effects log key n) else effects log key n := by
  rw [effects, Finset.range_add_one, Finset.filter_insert]
  rfl

lemma increments_of_resets (h : resets log key n = true) : increments log key n = false := by
  unfold resets at h
  unfold increments
  split at h
  · next heq => rw [heq]
  · cases h

/-- As long as no `Set` comes behind them, they are all counted. -/
lemma tally_eq_card (h : ∀ i < n, resets log key i = true → effects log key i = ∅) :
    tally log key n = (effects log key n).card := by
  induction n with
  | zero => rfl
  | succ n ih =>
      have hn := ih fun i hi => h i (hi.trans (Nat.lt_succ_self n))
      rw [tally, effects_succ]
      cases hresets : resets log key n with
      | true =>
          rw [if_pos rfl, increments_of_resets hresets, if_neg (by simp),
            h n (Nat.lt_succ_self n) hresets]
          rfl
      | false =>
          have hnew : n ∉ effects log key n := by simp [effects]
          rw [if_neg (by simp)]
          cases hincrements : increments log key n with
          | true => rw [if_pos rfl, if_pos rfl, hn, Finset.card_insert_of_notMem hnew]
          | false => rw [if_neg (by simp), if_neg (by simp), hn]

/-- **A log of increments counts them.** -/
lemma counterOf_eq_tally (hlog : Consecutive.From Entry.position 0 log)
    (hbuilt : Incremental log key) (hn : n ≤ log.length) :
    counterOf (replay (log.take n)).stateMachine.data[key]? = tally log key n := by
  rcases tallied hlog hbuilt hn with ⟨hnone, hzero⟩ | ⟨version, hsome, hlt⟩
  · rw [hnone, hzero]
    rfl
  · obtain ⟨m, rfl⟩ := Nat.exists_eq_succ_of_ne_zero (Nat.ne_of_gt (Nat.zero_lt_of_lt hlt))
    have hposition := Consecutive.from_iff.mp hlog m _ (List.getElem?_eq_getElem hn)
    have hsmall := (log[m]).logId.index.toNat_lt
    have hindex : (log[m]).logId.index.toNat = 0 + m := hposition
    rw [hsome, counterOf_numeral (by omega)]

end Tally

/-! ### Longer logs -/

section Grow

variable {log : List (Entry L (EntryPayload M))} {key : String}

lemma responseAt_append {i : ℕ} (hi : i < log.length) (rest : List (Entry L (EntryPayload M))) :
    responseAt (log ++ rest) i = responseAt log i := by
  rw [responseAt, responseAt, List.getElem?_append_left hi, List.take_append_of_le_length hi.le]

lemma Wrote.lt {i : ℕ} (h : Wrote log key i) : i < log.length := by
  obtain ⟨e, he, -⟩ := Option.bind_eq_some_iff.mp h.1
  exact (List.getElem?_eq_some_iff.mp he).1

lemma Known.append {version : UInt64} {current : String} (h : Known log key version current)
    (rest : List (Entry L (EntryPayload M))) : Known (log ++ rest) key version current := by
  have hlt := h.1.lt
  rw [Known, Wrote, responseAt_append hlt, List.getElem?_append_left hlt]
  exact h

lemma Built.append {req : Request} (h : Built log key req)
    (rest : List (Entry L (EntryPayload M))) : Built (log ++ rest) key req := by
  cases h with
  | init => exact .init
  | increment version current value known =>
      exact .increment version current value (known.append rest)

lemma increments_append {i : ℕ} (hi : i < log.length) (rest : List (Entry L (EntryPayload M))) :
    increments (log ++ rest) key i = increments log key i := by
  rw [increments, increments, List.getElem?_append_left hi, responseAt_append hi]

/-- What any node holds has been written, however far behind it is. -/
lemma known_of_followsLog (hlog : Consecutive.From Entry.position 0 log) {a : Applied L M}
    (ha : FollowsLog log a) {vv : VersionedValue} (h : a.stateMachine.data[key]? = some vv) :
    Known log key vv.version vv.value := by
  have hholds := holds_replay key ha.1
  rw [← ha.2, h] at hholds
  obtain ⟨i, hlast, hresponse⟩ := hholds
  rw [Known, version_responseAt hlog hresponse]
  exact ⟨hlast.2.1, hresponse⟩

end Grow

/-! ## Where a call stands -/

/-- The attempt has not brought an answer the caller can use. -/
def Outcome.fails : Body → Outcome → Bool
  | _, .unreachable => true
  | _, .interrupted => true
  | _, .replied none => true
  | .key _, .replied (some envelope) => (readReply envelope).toOption.isNone
  | .request _, .replied (some _) => false

/-- What is left of a `do_compare_and_set` call.  A call about to write has read a value that was
written under its version. -/
inductive Stands (known : UInt64 → String → Prop) (peers : ℕ) (key value : String) :
    Client (Except String Unit) → Prop where
  | looping (n : ℕ) : Stands known peers key value (compareAndSetLoop peers key value n)
  | initialising (m n : ℕ) :
      Stands known peers key value
        (postLoop "write" (.request (.set key "0")) m >>= fun _ =>
          compareAndSetLoop peers key value n)
  | writing (n : ℕ) (version : UInt64) (current : String) (read : known version current) :
      Stands known peers key value
        (.call (.attempt "write"
          (.request (.compareAndSet key version (nextValue current value))))
          (casWriteNext peers key value n))
  | tracking (addr : String) (prog : Client (Except String Unit))
      (h : Stands known peers key value prog) (unsettled : isOk prog = false) :
      Stands known peers key value (.call (.setLeader addr) fun _ => prog)
  | rotating (prog : Client (Except String Unit)) (h : Stands known peers key value prog)
      (unsettled : isOk prog = false) : Stands known peers key value (.call .rotate fun _ => prog)
  | returned (r : Except String Unit) : Stands known peers key value (.ret r)

/-- The call is not over. -/
def GoesOn (known : UInt64 → String → Prop) (peers : ℕ) (key value : String)
    (prog : Client (Except String Unit)) : Prop :=
  Stands known peers key value prog ∧ isOk prog = false

/-- What a call can ask for, and what it does with the answer. -/
inductive AsksFor (known : UInt64 → String → Prop) (peers : ℕ) (key value : String) :
    Body → (Outcome → Client (Except String Unit)) → Prop where
  | read (n : ℕ) : AsksFor known peers key value (.key key) (casReadNext peers key value n)
  | init (m n : ℕ) :
      AsksFor known peers key value (.request (.set key "0")) fun o =>
        postNext "write" (.request (.set key "0")) m o >>= fun _ =>
          compareAndSetLoop peers key value n
  | write (n : ℕ) (version : UInt64) (current : String) (read : known version current) :
      AsksFor known peers key value
        (.request (.compareAndSet key version (nextValue current value)))
        (casWriteNext peers key value n)

section Calls

variable {known known' : UInt64 → String → Prop} {peers : ℕ} {key value : String}
  {prog : Client (Except String Unit)} {path : String} {body : Body} {req : Request}
  {next : Outcome → Client (Except String Unit)}

lemma Stands.mono (h : Stands known peers key value prog)
    (hknown : ∀ version current, known version current → known' version current) :
    Stands known' peers key value prog := by
  induction h with
  | looping n => exact .looping n
  | initialising m n => exact .initialising m n
  | writing n version current read => exact .writing n version current (hknown _ _ read)
  | tracking addr prog _ hok ih => exact .tracking addr prog ih hok
  | rotating prog _ hok ih => exact .rotating prog ih hok
  | returned r => exact .returned r

lemma goesOn_loop (n : ℕ) :
    GoesOn known peers key value (compareAndSetLoop peers key value n) :=
  ⟨.looping n, isOk_compareAndSetLoop n⟩

lemma goesOn_init (m n : ℕ) :
    GoesOn known peers key value (postLoop "write" (.request (.set key "0")) m >>= fun _ =>
      compareAndSetLoop peers key value n) :=
  ⟨.initialising m n, isOk_initialising m n⟩

lemma GoesOn.track (h : GoesOn known peers key value prog) (addr : String) :
    GoesOn known peers key value (.call (.setLeader addr) fun _ => prog) :=
  ⟨.tracking addr prog h.1 h.2, rfl⟩

lemma GoesOn.rotate (h : GoesOn known peers key value prog) :
    GoesOn known peers key value (.call .rotate fun _ => prog) :=
  ⟨.rotating prog h.1 h.2, rfl⟩

lemma asksFor_of_looping {n : ℕ}
    (h : compareAndSetLoop peers key value n = .call (.attempt path body) next) :
    AsksFor known peers key value body next := by
  cases n with
  | zero => simp [compareAndSetLoop] at h
  | succ n =>
      rw [compareAndSetLoop_succ] at h
      injection h with hop hnext
      injection hop with hpath hbody
      subst hbody
      obtain rfl := hnext
      exact .read n

lemma Stands.asksFor (h : Stands known peers key value (.call (.attempt path body) next)) :
    AsksFor known peers key value body next := by
  generalize hp : (Prog.call (.attempt path body) next : Client (Except String Unit)) = p at h
  cases h with
  | looping n => exact asksFor_of_looping hp.symm
  | initialising m n =>
      cases m with
      | zero => exact asksFor_of_looping hp.symm
      | succ m =>
          rw [postLoop_succ, Prog.call_bind] at hp
          injection hp with hop hnext
          injection hop with hpath hbody
          subst hbody
          obtain rfl := hnext
          exact .init m n
  | writing n version current read =>
      injection hp with hop hnext
      injection hop with hpath hbody
      subst hbody
      obtain rfl := hnext
      exact .write n version current read
  | tracking addr prog h _ => simp at hp
  | rotating prog h _ => simp at hp
  | returned r => simp at hp

/-- A call that has moved the tracked leader. -/
lemma Stands.tracked {op : ClientOp} {next : op.Ans → Client (Except String Unit)}
    (h : Stands known peers key value (.call op next)) (hop : ∀ path body, op ≠ .attempt path body)
    (answer : op.Ans) : GoesOn known peers key value (next answer) := by
  generalize hp : (Prog.call op next : Client (Except String Unit)) = p at h
  cases h with
  | looping n =>
      obtain ⟨path, body, hattempt⟩ := op_of_looping hp.symm
      exact absurd hattempt (hop path body)
  | initialising m n =>
      obtain ⟨path, body, hattempt⟩ := op_of_initialising hp.symm
      exact absurd hattempt (hop path body)
  | writing n version current read =>
      injection hp with hattempt _
      exact absurd hattempt (hop _ _)
  | tracking addr prog h hok =>
      injection hp with hset hnext
      subst hset
      obtain rfl := hnext
      exact ⟨h, hok⟩
  | rotating prog h hok =>
      injection hp with hrotate hnext
      subst hrotate
      obtain rfl := hnext
      exact ⟨h, hok⟩
  | returned r => simp at hp

/-- Without a reply the loops go on as before, from the next peer if the tracked leader could not be
reached. -/
lemma AsksFor.without_reply (h : AsksFor known peers key value body next) :
    ∃ prog, GoesOn known peers key value prog ∧
      next .unreachable = .call .rotate (fun _ => prog) ∧ next .interrupted = prog ∧
      next (.replied none) = prog := by
  cases h with
  | read n => exact ⟨_, goesOn_loop n, rfl, rfl, rfl⟩
  | init m n => exact ⟨_, goesOn_init m n, rfl, rfl, rfl⟩
  | write n version current read => exact ⟨_, goesOn_loop n, rfl, rfl, rfl⟩

/-- After an attempt that has failed the loops go on. -/
lemma AsksFor.failed (h : AsksFor known peers key value body next) {o : Outcome}
    (ho : o.fails body = true) : GoesOn known peers key value (next o) := by
  obtain ⟨prog, hprog, hunreachable, hinterrupted, hunparsed⟩ := h.without_reply
  cases o with
  | unreachable =>
      rw [hunreachable]
      exact hprog.rotate
  | interrupted =>
      rw [hinterrupted]
      exact hprog
  | replied parsed =>
      cases parsed with
      | none =>
          rw [hunparsed]
          exact hprog
      | some envelope =>
          -- only a read can fail with a reply
          cases h with
          | read n =>
              simp only [casReadNext]
              cases hreply : readReply envelope with
              | error e => exact goesOn_loop n
              | ok reply => simp [Outcome.fails, hreply, Except.toOption] at ho
          | init m n => cases ho
          | write n version current read => cases ho

/-- After a node has named another one. -/
lemma AsksFor.refused (h : AsksFor known peers key value (.request req) next) (addr : String) :
    GoesOn known peers key value (next (.replied (some (forwardAnswer addr)))) := by
  cases h with
  | init m n =>
      simp only [postNext, extractForwardToLeader_forwardAnswer, Prog.call_bind]
      exact (goesOn_init m n).track addr
  | write n version current read =>
      simp only [casWriteNext, extractForwardToLeader_forwardAnswer]
      exact (goesOn_loop n).track addr

/-- After a node has answered a read. -/
lemma AsksFor.answered {key' : String} (h : AsksFor known peers key value (.key key') next)
    {found : Option VersionedValue} (hfound : ∀ vv, found = some vv → known vv.version vv.value) :
    GoesOn known peers key value (next (.replied (some (readAnswer found)))) := by
  cases h with
  | read n =>
      simp only [casReadNext, readReply_readAnswer]
      cases found with
      | none => exact goesOn_init _ n
      | some vv => exact ⟨.writing n vv.version vv.value (hfound vv rfl), rfl⟩

/-- After a write has been applied: the call is over only if it was a `CompareAndSet` that has taken
effect. -/
lemma AsksFor.applied (h : AsksFor known peers key value (.request req) next)
    (response : Option VersionedValue) :
    Stands known peers key value (next (.replied (some (writeAnswer response)))) ∧
      (isOk (next (.replied (some (writeAnswer response)))) = true → response.isSome ∧
        ∃ version text, req = .compareAndSet key version text) := by
  cases h with
  | init m n =>
      have hnext : (postNext "write" (.request (.set key "0")) m
          (.replied (some (writeAnswer response))) >>= fun _ =>
            compareAndSetLoop peers key value n) = compareAndSetLoop peers key value n := by
        simp only [postNext, extractForwardToLeader_writeAnswer]
        rfl
      simp only [hnext]
      exact ⟨.looping n, fun hok => by rw [isOk_compareAndSetLoop] at hok; cases hok⟩
  | write n version current read =>
      cases response with
      | none =>
          rw [casWriteNext_mismatch]
          exact ⟨.looping n, fun hok => by rw [isOk_compareAndSetLoop] at hok; cases hok⟩
      | some vv =>
          rw [casWriteNext_applied]
          exact ⟨.returned _, fun _ => ⟨rfl, version, _, rfl⟩⟩

lemma AsksFor.built {log : List (Entry L (EntryPayload M))}
    (h : AsksFor (Known log key) peers key value (.request req) next) : Built log key req := by
  cases h with
  | init m n => exact .init
  | write n version current read => exact .increment version current value read

end Calls

/-! ## The machine -/

/-- A call, and the write it waits for, by its number. -/
structure ClusterCall where
  prog : Client (Except String Unit)
  pending : Option ℕ := none

structure ClusterCounter (L M : Type) where
  replicas : Replicas L M
  calls : List ClusterCall
  /-- the writes that have been sent, each by the number of its call -/
  sent : List (ℕ × Request) := []
  /-- which of them every entry of the log is -/
  owners : List (Option ℕ) := []

inductive ClusterEvent (L M : Type) where
  /-- the write of call `k` is on its way -/
  | send (k : ℕ)
  /-- write `p` gets into the log, wanted or not -/
  | commit (p : ℕ) (id : LogId L)
  /-- an entry that is not about the key -/
  | other (entry : Entry L (EntryPayload M))
  | replica (e : ReplicaEvent L M)
  /-- the read of call `k` is answered by a node -/
  | read (k node : ℕ)
  /-- what a responder has been sent reaches call `k` -/
  | acknowledge (k i : ℕ)
  /-- call `k` gets a `ForwardToLeader` for its write -/
  | refuse (k : ℕ) (addr : String)
  | fail (k : ℕ) (outcome : Outcome)
  | track (k : ℕ)

def ClusterCounter.init (count peers : ℕ) (key : String) (values : List String) :
    ClusterCounter L M :=
  ⟨.init count, values.map fun value => ⟨doCompareAndSet peers key value, none⟩, [], []⟩

/-- The call goes on. -/
def ClusterCounter.goOn (w : ClusterCounter L M) (k : ℕ) (prog : Client (Except String Unit)) :
    ClusterCounter L M :=
  { w with calls := w.calls.set k ⟨prog, none⟩ }

def clusterStep (json : SerdeJson (BTreeMap String VersionedValue)) (key : String)
    (w : ClusterCounter L M) : ClusterEvent L M → Option (ClusterCounter L M)
  | .send k =>
      match w.calls[k]? with
      | some ⟨.call (.attempt path (.request req)) next, none⟩ => some { w with
          calls := w.calls.set k ⟨.call (.attempt path (.request req)) next, some w.sent.length⟩
          sent := w.sent ++ [(k, req)] }
      | _ => none
  | .commit p id =>
      w.sent[p]?.bind fun write =>
        if some p ∈ w.owners then none
        else ((OpenRaft.replicas json).step w.replicas (.commit ⟨id, .normal write.2⟩)).map
          fun replicas => { w with replicas, owners := w.owners ++ [some p] }
  | .other entry =>
      if entry.payload.key? = some key then none
      else ((OpenRaft.replicas json).step w.replicas (.commit entry)).map
        fun replicas => { w with replicas, owners := w.owners ++ [none] }
  | .replica (.commit _) => none
  | .replica e =>
      ((OpenRaft.replicas json).step w.replicas e).map fun replicas => { w with replicas }
  | .read k node =>
      match w.calls[k]?, w.replicas.nodes[node]? with
      | some ⟨.call (.attempt _ (.key key')) next, _⟩, some s =>
          some (w.goOn k (next (.replied (some (readAnswer (s.get key'))))))
      | _, _ => none
  | .acknowledge k i =>
      match w.calls[k]?, w.replicas.answers[i]? with
      | some ⟨.call (.attempt _ (.request _)) next, some p⟩, some (id, response) =>
          if w.owners[id.index.toNat]? = some (some p) then
            some (w.goOn k (next (.replied (some (writeAnswer response)))))
          else none
      | _, _ => none
  | .refuse k addr =>
      match w.calls[k]? with
      | some ⟨.call (.attempt _ (.request _)) next, some _⟩ =>
          some (w.goOn k (next (.replied (some (forwardAnswer addr)))))
      | _ => none
  | .fail k outcome =>
      match w.calls[k]? with
      | some ⟨.call (.attempt _ body) next, _⟩ =>
          if outcome.fails body then some (w.goOn k (next outcome)) else none
      | _ => none
  | .track k =>
      match w.calls[k]? with
      | some ⟨.call (.setLeader _) next, _⟩ => some (w.goOn k (next ()))
      | some ⟨.call .rotate next, _⟩ => some (w.goOn k (next ()))
      | _ => none

/-- Any number of `do_compare_and_set` calls and any number of nodes. -/
def clusterCounter (json : SerdeJson (BTreeMap String VersionedValue)) (key : String) :
    Machine (ClusterCounter L M) (ClusterEvent L M) where
  step := clusterStep json key

/-! ## The invariant -/

namespace ClusterCounter

variable (w : ClusterCounter L M)

abbrev log : List (Entry L (EntryPayload M)) := w.replicas.committed

/-- The call has its `Ok(())`. -/
def returnedOk (k : ℕ) : Bool := w.calls[k]?.any fun call => isOk call.prog

/-- Entry `i` is a `CompareAndSet` of call `k` that has taken effect. -/
def Effected (key : String) (k i : ℕ) : Prop :=
  increments w.log key i = true ∧
    ∃ p, w.owners[i]? = some (some p) ∧ w.sent[p]?.map Prod.fst = some k

/-- The entry is the write that it is said to be, or is not about the key. -/
def Owned (key : String) (e : Entry L (EntryPayload M)) : Option ℕ → Prop
  | some p => ∃ k req, w.sent[p]? = some (k, req) ∧ e.payload = .normal req
  | none => e.payload.key? ≠ some key

structure Inv (json : SerdeJson (BTreeMap String VersionedValue)) (peers : ℕ) (key : String) :
    Prop where
  replicas : ReplicasInv json w.replicas
  owners : w.owners.length = w.log.length
  sent : ∀ write ∈ w.sent, Built w.log key write.2
  logged : ∀ (i : ℕ) (e : Entry L (EntryPayload M)) (owner : Option ℕ), w.log[i]? = some e →
    w.owners[i]? = some owner → w.Owned key e owner
  calls : ∀ call ∈ w.calls, ∃ value, Stands (Known w.log key) peers key value call.prog
  pending : ∀ (k : ℕ) (call : ClusterCall) (p : ℕ), w.calls[k]? = some call →
    call.pending = some p → ∃ path req next,
      call.prog = .call (.attempt path (.request req)) next ∧ w.sent[p]? = some (k, req)
  done : ∀ k, w.returnedOk k = true → ∃ i, w.Effected key k i

variable {w} {json : SerdeJson (BTreeMap String VersionedValue)} {peers : ℕ} {key : String} {k : ℕ}

lemma inv_init (count peers : ℕ) (key : String) (values : List String) :
    (init count peers key values : ClusterCounter L M).Inv json peers key where
  replicas := replicasInv_init count
  owners := rfl
  sent := by simp [init]
  logged i e owner he := by cases he
  calls call hcall := by
    obtain ⟨value, -, rfl⟩ := List.mem_map.mp hcall
    exact ⟨value, .looping _⟩
  pending k call p hcall hpending := by
    obtain ⟨value, -, rfl⟩ := List.mem_map.mp (List.mem_of_getElem? hcall)
    cases hpending
  done k hdone := by
    obtain ⟨call, hcall, hok⟩ := (Option.any_eq_true _ _).mp hdone
    obtain ⟨value, -, rfl⟩ := List.mem_map.mp (List.mem_of_getElem? hcall)
    rw [doCompareAndSet, isOk_compareAndSetLoop] at hok
    cases hok

/-- One call moves. -/
lemma Inv.move (h : w.Inv json peers key) (call : ClusterCall) {value : String}
    (hstands : Stands (Known w.log key) peers key value call.prog)
    (hpending : ∀ p, call.pending = some p → ∃ path req next,
      call.prog = .call (.attempt path (.request req)) next ∧ w.sent[p]? = some (k, req))
    (hdone : isOk call.prog = true → ∃ i, w.Effected key k i) :
    Inv { w with calls := w.calls.set k call } json peers key := by
  have hset : ∀ j c, (w.calls.set k call)[j]? = some c →
      w.calls[j]? = some c ∨ j = k ∧ c = call := by
    intro j c hj
    rw [List.getElem?_set] at hj
    split_ifs at hj with hjk hlt
    · exact Or.inr ⟨hjk.symm, (Option.some.inj hj).symm⟩
    · exact Or.inl hj
  refine { h with calls := List.forall_set h.calls ⟨value, hstands⟩ k, pending := ?_, done := ?_ }
  · intro j c p hj hp
    rcases hset j c hj with hj | ⟨rfl, rfl⟩
    · exact h.pending j c p hj hp
    · exact hpending p hp
  · intro j hj
    obtain ⟨c, hc, hok⟩ := (Option.any_eq_true _ _).mp hj
    rcases hset j c hc with hc | ⟨rfl, rfl⟩
    · exact h.done j ((Option.any_eq_true _ _).mpr ⟨c, hc, hok⟩)
    · exact hdone hok

lemma Inv.goOn (h : w.Inv json peers key) {prog : Client (Except String Unit)} {value : String}
    (hprog : GoesOn (Known w.log key) peers key value prog) (k : ℕ) :
    Inv (w.goOn k prog) json peers key := by
  refine h.move ⟨prog, none⟩ hprog.1 (by simp) fun hok => ?_
  rw [hprog.2] at hok
  cases hok

/-- A write is put on its way. -/
lemma Inv.send (h : w.Inv json peers key) {req : Request} (hbuilt : Built w.log key req) (k : ℕ) :
    Inv { w with sent := w.sent ++ [(k, req)] } json peers key := by
  have hkeep : ∀ {p write}, w.sent[p]? = some write → (w.sent ++ [(k, req)])[p]? = some write :=
    fun hp => by rw [List.getElem?_append_left (List.getElem?_eq_some_iff.mp hp).1, hp]
  refine { h with
    sent := List.forall_concat h.sent hbuilt, logged := ?_, pending := ?_, done := ?_ }
  · intro i e owner he howner
    have howned := h.logged i e owner he howner
    cases owner with
    | none => exact howned
    | some p =>
        obtain ⟨j, req', hsent, hpayload⟩ := howned
        exact ⟨j, req', hkeep hsent, hpayload⟩
  · intro j call p hcall hp
    obtain ⟨path, req', next, hprog, hsent⟩ := h.pending j call p hcall hp
    exact ⟨path, req', next, hprog, hkeep hsent⟩
  · intro j hj
    obtain ⟨i, hincrements, p, howner, hsent⟩ := h.done j hj
    obtain ⟨write, hwrite, hfst⟩ := Option.map_eq_some_iff.mp hsent
    exact ⟨i, hincrements, p, howner, by rw [hkeep hwrite, Option.map_some, hfst]⟩

/-- The stores move on behind an unchanged log. -/
lemma Inv.serve (h : w.Inv json peers key) {replicas : Replicas L M}
    (hreplicas : ReplicasInv json replicas)
    (hlog : replicas.committed = w.replicas.committed) :
    Inv { w with replicas } json peers key := by
  obtain ⟨-, howners, hsent, hlogged, hcalls, hpending, hdone⟩ := h
  simp only [log, Effected, returnedOk] at howners hsent hlogged hcalls hpending hdone
  rw [← hlog] at howners hsent hlogged hcalls hdone
  exact ⟨hreplicas, howners, hsent, hlogged, hcalls, hpending, hdone⟩

/-- The log grows. -/
lemma Inv.grow (h : w.Inv json peers key) {replicas : Replicas L M}
    (hreplicas : ReplicasInv json replicas) {e : Entry L (EntryPayload M)}
    (hlog : replicas.committed = w.replicas.committed ++ [e]) (owner : Option ℕ)
    (howner : w.Owned key e owner) :
    Inv { w with replicas, owners := w.owners ++ [owner] } json peers key where
  replicas := hreplicas
  owners := by
    simp only [log, hlog, List.length_append, List.length_singleton]
    rw [h.owners]
  sent write hwrite := by
    simp only [log, hlog]
    exact (h.sent write hwrite).append [e]
  logged i e' owner' he' howner' := by
    have hlength : w.owners.length = w.replicas.committed.length := h.owners
    simp only [log, hlog] at he'
    rcases Nat.lt_or_ge i w.replicas.committed.length with hi | hi
    · rw [List.getElem?_append_left hi] at he'
      rw [List.getElem?_append_left (by omega)] at howner'
      exact h.logged i e' owner' he' howner'
    · rw [List.getElem?_append_right hi, List.getElem?_singleton] at he'
      rw [List.getElem?_append_right (by omega), hlength, List.getElem?_singleton] at howner'
      split_ifs at he' howner'
      cases he'
      cases howner'
      exact howner
  calls call hcall := by
    obtain ⟨value, hstands⟩ := h.calls call hcall
    refine ⟨value, hstands.mono fun version current hknown => ?_⟩
    simp only [log, hlog]
    exact hknown.append [e]
  pending := h.pending
  done k hk := by
    obtain ⟨i, hincrements, p, hp, hsent⟩ := h.done k hk
    have hlt := (List.getElem?_eq_some_iff.mp hp).1
    refine ⟨i, ?_, p, ?_, hsent⟩
    · simp only [log, hlog]
      rw [increments_append (lt_of_lt_of_eq hlt h.owners)]
      exact hincrements
    · rw [List.getElem?_append_left hlt, hp]

/-- The call has asked for what stands at its head. -/
lemma Inv.asksFor (h : w.Inv json peers key) {call : ClusterCall} (hcall : w.calls[k]? = some call)
    {path : String} {body : Body} {next : Outcome → Client (Except String Unit)}
    (hprog : call.prog = .call (.attempt path body) next) :
    ∃ value, AsksFor (Known w.log key) peers key value body next := by
  obtain ⟨value, hstands⟩ := h.calls call (List.mem_of_getElem? hcall)
  exact ⟨value, (hprog ▸ hstands).asksFor⟩

/-- A node answers a read. -/
lemma Inv.read (h : w.Inv json peers key) {value key' : String}
    {next : Outcome → Client (Except String Unit)}
    (hasks : AsksFor (Known w.log key) peers key value (.key key') next)
    {s : StateMachineStoreInner L M} (hs : s ∈ w.replicas.nodes) :
    GoesOn (Known w.log key) peers key value
      (next (.replied (some (readAnswer (s.get key'))))) := by
  have hkey : key' = key := by
    cases hasks
    rfl
  subst hkey
  exact hasks.answered fun vv hvv =>
    known_of_followsLog h.replicas.log (h.replicas.nodes s hs) hvv

/-- A write is acknowledged. -/
lemma Inv.acknowledge (h : w.Inv json peers key) {p : ℕ} {path : String} {req : Request}
    {next : Outcome → Client (Except String Unit)}
    (hcall : w.calls[k]? = some ⟨.call (.attempt path (.request req)) next, some p⟩)
    {sent : LogId L × Option VersionedValue} (hsent : sent ∈ w.replicas.answers)
    (howner : w.owners[sent.1.index.toNat]? = some (some p)) :
    Inv (w.goOn k (next (.replied (some (writeAnswer sent.2))))) json peers key := by
  obtain ⟨value, hasks⟩ := h.asksFor hcall rfl
  obtain ⟨hstands, hok⟩ := hasks.applied sent.2
  refine h.move ⟨_, none⟩ hstands (by simp) fun hdone => ?_
  -- the entry is the write the call has sent, and it has taken effect
  obtain ⟨hsome, version, text, rfl⟩ := hok hdone
  obtain ⟨e, he, -⟩ := h.replicas.answers sent hsent
  obtain ⟨_, req', hwrite, hpayload⟩ := h.logged _ e _ he howner
  obtain ⟨_, req'', _, hprog, hpending⟩ := h.pending k _ p hcall rfl
  injection hprog with hop
  injection hop with _ hbody
  cases hbody
  rw [hwrite, Option.some.injEq] at hpending
  cases hpending
  refine ⟨sent.1.index.toNat, ?_, p, howner, by rw [hwrite]; rfl⟩
  rw [(h.replicas.answers sent hsent).eq_responseAt] at hsome
  rw [increments, log, he, Option.map_some, hpayload]
  simp only [beq_self_eq_true, Bool.true_and]
  exact hsome

/-- **Every step keeps the invariant.** -/
lemma Inv.step {w' : ClusterCounter L M} (h : w.Inv json peers key) {e : ClusterEvent L M}
    (hstep : (clusterCounter json key).step w e = some w') : w'.Inv json peers key := by
  simp only [clusterCounter] at hstep
  cases e with
  | send k =>
      simp only [clusterStep] at hstep
      split at hstep
      · next path req next hcall =>
          cases hstep
          obtain ⟨value, hasks⟩ := h.asksFor hcall rfl
          obtain ⟨value', hstands⟩ := h.calls _ (List.mem_of_getElem? hcall)
          refine (h.send hasks.built k).move ⟨_, some w.sent.length⟩ hstands ?_ ?_
          · rintro p ⟨⟩
            exact ⟨path, req, next, rfl, by simp⟩
          · intro hok
            cases hok
      · cases hstep
  | commit p id =>
      obtain ⟨write, hwrite, hstep⟩ := Option.bind_eq_some_iff.mp hstep
      split_ifs at hstep
      obtain ⟨replicas, hreplicas, rfl⟩ := Option.map_eq_some_iff.mp hstep
      have hlog : replicas.committed = w.replicas.committed ++ [⟨id, .normal write.2⟩] := by
        cases replicas_step hreplicas
        rfl
      exact h.grow (replicasInv_step h.replicas hreplicas) hlog (some p)
        ⟨write.1, write.2, hwrite, rfl⟩
  | other entry =>
      simp only [clusterStep] at hstep
      split_ifs at hstep with hkey
      obtain ⟨replicas, hreplicas, rfl⟩ := Option.map_eq_some_iff.mp hstep
      have hlog : replicas.committed = w.replicas.committed ++ [entry] := by
        cases replicas_step hreplicas
        rfl
      exact h.grow (replicasInv_step h.replicas hreplicas) hlog none hkey
  | replica e =>
      cases e with
      | commit entry => cases hstep
      | _ =>
          obtain ⟨replicas, hreplicas, rfl⟩ := Option.map_eq_some_iff.mp hstep
          exact h.serve (replicasInv_step h.replicas hreplicas)
            (committed_of_step hreplicas (by simp))
  | read k node =>
      simp only [clusterStep] at hstep
      split at hstep
      · next hcall hs =>
          cases hstep
          obtain ⟨value, hasks⟩ := h.asksFor hcall rfl
          exact h.goOn (h.read hasks (List.mem_of_getElem? hs)) k
      · cases hstep
  | acknowledge k i =>
      simp only [clusterStep] at hstep
      split at hstep
      · next id response hcall hsent =>
          split_ifs at hstep with howner
          cases hstep
          exact h.acknowledge hcall (List.mem_of_getElem? hsent) howner
      · cases hstep
  | refuse k addr =>
      simp only [clusterStep] at hstep
      split at hstep
      · next hcall =>
          cases hstep
          obtain ⟨value, hasks⟩ := h.asksFor hcall rfl
          exact h.goOn (hasks.refused addr) k
      · cases hstep
  | fail k outcome =>
      simp only [clusterStep] at hstep
      split at hstep
      · next hcall =>
          split_ifs at hstep with hfails
          cases hstep
          obtain ⟨value, hasks⟩ := h.asksFor hcall rfl
          exact h.goOn (hasks.failed hfails) k
      · cases hstep
  | track k =>
      simp only [clusterStep] at hstep
      split at hstep
      · next hcall =>
          cases hstep
          obtain ⟨value, hstands⟩ := h.calls _ (List.mem_of_getElem? hcall)
          exact h.goOn (hstands.tracked nofun ()) k
      · next hcall =>
          cases hstep
          obtain ⟨value, hstands⟩ := h.calls _ (List.mem_of_getElem? hcall)
          exact h.goOn (hstands.tracked nofun ()) k
      · cases hstep

/-! ## Every run -/

/-- The calls that have returned `Ok(())`. -/
def okCalls (w : ClusterCounter L M) : Finset ℕ :=
  (Finset.range w.calls.length).filter fun k => w.returnedOk k = true

lemma Inv.incremental (h : w.Inv json peers key) : Incremental w.log key := by
  intro e he req hpayload hkey
  obtain ⟨i, hi⟩ := List.getElem?_of_mem he
  have hlt : i < w.owners.length := by
    rw [h.owners]
    exact (List.getElem?_eq_some_iff.mp hi).1
  obtain ⟨owner, howner⟩ : ∃ owner, w.owners[i]? = some owner :=
    ⟨w.owners[i], List.getElem?_eq_getElem hlt⟩
  have howned := h.logged i e owner hi howner
  cases owner with
  | none =>
      refine absurd ?_ howned
      rw [hpayload, ← hkey]
      rfl
  | some p =>
      obtain ⟨k, req', hsent, hpayload'⟩ := howned
      rw [hpayload] at hpayload'
      cases hpayload'
      exact h.sent _ (List.mem_of_getElem? hsent)

/-- Every call that has returned `Ok(())` has taken effect. -/
lemma Inv.effected (h : w.Inv json peers key) (hk : k ∈ w.okCalls) :
    ∃ i ∈ effects w.log key w.log.length, w.Effected key k i := by
  obtain ⟨i, hi⟩ := h.done k (Finset.mem_filter.mp hk).2
  obtain ⟨p, howner, -⟩ := hi.2
  have hlt : i < w.log.length := by
    rw [← h.owners]
    exact (List.getElem?_eq_some_iff.mp howner).1
  exact ⟨i, Finset.mem_filter.mpr ⟨Finset.mem_range.mpr hlt, hi.1⟩, hi⟩

/-- An entry is the effect of one call only. -/
lemma Inv.card_okCalls_le (h : w.Inv json peers key) :
    w.okCalls.card ≤ (effects w.log key w.log.length).card := by
  refine Finset.card_le_card_of_forall_subsingleton (fun k i => w.Effected key k i) ?_ ?_
  · exact fun k hk => h.effected hk
  · rintro i - k ⟨-, -, p, howner, hsent⟩ k' ⟨-, -, p', howner', hsent'⟩
    rw [howner] at howner'
    cases howner'
    rw [hsent] at hsent'
    exact Option.some.inj hsent'

end ClusterCounter

/-- **No acknowledged increment is lost.**  In every run of any number of `do_compare_and_set` calls
against any number of nodes, with reads from any node, requests and answers lost, writes committed
after they were given up, snapshots and restarts: every node holds the number of `CompareAndSet`s
that have taken effect since the last `Set` in the part of the log it has applied; and every call
that has returned `Ok(())` has a `CompareAndSet` of its own that has taken effect, so there are at
least as many of these as there are such calls.  If no `Set` comes behind one of them in the log,
they are all counted at its end. -/
theorem acknowledged_increments_kept (json : SerdeJson (BTreeMap String VersionedValue))
    (count peers : ℕ) (key : String) (values : List String) (events : List (ClusterEvent L M))
    (w : ClusterCounter L M)
    (hrun : (clusterCounter json key).run (.init count peers key values) events = some w) :
    (∀ s ∈ w.replicas.nodes,
      counterOf (s.get key) = tally w.log key (nextIndex s.lastAppliedLog)) ∧
    (∀ k ∈ w.okCalls, ∃ i ∈ effects w.log key w.log.length, w.Effected key k i) ∧
    w.okCalls.card ≤ (effects w.log key w.log.length).card ∧
    ((∀ i < w.log.length, resets w.log key i = true → effects w.log key i = ∅) →
      counterOf (replay w.log).stateMachine.data[key]?
          = (effects w.log key w.log.length).card ∧
        w.okCalls.card ≤ counterOf (replay w.log).stateMachine.data[key]?) := by
  have h : w.Inv json peers key :=
    Machine.invariant (I := fun w => w.Inv json peers key) (fun _ _ _ hw hstep => hw.step hstep)
      (ClusterCounter.inv_init count peers key values) hrun
  refine ⟨fun s hs => ?_, fun k hk => h.effected hk, h.card_okCalls_le, fun hlate => ?_⟩
  · obtain ⟨hle, hreplay⟩ := h.replicas.nodes s hs
    rw [← counterOf_eq_tally h.replicas.log h.incremental hle, ← hreplay]
    rfl
  · have hcount := counterOf_eq_tally h.replicas.log h.incremental le_rfl
    rw [List.take_length, tally_eq_card hlate] at hcount
    rw [hcount]
    exact ⟨rfl, h.card_okCalls_le⟩

/-- Two calls have read the same value.  The answer to the second one is lost, but its
`CompareAndSet` is committed first and counts; the caller tries again, once from a node that has
fallen behind. -/
def sampleIncrements : List (ClusterEvent ℕ (List ℕ)) :=
  [.other ⟨⟨1, 0⟩, .membership [1, 2]⟩, .read 0 0, .send 0, .commit 0 ⟨1, 1⟩,
    .replica (.apply 0 [false, true] none), .acknowledge 0 0, .read 0 0, .read 1 0, .send 0,
    .send 1, .fail 1 .interrupted, .commit 2 ⟨1, 2⟩, .commit 1 ⟨1, 3⟩,
    .replica (.apply 0 [true, true] none), .acknowledge 0 2, .read 0 0, .send 0,
    .replica (.apply 1 [false, false] none), .read 1 1, .send 1, .commit 4 ⟨1, 4⟩,
    .commit 3 ⟨1, 5⟩, .replica (.apply 0 [true, true] none), .acknowledge 0 4,
    .acknowledge 1 3, .read 1 0, .send 1, .commit 5 ⟨1, 6⟩, .replica (.apply 0 [true] none),
    .acknowledge 1 5]

theorem acknowledged_increments_kept_sample :
    ∃ w, (clusterCounter sampleJson "k").run (.init 2 1 "k" ["x", "x"]) sampleIncrements = some w ∧
      w.okCalls = {0, 1} ∧ effects w.log "k" w.log.length = {2, 5, 6} ∧
      counterOf (replay w.log).stateMachine.data["k"]? = 3 := by
  have hend : ((clusterCounter sampleJson "k").run (.init 2 1 "k" ["x", "x"])
      sampleIncrements).any (fun w =>
        decide (w.okCalls = {0, 1}) && decide (effects w.log "k" w.log.length = {2, 5, 6}) &&
          decide (∀ i < w.log.length, resets w.log "k" i = true → effects w.log "k" i = ∅))
        = true := by
    decide +kernel
  obtain ⟨w, hrun, hw⟩ := (Option.any_eq_true _ _).mp hend
  simp only [Bool.and_eq_true, decide_eq_true_eq] at hw
  obtain ⟨⟨hok, heffects⟩, hlate⟩ := hw
  obtain ⟨-, -, -, hcount⟩ :=
    acknowledged_increments_kept sampleJson 2 1 "k" ["x", "x"] sampleIncrements w hrun
  refine ⟨w, hrun, hok, heffects, ?_⟩
  rw [(hcount hlate).1, heffects]
  rfl

end RaftBench.OpenRaft

import RaftBench.Lib.Machine
import RaftBench.Lib.Update
import RaftBench.OpenRaft.StateMachine

/-!
# Concurrent increments of one key

Any number of `do_compare_and_set` calls share one key of the server.  Each is the program of
`RaftBench.OpenRaft.Client`, advanced one operation at a time: the server serves an attempt and
its answer is on the way, the answer arrives, a redirect is followed.  Which call moves next is
arbitrary.

The read and the `CompareAndSet` of a call belong together through the version: a write that finds
the version it expects finds the value the call has read, because every applied write has a version
of its own (`CallState.writing`).  So each successful call adds exactly one.  The initialising
`Set("0")` has no such guard.  A call that has found the key absent resets it whatever has happened
since, and `increments_kept_iff` makes the resets of a non-zero counter the one thing that loses
increments.
-/

namespace RaftBench.OpenRaft

/-! ## The machine -/

/-- A call; while `waiting`, `prog` is what it goes on with when the answer arrives. -/
structure Call where
  prog : Client (Except String Unit)
  waiting : Bool := false

structure Counter where
  store : KvState
  calls : List Call

/-- The calls at their beginning. -/
def Counter.init (peers : ℕ) (key : String) (store : KvState) (values : List String) : Counter :=
  ⟨store, values.map fun value => { prog := doCompareAndSet peers key value }⟩

inductive CounterEvent where
  /-- the attempt of call `k` reaches the leader; a write is committed at `index` -/
  | serve (k : ℕ) (index : UInt64)
  /-- the write of call `k` reaches a node that names another one as the leader -/
  | redirect (k : ℕ) (addr : String)
  /-- the answer to call `k` arrives -/
  | deliver (k : ℕ)
  /-- call `k` moves the tracked leader -/
  | track (k : ℕ)
  deriving DecidableEq, Repr

/-- Log indices grow with every write. -/
def KvState.admits (s : KvState) (index : UInt64) : Body → Bool
  | .key _ => true
  | .request _ => s.lastApplied < index

def counterStep (w : Counter) : CounterEvent → Option Counter
  | .serve k index =>
      match w.calls[k]? with
      | some ⟨.call (.attempt _ body) next, false⟩ =>
          if w.store.admits index body then
            some ⟨(w.store.serve index body).1,
              w.calls.set k ⟨next (.replied (some (w.store.serve index body).2)), true⟩⟩
          else none
      | _ => none
  | .redirect k addr =>
      match w.calls[k]? with
      | some ⟨.call (.attempt _ (.request _)) next, false⟩ =>
          some { w with
            calls := w.calls.set k ⟨next (.replied (some (forwardAnswer addr))), true⟩ }
      | _ => none
  | .deliver k =>
      match w.calls[k]? with
      | some ⟨prog, true⟩ => some { w with calls := w.calls.set k ⟨prog, false⟩ }
      | _ => none
  | .track k =>
      match w.calls[k]? with
      | some ⟨.call (.setLeader _) next, false⟩ =>
          some { w with calls := w.calls.set k ⟨next (), false⟩ }
      | some ⟨.call .rotate next, false⟩ =>
          some { w with calls := w.calls.set k ⟨next (), false⟩ }
      | _ => none

def counterMachine : Machine Counter CounterEvent where
  step := counterStep

/-- The possible steps, with their guards and their effect. -/
inductive CounterStep (w : Counter) : CounterEvent → Counter → Prop where
  | serves (k : ℕ) (index : UInt64) (path : String) (body : Body)
      (next : Outcome → Client (Except String Unit))
      (found : w.calls[k]? = some ⟨.call (.attempt path body) next, false⟩)
      (admits : w.store.admits index body = true) :
      CounterStep w (.serve k index)
        ⟨(w.store.serve index body).1,
          w.calls.set k ⟨next (.replied (some (w.store.serve index body).2)), true⟩⟩
  | redirects (k : ℕ) (addr path : String) (req : Request)
      (next : Outcome → Client (Except String Unit))
      (found : w.calls[k]? = some ⟨.call (.attempt path (.request req)) next, false⟩) :
      CounterStep w (.redirect k addr)
        { w with calls := w.calls.set k ⟨next (.replied (some (forwardAnswer addr))), true⟩ }
  | delivers (k : ℕ) (prog : Client (Except String Unit))
      (found : w.calls[k]? = some ⟨prog, true⟩) :
      CounterStep w (.deliver k) { w with calls := w.calls.set k ⟨prog, false⟩ }
  | tracks (k : ℕ) (addr : String) (next : Unit → Client (Except String Unit))
      (found : w.calls[k]? = some ⟨.call (.setLeader addr) next, false⟩) :
      CounterStep w (.track k) { w with calls := w.calls.set k ⟨next (), false⟩ }
  | rotates (k : ℕ) (next : Unit → Client (Except String Unit))
      (found : w.calls[k]? = some ⟨.call .rotate next, false⟩) :
      CounterStep w (.track k) { w with calls := w.calls.set k ⟨next (), false⟩ }

/-- **What one step can do.** -/
theorem counter_step {w w' : Counter} {e : CounterEvent}
    (h : counterMachine.step w e = some w') : CounterStep w e w' := by
  simp only [counterMachine] at h
  cases e with
  | serve k index =>
      simp only [counterStep] at h
      split at h
      · next path body next found =>
          split_ifs at h with hadmits
          obtain rfl := Option.some.inj h
          exact .serves k index path body next found hadmits
      · simp at h
  | redirect k addr =>
      simp only [counterStep] at h
      split at h
      · next path req next found =>
          obtain rfl := Option.some.inj h
          exact .redirects k addr path req next found
      · simp at h
  | deliver k =>
      simp only [counterStep] at h
      split at h
      · next prog found =>
          obtain rfl := Option.some.inj h
          exact .delivers k prog found
      · simp at h
  | track k =>
      simp only [counterStep] at h
      split at h
      · next addr next found =>
          obtain rfl := Option.some.inj h
          exact .tracks k addr next found
      · next next found =>
          obtain rfl := Option.some.inj h
          exact .rotates k next found
      · simp at h

/-! ## Where a call stands -/

variable {peers : ℕ} {key value : String}

/-- The call has its `Ok(())`, perhaps still on the way. -/
def isOk : Client (Except String Unit) → Bool
  | .ret (.ok ()) => true
  | _ => false

lemma isOk_compareAndSetLoop (n : ℕ) : isOk (compareAndSetLoop peers key value n) = false := by
  cases n with
  | zero => rfl
  | succ n => rw [compareAndSetLoop_succ]; rfl

lemma isOk_initialising (m n : ℕ) :
    isOk (postLoop "write" (.request (.set key "0")) m >>= fun _ =>
      compareAndSetLoop peers key value n) = false := by
  cases m with
  | zero => exact isOk_compareAndSetLoop n
  | succ m => rw [postLoop_succ]; rfl

/-- What is left of a `do_compare_and_set` call.  A call about to write knows a version that was
current when it read, and the value that goes with it. -/
inductive CallState (peers : ℕ) (key value : String) (s : KvState) :
    Client (Except String Unit) → Prop where
  | looping (n : ℕ) : CallState peers key value s (compareAndSetLoop peers key value n)
  | initialising (m n : ℕ) :
      CallState peers key value s
        (postLoop "write" (.request (.set key "0")) m >>= fun _ =>
          compareAndSetLoop peers key value n)
  | writing (n : ℕ) (version : UInt64) (current : String) (known : version ≤ s.lastApplied)
      (read : ∀ vv, s.data key = some vv → vv.version = version → vv.value = current) :
      CallState peers key value s
        (.call (.attempt "write"
          (.request (.compareAndSet key version (nextValue current value))))
          (casWriteNext peers key value n))
  | redirected (addr : String) (prog : Client (Except String Unit))
      (h : CallState peers key value s prog) (unsettled : isOk prog = false) :
      CallState peers key value s (.call (.setLeader addr) fun _ => prog)
  | returned (r : Except String Unit) : CallState peers key value s (.ret r)

/-- What a call can ask the server for, and what it does with the answer. -/
inductive Asks (peers : ℕ) (key value : String) (s : KvState) :
    Body → (Outcome → Client (Except String Unit)) → Prop where
  | read (n : ℕ) : Asks peers key value s (.key key) (casReadNext peers key value n)
  | init (m n : ℕ) :
      Asks peers key value s (.request (.set key "0")) fun o =>
        postNext "write" (.request (.set key "0")) m o >>= fun _ =>
          compareAndSetLoop peers key value n
  | write (n : ℕ) (version : UInt64) (current : String) (known : version ≤ s.lastApplied)
      (read : ∀ vv, s.data key = some vv → vv.version = version → vv.value = current) :
      Asks peers key value s (.request (.compareAndSet key version (nextValue current value)))
        (casWriteNext peers key value n)

lemma asks_of_looping {s : KvState} {n : ℕ} {path : String} {body : Body}
    {next : Outcome → Client (Except String Unit)}
    (h : compareAndSetLoop peers key value n = .call (.attempt path body) next) :
    Asks peers key value s body next := by
  cases n with
  | zero => simp [compareAndSetLoop] at h
  | succ n =>
      rw [compareAndSetLoop_succ] at h
      injection h with hop hnext
      injection hop with hpath hbody
      subst hbody
      obtain rfl := hnext
      exact .read n

lemma CallState.asks {s : KvState} {path : String} {body : Body}
    {next : Outcome → Client (Except String Unit)}
    (h : CallState peers key value s (.call (.attempt path body) next)) :
    Asks peers key value s body next := by
  generalize hp : (Prog.call (.attempt path body) next : Client (Except String Unit)) = p at h
  cases h with
  | looping n => exact asks_of_looping hp.symm
  | initialising m n =>
      cases m with
      | zero => exact asks_of_looping hp.symm
      | succ m =>
          rw [postLoop_succ, Prog.call_bind] at hp
          injection hp with hop hnext
          injection hop with hpath hbody
          subst hbody
          obtain rfl := hnext
          exact .init m n
  | writing n version current known read =>
      injection hp with hop hnext
      injection hop with hpath hbody
      subst hbody
      obtain rfl := hnext
      exact .write n version current known read
  | redirected addr prog h _ => simp at hp
  | returned r => simp at hp

/-! ## What holds of the store and of every call -/

/-- The key holds a numeral, in a version that has been applied. -/
def StoreOk (key : String) (s : KvState) : Prop :=
  ∀ vv, s.data key = some vv →
    vv.version ≤ s.lastApplied ∧ ∃ n, n < 2 ^ 64 ∧ vv.value = numeral n

/-- One state of the store comes after another: what the key holds was there, or is newer. -/
def Later (key : String) (s s' : KvState) : Prop :=
  s.lastApplied ≤ s'.lastApplied ∧
    ∀ vv, s'.data key = some vv → s.data key = some vv ∨ s.lastApplied < vv.version

lemma later_refl (s : KvState) : Later key s s := ⟨UInt64.le_refl _, fun _ => Or.inl⟩

lemma later_set {s : KvState} {index : UInt64} (h : s.lastApplied < index) (text : String) :
    Later key s ⟨Function.update s.data key (some ⟨text, index⟩), index⟩ := by
  refine ⟨UInt64.le_of_lt h, ?_⟩
  intro vv hvv
  simp only [Function.update_self, Option.some.injEq] at hvv
  subst hvv
  exact Or.inr h

lemma later_skip {s : KvState} {index : UInt64} (h : s.lastApplied < index) :
    Later key s ⟨s.data, index⟩ := ⟨UInt64.le_of_lt h, fun _ => Or.inl⟩

/-- A call stands where it stood, whatever is applied meanwhile: its version is still the one it
read, or has been overwritten. -/
lemma CallState.later {s s' : KvState} (h : Later key s s') {p : Client (Except String Unit)}
    (hp : CallState peers key value s p) : CallState peers key value s' p := by
  induction hp with
  | looping n => exact .looping n
  | initialising m n => exact .initialising m n
  | writing n version current known read =>
      refine .writing n version current (UInt64.le_trans known h.1) ?_
      intro vv hvv hversion
      rcases h.2 vv hvv with hold | hnew
      · exact read vv hold hversion
      · subst hversion
        exact absurd (UInt64.lt_of_le_of_lt known hnew) (UInt64.lt_irrefl _)
  | redirected addr prog _ hok ih => exact .redirected addr prog ih hok
  | returned r => exact .returned r

lemma storeOk_set {s : KvState} {index : UInt64} {n : ℕ} (hn : n < 2 ^ 64) :
    StoreOk key ⟨Function.update s.data key (some ⟨numeral n, index⟩), index⟩ := by
  intro vv hvv
  simp only [Function.update_self, Option.some.injEq] at hvv
  subst hvv
  exact ⟨UInt64.le_refl _, n, hn, rfl⟩

lemma storeOk_skip {s : KvState} {index : UInt64} (hs : StoreOk key s)
    (h : s.lastApplied < index) : StoreOk key ⟨s.data, index⟩ := by
  intro vv hvv
  obtain ⟨hle, hnumeral⟩ := hs vv hvv
  exact ⟨UInt64.le_trans hle (UInt64.le_of_lt h), hnumeral⟩

/-- Where a call stands after its read was served. -/
lemma callState_read {s : KvState} (hs : StoreOk key s) (n : ℕ) :
    CallState peers key value s
      (casReadNext peers key value n (.replied (some (readAnswer (s.data key))))) := by
  simp only [casReadNext, readReply_readAnswer]
  cases hdata : s.data key with
  | none => exact .initialising _ n
  | some vv =>
      refine .writing n vv.version vv.value (hs vv hdata).1 ?_
      intro vv' hvv' _
      rw [hdata, Option.some.injEq] at hvv'
      rw [hvv']

/-- Where a call stands after it was redirected. -/
lemma callState_redirect {s : KvState} {req : Request}
    {next : Outcome → Client (Except String Unit)}
    (h : Asks peers key value s (.request req) next) (addr : String) :
    CallState peers key value s (next (.replied (some (forwardAnswer addr)))) ∧
      isOk (next (.replied (some (forwardAnswer addr)))) = false := by
  cases h with
  | init m n =>
      simp only [postNext, extractForwardToLeader_forwardAnswer, Prog.call_bind]
      exact ⟨.redirected addr _ (.initialising m n) (isOk_initialising m n), rfl⟩
  | write n version current known read =>
      simp only [casWriteNext, extractForwardToLeader_forwardAnswer]
      exact ⟨.redirected addr _ (.looping n) (isOk_compareAndSetLoop n), rfl⟩

/-- A write that was applied settles the call. -/
lemma casWriteNext_applied (n : ℕ) (vv : VersionedValue) :
    casWriteNext peers key value n (.replied (some (writeAnswer (some vv)))) = .ret (.ok ()) := by
  simp only [casWriteNext, extractForwardToLeader_writeAnswer, isCasMismatch_writeAnswer]
  rfl

/-- A mismatch sends it back to the read. -/
lemma casWriteNext_mismatch (n : ℕ) :
    casWriteNext peers key value n (.replied (some (writeAnswer none)))
      = compareAndSetLoop peers key value n := by
  simp only [casWriteNext, extractForwardToLeader_writeAnswer, isCasMismatch_writeAnswer]
  rfl

/-- The first thing the loop does is an attempt. -/
lemma op_of_looping {n : ℕ} {op : ClientOp} {next : op.Ans → Client (Except String Unit)}
    (h : compareAndSetLoop peers key value n = .call op next) :
    ∃ path body, op = .attempt path body := by
  cases n with
  | zero => simp [compareAndSetLoop] at h
  | succ n =>
      rw [compareAndSetLoop_succ] at h
      injection h with hop _
      exact ⟨_, _, hop.symm⟩

lemma op_of_initialising {m n : ℕ} {op : ClientOp}
    {next : op.Ans → Client (Except String Unit)}
    (h : (postLoop "write" (.request (.set key "0")) m >>= fun _ =>
      compareAndSetLoop peers key value n) = .call op next) :
    ∃ path body, op = .attempt path body := by
  cases m with
  | zero => exact op_of_looping h
  | succ m =>
      rw [postLoop_succ, Prog.call_bind] at h
      injection h with hop _
      exact ⟨_, _, hop.symm⟩

/-- Where a call stands after it has moved the tracked leader. -/
lemma callState_track {s : KvState} {addr : String} {next : Unit → Client (Except String Unit)}
    (h : CallState peers key value s (.call (.setLeader addr) next)) :
    CallState peers key value s (next ()) ∧ isOk (next ()) = false := by
  generalize hp : (Prog.call (.setLeader addr) next : Client (Except String Unit)) = p at h
  cases h with
  | looping n =>
      obtain ⟨path, body, hop⟩ := op_of_looping hp.symm
      exact ClientOp.noConfusion hop
  | initialising m n =>
      obtain ⟨path, body, hop⟩ := op_of_initialising hp.symm
      exact ClientOp.noConfusion hop
  | writing n version current known read => simp at hp
  | redirected addr' prog h hok =>
      injection hp with _ hnext
      obtain rfl := hnext
      exact ⟨h, hok⟩
  | returned r => simp at hp

/-- `rotate` answers a transport failure, and there are none. -/
lemma callState_rotate {s : KvState} {next : Unit → Client (Except String Unit)} :
    ¬ CallState peers key value s (.call .rotate next) := by
  intro h
  generalize hp : (Prog.call .rotate next : Client (Except String Unit)) = p at h
  cases h with
  | looping n =>
      obtain ⟨path, body, hop⟩ := op_of_looping hp.symm
      exact ClientOp.noConfusion hop
  | initialising m n =>
      obtain ⟨path, body, hop⟩ := op_of_initialising hp.symm
      exact ClientOp.noConfusion hop
  | writing n version current known read => simp at hp
  | redirected addr prog h _ => simp at hp
  | returned r => simp at hp

/-- The invariant of the machine. -/
structure CounterInv (peers : ℕ) (key : String) (w : Counter) : Prop where
  store : StoreOk key w.store
  calls : ∀ call ∈ w.calls, ∃ value, CallState peers key value w.store call.prog

lemma counterInv_init {store : KvState} (habsent : store.data key = none) (values : List String) :
    CounterInv peers key (.init peers key store values) := by
  refine ⟨fun vv hvv => ?_, fun call hcall => ?_⟩
  · rw [show (Counter.init peers key store values).store = store from rfl, habsent] at hvv
    simp at hvv
  · obtain ⟨value, -, rfl⟩ := List.mem_map.mp hcall
    exact ⟨value, .looping _⟩

/-- One call has moved and the store has moved on. -/
lemma CounterInv.move {w : Counter} (h : CounterInv peers key w) {s' : KvState}
    (hlater : Later key w.store s') (hstore : StoreOk key s') {k : ℕ} {call : Call}
    (hcall : CallState peers key value s' call.prog) :
    CounterInv peers key ⟨s', w.calls.set k call⟩ := by
  refine ⟨hstore, List.forall_set ?_ ⟨value, hcall⟩ k⟩
  intro c hc
  obtain ⟨v, hv⟩ := h.calls c hc
  exact ⟨v, hv.later hlater⟩

/-! ## What a step does to the counter -/

/-- The number the key holds. -/
def Counter.count (key : String) (w : Counter) : ℕ := counterOf (w.store.data key)

/-- The increments that were applied: the calls that have their `Ok(())`. -/
def Counter.increments (w : Counter) : ℕ := w.calls.countP fun call => isOk call.prog

/-- Call `k` is about to send its initialising `Set`. -/
def Counter.initialises (w : Counter) (k : ℕ) : Bool :=
  match w.calls[k]? with
  | some ⟨.call (.attempt _ (.request (.set _ _))) _, false⟩ => true
  | _ => false

/-- An initialising `Set` is applied only while the counter is 0. -/
def InitFresh (key : String) (w : Counter) : CounterEvent → Prop
  | .serve k _ => w.initialises k = true → w.count key = 0
  | _ => True

instance (key : String) (w : Counter) : (e : CounterEvent) → Decidable (InitFresh key w e)
  | .serve k _ => inferInstanceAs (Decidable (w.initialises k = true → w.count key = 0))
  | .redirect _ _ => isTrue trivial
  | .deliver _ => isTrue trivial
  | .track _ => isTrue trivial

/-- A step leaves the counter, adds one to it for one more `Ok(())`, or resets it. -/
inductive Effect (key : String) (w : Counter) (e : CounterEvent) (w' : Counter) : Prop where
  | quiet (fresh : InitFresh key w e) (count : w'.count key = w.count key)
      (increments : w'.increments = w.increments)
  | adds (fresh : InitFresh key w e)
      (count : w.count key < 2 ^ 64 - 1 → w'.count key = w.count key + 1)
      (increments : w'.increments = w.increments + 1)
  | resets (fresh : InitFresh key w e ↔ w.count key = 0) (count : w'.count key = 0)
      (increments : w'.increments = w.increments)

lemma increments_set {calls : List Call} {k : ℕ} {call : Call} (found : calls[k]? = some call)
    (call' : Call) (s s' : KvState) :
    (⟨s', calls.set k call'⟩ : Counter).increments + (isOk call.prog).toNat
      = (⟨s, calls⟩ : Counter).increments + (isOk call'.prog).toNat :=
  List.countP_set_add (fun c : Call => isOk c.prog) found call'

/-- A read changes nothing but the call. -/
lemma step_read {w : Counter} (h : CounterInv peers key w) {k n : ℕ} {index : UInt64}
    {path : String}
    (found : w.calls[k]?
      = some ⟨.call (.attempt path (.key key)) (casReadNext peers key value n), false⟩) :
    let w' : Counter := ⟨w.store, w.calls.set k
      ⟨casReadNext peers key value n (.replied (some (readAnswer (w.store.data key)))), true⟩⟩
    CounterInv peers key w' ∧ Effect key w (.serve k index) w' := by
  have hopen : isOk (casReadNext peers key value n
      (.replied (some (readAnswer (w.store.data key))))) = false := by
    simp only [casReadNext, readReply_readAnswer]
    cases w.store.data key with
    | none => exact isOk_initialising _ n
    | some vv => rfl
  refine ⟨h.move (later_refl _) h.store (callState_read h.store n), ?_⟩
  refine .quiet ?_ rfl ?_
  · simp [InitFresh, Counter.initialises, found]
  · have hcount := increments_set found ⟨casReadNext peers key value n
      (.replied (some (readAnswer (w.store.data key)))), true⟩ w.store w.store
    rw [hopen] at hcount
    exact hcount

/-- The initialising `Set` resets the counter. -/
lemma step_init {w : Counter} (h : CounterInv peers key w) {k m n : ℕ} {index : UInt64}
    {path : String} (hindex : w.store.lastApplied < index)
    (found : w.calls[k]? = some ⟨.call (.attempt path (.request (.set key "0"))) fun o =>
      postNext "write" (.request (.set key "0")) m o >>= fun _ =>
        compareAndSetLoop peers key value n, false⟩) :
    let w' : Counter := ⟨⟨Function.update w.store.data key (some ⟨"0", index⟩), index⟩,
      w.calls.set k ⟨compareAndSetLoop peers key value n, true⟩⟩
    CounterInv peers key w' ∧ Effect key w (.serve k index) w' := by
  have hzero : "0" = numeral 0 := by decide
  refine ⟨h.move (later_set hindex "0") ?_ (.looping n), ?_⟩
  · rw [hzero]
    exact storeOk_set (by decide)
  · refine .resets ?_ ?_ ?_
    · simp [InitFresh, Counter.initialises, found]
    · simp only [Counter.count, Function.update_self]
      rw [hzero, counterOf_numeral (by decide)]
    · have hcount := increments_set found ⟨compareAndSetLoop peers key value n, true⟩ w.store
        ⟨Function.update w.store.data key (some ⟨"0", index⟩), index⟩
      rw [isOk_compareAndSetLoop] at hcount
      exact hcount

/-- A write that finds another version changes nothing but the call. -/
lemma step_mismatch {w : Counter} (h : CounterInv peers key w) {k n : ℕ} {index : UInt64}
    {path : String} {req : Request} {next : Outcome → Client (Except String Unit)}
    (hindex : w.store.lastApplied < index) (hset : ∀ key' text, req ≠ .set key' text)
    (found : w.calls[k]? = some ⟨.call (.attempt path (.request req)) next, false⟩) :
    let w' : Counter := ⟨⟨w.store.data, index⟩,
      w.calls.set k ⟨compareAndSetLoop peers key value n, true⟩⟩
    CounterInv peers key w' ∧ Effect key w (.serve k index) w' := by
  refine ⟨h.move (later_skip hindex) (storeOk_skip h.store hindex) (.looping n), ?_⟩
  refine .quiet ?_ rfl ?_
  · cases req with
    | set key' text => exact absurd rfl (hset key' text)
    | compareAndSet key' version text => simp [InitFresh, Counter.initialises, found]
  · have hcount := increments_set found ⟨compareAndSetLoop peers key value n, true⟩ w.store
      ⟨w.store.data, index⟩
    rw [isOk_compareAndSetLoop] at hcount
    exact hcount

/-- A write that finds the version it expects adds one to the value the call has read. -/
lemma step_match {w : Counter} (h : CounterInv peers key w) {k : ℕ} {index version : UInt64}
    {path current : String} {next : Outcome → Client (Except String Unit)} {vv : VersionedValue}
    (hindex : w.store.lastApplied < index) (hdata : w.store.data key = some vv)
    (hread : vv.value = current)
    (found : w.calls[k]? = some ⟨.call (.attempt path
      (.request (.compareAndSet key version (nextValue current value)))) next, false⟩) :
    let w' : Counter :=
      ⟨⟨Function.update w.store.data key (some ⟨nextValue current value, index⟩), index⟩,
        w.calls.set k ⟨.ret (.ok ()), true⟩⟩
    CounterInv peers key w' ∧ Effect key w (.serve k index) w' := by
  obtain ⟨-, n, hn, hnumeral⟩ := h.store vv hdata
  have hnext : nextValue current value = numeral ((n + 1) % 2 ^ 64) := by
    rw [← hread, hnumeral, nextValue_numeral hn]
  have hsmall : (n + 1) % 2 ^ 64 < 2 ^ 64 := Nat.mod_lt _ (by decide)
  have hcounter : w.count key = n := by
    rw [Counter.count, hdata]
    obtain ⟨text, version'⟩ := vv
    subst hnumeral
    exact counterOf_numeral hn version'
  have hreturned : CallState peers key value
      ⟨Function.update w.store.data key (some ⟨nextValue current value, index⟩), index⟩
      (.ret (.ok ())) := .returned (.ok ())
  refine ⟨h.move (later_set hindex _) ?_ hreturned, ?_⟩
  · rw [hnext]
    exact storeOk_set hsmall
  · refine .adds ?_ ?_ ?_
    · simp [InitFresh, Counter.initialises, found]
    · intro hbound
      rw [hcounter] at hbound ⊢
      simp only [Counter.count, Function.update_self]
      rw [hnext, counterOf_numeral hsmall, Nat.mod_eq_of_lt (by omega)]
    · have hcount := increments_set found ⟨.ret (.ok ()), true⟩ w.store
        ⟨Function.update w.store.data key (some ⟨nextValue current value, index⟩), index⟩
      exact hcount

/-- A step of the client alone: the store stays, and so does the `Ok` of the call. -/
lemma step_client {w : Counter} (h : CounterInv peers key w) {e : CounterEvent} {k : ℕ}
    {call call' : Call} (hfresh : InitFresh key w e) (found : w.calls[k]? = some call)
    (hcall : CallState peers key value w.store call'.prog)
    (hok : isOk call'.prog = isOk call.prog) :
    let w' : Counter := { w with calls := w.calls.set k call' }
    CounterInv peers key w' ∧ Effect key w e w' := by
  refine ⟨h.move (later_refl _) h.store hcall, .quiet hfresh rfl ?_⟩
  have hcount := increments_set found call' w.store w.store
  rw [hok] at hcount
  exact Nat.add_right_cancel hcount

/-- **Every step keeps the invariant**, and has one of the three effects. -/
lemma counterInv_step {w w' : Counter} {e : CounterEvent} (h : CounterInv peers key w)
    (hstep : CounterStep w e w') : CounterInv peers key w' ∧ Effect key w e w' := by
  cases hstep with
  | serves k index path body next found admits =>
      obtain ⟨value, hcall⟩ := h.calls _ (List.mem_of_getElem? found)
      cases hcall.asks with
      | read n => exact step_read h found
      | init m n =>
          have hindex : w.store.lastApplied < index := by simpa [KvState.admits] using admits
          exact step_init h hindex found
      | write n version current known read =>
          have hindex : w.store.lastApplied < index := by simpa [KvState.admits] using admits
          cases hmatch : (w.store.data key).any (fun vv => vv.version == version) with
          | true =>
              obtain ⟨vv, hdata, hversion⟩ := (Option.any_eq_true _ _).mp hmatch
              have happly := w.store.apply_match (nextValue current value) index hmatch
              simp only [KvState.serve, happly, casWriteNext_applied]
              exact step_match h hindex hdata (read vv hdata (by simpa using hversion)) found
          | false =>
              have happly := w.store.apply_mismatch (nextValue current value) index hmatch
              simp only [KvState.serve, happly, casWriteNext_mismatch]
              exact step_mismatch h hindex (by simp) found
  | redirects k addr path req next found =>
      obtain ⟨value, hcall⟩ := h.calls _ (List.mem_of_getElem? found)
      obtain ⟨hnext, hok⟩ := callState_redirect hcall.asks addr
      exact step_client h trivial found hnext hok
  | delivers k prog found =>
      obtain ⟨value, hcall⟩ := h.calls _ (List.mem_of_getElem? found)
      exact step_client h trivial found hcall rfl
  | tracks k addr next found =>
      obtain ⟨value, hcall⟩ := h.calls _ (List.mem_of_getElem? found)
      obtain ⟨hnext, hok⟩ := callState_track hcall
      exact step_client h trivial found hnext hok
  | rotates k next found =>
      obtain ⟨value, hcall⟩ := h.calls _ (List.mem_of_getElem? found)
      exact absurd hcall callState_rotate

/-! ## Runs -/

/-- Once some call has returned `Ok(())`, the step does not decrease the counter. -/
def CounterKept (key : String) (w : Counter) (e : CounterEvent) : Prop :=
  (∃ call ∈ w.calls, call.waiting = false ∧ isOk call.prog = true) →
    ∀ w', counterMachine.step w e = some w' → w.count key ≤ w'.count key

/-- The call has returned. -/
def Call.isFinished (call : Call) : Bool :=
  match call.prog with
  | .ret _ => !call.waiting
  | .call _ _ => false

/-- The calls that have returned `Ok(())`. -/
def Counter.returnedOk (w : Counter) : ℕ :=
  w.calls.countP fun call => !call.waiting && isOk call.prog

/-- What a run has done to the counter, as long as it does not overflow: a run without late
initialisations has counted every increment and never gone back, any other has lost some. -/
def Counted (key : String) (init : Counter) (events : List CounterEvent) (w : Counter) : Prop :=
  ((counterMachine.Along (InitFresh key) init events ∧ w.count key = w.increments) ∨
      (¬ counterMachine.Along (InitFresh key) init events ∧ w.count key < w.increments)) ∧
    (counterMachine.Along (InitFresh key) init events →
      counterMachine.Along (CounterKept key) init events)

lemma Effect.increments_le {w w' : Counter} {e : CounterEvent} (h : Effect key w e w') :
    w.increments ≤ w'.increments := by
  cases h with
  | quiet _ _ increments => exact increments.ge
  | adds _ _ increments => omega
  | resets _ _ increments => exact increments.ge

/-- **One more step.** -/
lemma counted_step {init w w' : Counter} {events : List CounterEvent} {e : CounterEvent}
    (h : Counted key init events w) (hrun : counterMachine.run init events = some w)
    (hstep : counterMachine.step w e = some w') (heffect : Effect key w e w')
    (hbound : w.increments < 2 ^ 64 - 1) : Counted key init (events ++ [e]) w' := by
  obtain ⟨hcount, hkept⟩ := h
  have hle : w.count key ≤ w.increments := by
    rcases hcount with ⟨-, hcount⟩ | ⟨-, hcount⟩ <;> omega
  have hfresh : counterMachine.Along (InitFresh key) init (events ++ [e]) ↔
      counterMachine.Along (InitFresh key) init events ∧ InitFresh key w e :=
    Machine.along_concat_of_run hrun
  have hkept' (hlast : w.count key ≤ w'.count key)
      (halong : counterMachine.Along (InitFresh key) init (events ++ [e])) :
      counterMachine.Along (CounterKept key) init (events ++ [e]) := by
    refine (Machine.along_concat_of_run hrun).mpr ⟨hkept (hfresh.mp halong).1, ?_⟩
    intro _ t' ht'
    obtain rfl : w' = t' := Option.some.inj (hstep.symm.trans ht')
    exact hlast
  cases heffect with
  | quiet fresh count increments =>
      refine ⟨?_, hkept' count.ge⟩
      rw [hfresh, count, increments]
      simpa [fresh] using hcount
  | adds fresh count increments =>
      have hnext := count (by omega)
      refine ⟨?_, hkept' (by omega)⟩
      rw [hfresh, hnext, increments]
      simpa [fresh] using hcount
  | resets fresh count increments =>
      constructor
      · rw [hfresh, fresh, count, increments]
        rcases hcount with ⟨halong, hcount⟩ | ⟨halong, hcount⟩
        · rcases Nat.eq_zero_or_pos (w.count key) with hzero | hpos
          · exact Or.inl ⟨⟨halong, hzero⟩, by omega⟩
          · exact Or.inr ⟨fun hboth => by omega, by omega⟩
        · exact Or.inr ⟨fun hboth => halong hboth.1, by omega⟩
      · intro halong
        exact hkept' (by rw [fresh.mp (hfresh.mp halong).2]; exact Nat.zero_le _) halong

/-- The counter of every run in which it does not overflow. -/
lemma counted_run {store : KvState} {values : List String} {events : List CounterEvent}
    {w : Counter} (habsent : store.data key = none)
    (hrun : counterMachine.run (.init peers key store values) events = some w) :
    CounterInv peers key w ∧
      (w.increments < 2 ^ 64 - 1 → Counted key (.init peers key store values) events w) := by
  refine Machine.invariant_trace (I := fun es s => CounterInv peers key s ∧
    (s.increments < 2 ^ 64 - 1 → Counted key (.init peers key store values) es s)) ?_ ?_ hrun
  · refine ⟨counterInv_init habsent values, fun _ => ⟨Or.inl ⟨trivial, ?_⟩, fun _ => trivial⟩⟩
    have hcount : (Counter.init peers key store values).count key = 0 := by
      simp [Counter.count, Counter.init, habsent, counterOf]
    have hincrements : (Counter.init peers key store values).increments = 0 := by
      simp [Counter.increments, Counter.init, doCompareAndSet, isOk_compareAndSetLoop]
    rw [hcount, hincrements]
  · rintro es e s s' hs ⟨hinv, hcounted⟩ hstep
    obtain ⟨hinv', heffect⟩ := counterInv_step hinv (counter_step hstep)
    refine ⟨hinv', fun hbound => ?_⟩
    have hbefore : s.increments < 2 ^ 64 - 1 := heffect.increments_le.trans_lt hbound
    exact counted_step (hcounted hbefore) hs hstep heffect hbefore

lemma returnedOk_of_finished {w : Counter} (h : ∀ call ∈ w.calls, call.isFinished = true) :
    w.returnedOk = w.increments := by
  refine List.countP_congr fun call hcall => ?_
  have hfinished := h call hcall
  unfold Call.isFinished at hfinished
  split at hfinished
  · simp at hfinished
    simp [hfinished]
  · simp at hfinished

/-- **When no increment is lost.**  For every number of calls on a key that is absent at first, and
every interleaving of their steps: if an initialising `Set("0")` is applied only while the counter
is still 0, no step decreases the counter once a call has returned `Ok(())`; and when all calls have
finished, the counter is the number of those that returned `Ok(())` exactly in this case. -/
theorem increments_kept_iff (peers : ℕ) (key : String) (store : KvState) (values : List String)
    (events : List CounterEvent) (w : Counter) (habsent : store.data key = none)
    (hrun : counterMachine.run (.init peers key store values) events = some w)
    (hbound : w.increments < 2 ^ 64 - 1) :
    (counterMachine.Along (InitFresh key) (.init peers key store values) events →
        counterMachine.Along (CounterKept key) (.init peers key store values) events) ∧
      ((∀ call ∈ w.calls, call.isFinished = true) →
        (w.count key = w.returnedOk ↔
          counterMachine.Along (InitFresh key) (.init peers key store values) events)) := by
  obtain ⟨hcount, hkept⟩ := (counted_run habsent hrun).2 hbound
  refine ⟨hkept, fun hfinished => ?_⟩
  rw [returnedOk_of_finished hfinished]
  rcases hcount with ⟨halong, hcount⟩ | ⟨halong, hcount⟩
  · exact iff_of_true hcount halong
  · exact iff_of_false hcount.ne halong

/-- A server that has applied nothing. -/
def emptyStore : KvState := ⟨fun _ => none, 0⟩

/-- One call that finds the key absent, initialises it and adds one. -/
def loneIncrement : List CounterEvent :=
  [.serve 0 0, .deliver 0, .serve 0 1, .deliver 0, .serve 0 0, .deliver 0, .serve 0 2, .deliver 0]

/-- What the run of one call ends in. -/
theorem increments_kept_lone :
    ∃ w, counterMachine.run (.init 1 "k" emptyStore ["v"]) loneIncrement = some w ∧
      w.count "k" = w.returnedOk ∧ w.returnedOk = 1 ∧
      counterMachine.Along (CounterKept "k") (.init 1 "k" emptyStore ["v"]) loneIncrement := by
  have hend : (counterMachine.run (.init 1 "k" emptyStore ["v"]) loneIncrement).map
      (fun w => (w.increments, w.returnedOk, w.calls.all Call.isFinished)) = some (1, 1, true) := by
    decide +kernel
  obtain ⟨w, hrun, hw⟩ := Option.map_eq_some_iff.mp hend
  simp only [Prod.mk.injEq] at hw
  obtain ⟨hincrements, hreturned, hfinished⟩ := hw
  have halong : counterMachine.Along (InitFresh "k") (.init 1 "k" emptyStore ["v"])
      loneIncrement := by
    decide +kernel
  obtain ⟨hkept, hcount⟩ := increments_kept_iff 1 "k" emptyStore ["v"] loneIncrement w rfl hrun
    (by rw [hincrements]; decide)
  exact ⟨w, hrun, (hcount (List.all_eq_true.mp hfinished)).mpr halong, hreturned, hkept halong⟩

/-- Both calls find the key absent.  The first initialises it, adds one and returns; then the second
one's `Set("0")` is applied. -/
def lateInitialisation : List CounterEvent :=
  [.serve 0 0, .deliver 0, .serve 1 0, .deliver 1, .serve 0 1, .deliver 0, .serve 0 0, .deliver 0,
    .serve 0 2, .deliver 0, .serve 1 3, .deliver 1, .serve 1 0, .deliver 1, .serve 1 4, .deliver 1]

/-- Two calls return `Ok(())`, and the counter is 1. -/
theorem late_initialisation_loses_increment :
    ¬ ∀ (peers : ℕ) (key : String) (store : KvState) (values : List String)
      (events : List CounterEvent) (w : Counter), store.data key = none →
      counterMachine.run (.init peers key store values) events = some w →
      w.increments < 2 ^ 64 - 1 → (∀ call ∈ w.calls, call.isFinished = true) →
        w.count key = w.returnedOk := by
  intro h
  have hend : (counterMachine.run (.init 1 "k" emptyStore ["v", "v"]) lateInitialisation).map
      (fun w => (w.increments, w.returnedOk, w.count "k", w.calls.all Call.isFinished))
      = some (2, 2, 1, true) := by
    decide +kernel
  obtain ⟨w, hrun, hw⟩ := Option.map_eq_some_iff.mp hend
  simp only [Prod.mk.injEq] at hw
  obtain ⟨hincrements, hreturned, hcount, hfinished⟩ := hw
  have hequal := h 1 "k" emptyStore ["v", "v"] lateInitialisation w rfl hrun
    (by rw [hincrements]; decide) (List.all_eq_true.mp hfinished)
  omega

end RaftBench.OpenRaft

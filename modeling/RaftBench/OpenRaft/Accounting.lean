import RaftBench.Lib.Update
import RaftBench.Schedules

/-!
# Every open-loop request is accounted for once

Three parties write the books of `run_open`: the scheduler counts a request it finds no permit
for, a task counts its error or sends its `Sample`, and the collector receives the samples until
the last sender is gone.  Main reads the counters after the collector's `done`.

* `permits_run` — permits and their holders add up to `max_inflight` in every reachable state.
* `returned_run` — each task's operation is counted once, when it returns.
* `settled_run` — once the collector has closed its window nothing is left to arrive.
* `accounted_once` puts them together over `contributions`, the list of everything any request has
  added to a counter or to the channel.
-/

namespace RaftBench.OpenRaft

/-! ## Permits -/

def TaskPhase.holds : TaskPhase → Bool
  | .running => true
  | .counted => true
  | .released => false
  | .ended => false

/-- The tasks that hold a permit. -/
def RunOpen.holders (w : RunOpen) : ℕ := w.tasks.countP fun task => task.phase.holds

/-- The permit the scheduler has taken for a task that is not spawned yet. -/
def RunOpenPc.held : RunOpenPc → ℕ
  | .permitted _ _ => 1
  | _ => 0

/-- Every permit is free or held by one party. -/
def PermitsBalance (args : OpenArgs) (w : RunOpen) : Prop :=
  w.permits + w.holders + w.pc.held = args.maxInflight

/-- Moving a task to another phase takes its permit away, or leaves it. -/
lemma holders_set {tasks : List Task} {k : ℕ} {task : Task} (found : tasks[k]? = some task)
    {next : TaskPhase} {b c : Bool} (hbefore : task.phase.holds = b) (hafter : next.holds = c) :
    (tasks.set k { task with phase := next }).countP (fun t => t.phase.holds) + b.toNat
      = tasks.countP (fun t => t.phase.holds) + c.toNat := by
  rw [← hbefore, ← hafter]
  exact List.countP_set_add (fun t : Task => t.phase.holds) found { task with phase := next }

lemma permits_step {args : OpenArgs} {w v : RunOpen} {e : RunOpenEvent}
    (h : PermitsBalance args w) (hstep : RunOpenStep args w e v) : PermitsBalance args v := by
  simp only [PermitsBalance, RunOpen.holders] at h ⊢
  cases hstep with
  | idle | receives | ticks | closed => exact h
  | ends now pc | starts now pc | closes now _ _ pc | drains now pc | drained now _ pc
  | drops now _ _ pc =>
      rw [pc] at h
      exact h
  | acquires now scheduled i pc more free =>
      rw [pc] at h
      simp only [RunOpenPc.held] at h ⊢
      omega
  | spawns now scheduled i pc =>
      rw [pc] at h
      simp only [RunOpenPc.held, List.countP_append, List.countP_singleton, TaskPhase.holds,
        if_true] at h ⊢
      omega
  | returnsOk k now task found running | returnsErr k now task found running =>
      have hset := holders_set (b := true) (c := true) found (by rw [running]; rfl)
        (show TaskPhase.counted.holds = true from rfl)
      simp only [Bool.toNat_true] at hset
      dsimp only
      omega
  | releases k task found counted =>
      have hset := holders_set (b := true) (c := false) found (by rw [counted]; rfl)
        (show TaskPhase.released.holds = false from rfl)
      simp only [Bool.toNat_true, Bool.toNat_false] at hset
      dsimp only
      omega
  | taskEnds k task found released =>
      have hset := holders_set (b := false) (c := false) found (by rw [released]; rfl)
        (show TaskPhase.ended.holds = false from rfl)
      simp only [Bool.toNat_false] at hset
      dsimp only
      omega

/-- **The permits balance in every reachable state.** -/
theorem permits_run {args : OpenArgs} {events : List RunOpenEvent} {w : RunOpen}
    (hrun : (runOpen args).run (.init args) events = some w) : PermitsBalance args w := by
  refine Machine.invariant ?_ (show PermitsBalance args (.init args) from rfl) hrun
  intro s e s' hs hstep
  exact permits_step hs (runOpen_step hstep)

/-! ## The tasks and their sequence numbers -/

def isDropped : Fate → Bool
  | .dropped => true
  | .sent _ => false

/-- A number that was not dropped has one task, in the order of the numbers. -/
def Numbered (w : RunOpen) : Prop :=
  w.tasks.map Task.seq = (w.history.filter fun entry => !isDropped entry.2).map Prod.fst

lemma numbered_step {args : OpenArgs} {w v : RunOpen} {e : RunOpenEvent} (h : Numbered w)
    (hstep : RunOpenStep args w e v) : Numbered v := by
  simp only [Numbered] at h ⊢
  cases hstep with
  | idle | ends | starts | acquires | closes | drains | drained | receives | ticks | closed =>
      exact h
  | drops now scheduled i pc more full =>
      have hnone : (Pace.droppedFrom w.sequence 1).filter (fun entry => !isDropped entry.2)
          = [] := by
        simp [Pace.droppedFrom, isDropped]
      simp only [List.filter_append, hnone, List.append_nil]
      exact h
  | spawns now scheduled i pc =>
      simp only [List.map_append, List.filter_append, ← h]
      rfl
  | returnsOk k now task found | returnsErr k now task found | releases k task found
  | taskEnds k task found =>
      rw [List.map_set_of_eq found (by rfl)]
      exact h

lemma numbered_run {args : OpenArgs} {events : List RunOpenEvent} {w : RunOpen}
    (hrun : (runOpen args).run (.init args) events = some w) : Numbered w := by
  refine Machine.invariant ?_ (show Numbered (.init args) from rfl) hrun
  intro s e s' hs hstep
  exact numbered_step hs (runOpen_step hstep)

/-! ## What the operations returned -/

def RunOpenEvent.returned? : RunOpenEvent → Option (ℕ × Bool)
  | .taskReturns k isOk _ => some (k, isOk)
  | _ => none

/-- The operations that have returned in a run: the task, and whether with `Ok`. -/
def returns (events : List RunOpenEvent) : List (ℕ × Bool) :=
  events.filterMap RunOpenEvent.returned?

lemma returns_concat (events : List RunOpenEvent) (e : RunOpenEvent) :
    returns (events ++ [e]) = returns events ++ e.returned?.toList := by
  rw [returns, List.filterMap_append, ← returns]
  cases h : e.returned? <;> simp [h]

/-- Each task whose operation has returned is counted once, as an error or as a sample on its
way to the collector. -/
structure Returned (events : List RunOpenEvent) (w : RunOpen) : Prop where
  mem_iff : ∀ k, k ∈ (returns events).map Prod.fst ↔
    ∃ task, w.tasks[k]? = some task ∧ task.phase ≠ .running
  once : ((returns events).map Prod.fst).Nodup
  errored : w.errored = (returns events).countP fun r => !r.2
  sampled : w.collector.received.length + w.channel.length = (returns events).countP fun r => r.2

/-- A step that touches neither the tasks nor what they count. -/
lemma Returned.frame {events : List RunOpenEvent} {w v : RunOpen} {e : RunOpenEvent}
    (h : Returned events w) (hnone : e.returned? = none) (htasks : v.tasks = w.tasks)
    (herrored : v.errored = w.errored)
    (hsampled : v.collector.received.length + v.channel.length
      = w.collector.received.length + w.channel.length) : Returned (events ++ [e]) v := by
  have hreturns : returns (events ++ [e]) = returns events := by
    rw [returns_concat, hnone, Option.toList_none, List.append_nil]
  obtain ⟨hmem, honce, herr, hsam⟩ := h
  rw [← hreturns] at hmem honce herr hsam
  exact ⟨by rwa [htasks], honce, herrored.trans herr, hsampled.trans hsam⟩

/-- Moving a task from one phase to another changes what is known of that task only. -/
lemma running_set {tasks : List Task} {k : ℕ} {task : Task} (found : tasks[k]? = some task)
    {next : TaskPhase} (hnext : next ≠ .running) (j : ℕ) :
    (∃ t, (tasks.set k { task with phase := next })[j]? = some t ∧ t.phase ≠ .running) ↔
      j = k ∨ ∃ t, tasks[j]? = some t ∧ t.phase ≠ .running := by
  obtain ⟨hk, -⟩ := List.getElem?_eq_some_iff.mp found
  by_cases hj : j = k
  · subst hj
    rw [List.getElem?_set_self hk]
    exact iff_of_true ⟨_, rfl, hnext⟩ (Or.inl rfl)
  · rw [List.getElem?_set_ne (Ne.symm hj)]
    exact ⟨Or.inr, fun h => h.resolve_left hj⟩

/-- A step of a task whose operation has returned before. -/
lemma Returned.advance {events : List RunOpenEvent} {w v : RunOpen} {e : RunOpenEvent} {k : ℕ}
    {task : Task} {next : TaskPhase} (h : Returned events w) (hnone : e.returned? = none)
    (found : w.tasks[k]? = some task) (hphase : task.phase ≠ .running) (hnext : next ≠ .running)
    (htasks : v.tasks = w.tasks.set k { task with phase := next })
    (herrored : v.errored = w.errored) (hcollector : v.collector = w.collector)
    (hchannel : v.channel = w.channel) :
    Returned (events ++ [e]) v := by
  have hreturns : returns (events ++ [e]) = returns events := by
    rw [returns_concat, hnone, Option.toList_none, List.append_nil]
  refine ⟨?_, ?_, ?_, ?_⟩
  · intro j
    rw [hreturns, h.mem_iff, htasks, running_set found hnext]
    refine ⟨Or.inr, ?_⟩
    rintro (rfl | hj)
    · exact ⟨task, found, hphase⟩
    · exact hj
  · rw [hreturns]
    exact h.once
  · rw [hreturns, herrored]
    exact h.errored
  · rw [hreturns, hcollector, hchannel]
    exact h.sampled

/-- The step in which an operation returns. -/
lemma Returned.push {events : List RunOpenEvent} {w v : RunOpen} {k : ℕ} {task : Task}
    {isOk : Bool} {now : ℤ} (h : Returned events w) (found : w.tasks[k]? = some task)
    (running : task.phase = .running)
    (htasks : v.tasks = w.tasks.set k { task with phase := .counted })
    (herrored : v.errored = w.errored + (!isOk).toNat) (hcollector : v.collector = w.collector)
    (hchannel : v.channel.length = w.channel.length + isOk.toNat) :
    Returned (events ++ [.taskReturns k isOk now]) v := by
  have hreturns : returns (events ++ [.taskReturns k isOk now]) = returns events ++ [(k, isOk)] :=
    returns_concat events _
  have hnew : k ∉ (returns events).map Prod.fst := by
    rw [h.mem_iff]
    rintro ⟨t, ht, hphase⟩
    obtain rfl := Option.some.inj (found.symm.trans ht)
    exact hphase running
  refine ⟨?_, ?_, ?_, ?_⟩
  · intro j
    rw [hreturns, List.map_append, List.mem_append, h.mem_iff, htasks,
      running_set found (by decide), or_comm]
    simp
  · rw [hreturns, List.map_append]
    exact h.once.append (List.nodup_singleton k) (by simpa using hnew)
  · rw [hreturns, herrored, h.errored, List.countP_append]
    cases isOk <;> rfl
  · rw [hreturns, hcollector, hchannel, List.countP_append, ← h.sampled]
    cases isOk with
    | false => rfl
    | true => simp; omega

/-- The step that spawns a task. -/
lemma Returned.spawn {events : List RunOpenEvent} {w v : RunOpen} {e : RunOpenEvent} {task : Task}
    (h : Returned events w) (hnone : e.returned? = none) (hphase : task.phase = .running)
    (htasks : v.tasks = w.tasks ++ [task]) (herrored : v.errored = w.errored)
    (hsampled : v.collector.received.length + v.channel.length
      = w.collector.received.length + w.channel.length) : Returned (events ++ [e]) v := by
  have hsame : ∀ k : ℕ, (∃ t : Task, (w.tasks ++ [task])[k]? = some t ∧ t.phase ≠ .running) ↔
      ∃ t : Task, w.tasks[k]? = some t ∧ t.phase ≠ .running := by
    intro k
    rcases lt_trichotomy k w.tasks.length with hk | rfl | hk
    · rw [List.getElem?_append_left hk]
    · simp [hphase]
    · rw [List.getElem?_eq_none (by simp; omega), List.getElem?_eq_none hk.le]
  obtain ⟨hmem, honce, herr, hsam⟩ := h.frame (v := w) hnone rfl rfl rfl
  refine ⟨?_, honce, herrored.trans herr, hsampled.trans hsam⟩
  intro k
  rw [hmem, htasks, hsame]

lemma returned_step {args : OpenArgs} {events : List RunOpenEvent} {w v : RunOpen}
    {e : RunOpenEvent} (h : Returned events w) (hstep : RunOpenStep args w e v) :
    Returned (events ++ [e]) v := by
  cases hstep with
  | idle | ends | starts | acquires | drops | closes | drains | drained =>
      exact h.frame rfl rfl rfl rfl
  | spawns now scheduled i pc =>
      exact h.spawn rfl rfl rfl rfl rfl
  | returnsOk k now task found running =>
      exact h.push found running rfl rfl rfl (by simp)
  | returnsErr k now task found running =>
      exact h.push found running rfl rfl rfl rfl
  | releases k task found counted =>
      exact h.advance rfl found (by simp [counted]) (by decide) rfl rfl rfl rfl
  | taskEnds k task found released =>
      exact h.advance rfl found (by simp [released]) (by decide) rfl rfl rfl rfl
  | receives s rest channel opened =>
      refine h.frame rfl rfl rfl ?_
      simp only [Collector.receive, channel, List.length_append, List.length_cons,
        List.length_nil]
      omega
  | ticks now opened =>
      refine h.frame rfl rfl rfl ?_
      simp only [Collector.tick]
      split_ifs <;> rfl
  | closed now opened channel gone =>
      refine h.frame rfl rfl rfl ?_
      simp only [Collector.close]
      split_ifs <;> rfl

theorem returned_run {args : OpenArgs} {events : List RunOpenEvent} {w : RunOpen}
    (hrun : (runOpen args).run (.init args) events = some w) : Returned events w := by
  have hinit : Returned [] (.init args) :=
    ⟨by simp [returns, RunOpen.init], List.nodup_nil, rfl, rfl⟩
  refine Machine.invariant_trace hinit ?_ hrun
  intro es e t t' _ ht hstep
  exact returned_step ht (runOpen_step hstep)

/-! ## Nothing is left to arrive -/

/-- The collector closes its window behind the last sender. -/
def Settled (w : RunOpen) : Prop :=
  w.collector.measureEnd.isSome → w.channel = [] ∧ w.sendersGone = true

lemma sendersGone_iff {w : RunOpen} :
    w.sendersGone = true ↔ w.pc = .done ∧ ∀ task ∈ w.tasks, task.phase = .ended := by
  rw [RunOpen.sendersGone, decide_eq_true_eq]

lemma settled_step {args : OpenArgs} {w v : RunOpen} {e : RunOpenEvent} (h : Settled w)
    (hstep : RunOpenStep args w e v) : Settled v := by
  intro hend
  cases hstep with
  | idle => exact h hend
  | ends now pc | starts now pc | acquires now _ _ pc | drops now _ _ pc | closes now _ _ pc
  | spawns now _ _ pc | drains now pc | drained now _ pc =>
      have hdone := (sendersGone_iff.mp (h hend).2).1
      rw [pc] at hdone
      cases hdone
  | returnsOk k now task found phase | returnsErr k now task found phase
  | releases k task found phase | taskEnds k task found phase =>
      have hended := (sendersGone_iff.mp (h hend).2).2 task (List.mem_of_getElem? found)
      rw [phase] at hended
      cases hended
  | receives s rest channel opened =>
      have hend' : w.collector.measureEnd.isSome := hend
      rw [opened] at hend'
      cases hend'
  | ticks now opened =>
      have hend' : w.collector.measureEnd.isSome := by
        simp only [Collector.tick] at hend
        split_ifs at hend <;> exact hend
      rw [opened] at hend'
      cases hend'
  | closed now opened channel gone => exact ⟨channel, gone⟩

theorem settled_run {args : OpenArgs} {events : List RunOpenEvent} {w : RunOpen}
    (hrun : (runOpen args).run (.init args) events = some w) : Settled w := by
  refine Machine.invariant ?_ (show Settled (.init args) from fun h => by cases h) hrun
  intro s e s' hs hstep
  exact settled_step hs (runOpen_step hstep)

/-! ## The balance -/

/-- What a request can add: one to a counter, or a sample to the channel. -/
inductive Contribution where
  | dropped
  | errored
  | sampled
  deriving DecidableEq, Repr

def Contribution.ofResult (isOk : Bool) : Contribution := if isOk then .sampled else .errored

/-- Everything the requests have added to the counters and to the channel, each contribution under
the sequence number of its request. -/
def contributions (events : List RunOpenEvent) (w : RunOpen) : List (ℕ × Contribution) :=
  (w.history.filter fun entry => isDropped entry.2).map (fun entry => (entry.1, .dropped)) ++
    (returns events).filterMap fun r =>
      w.tasks[r.1]?.map fun task => (task.seq, Contribution.ofResult r.2)

/-- The contributions of the tasks: every operation that has returned has its task. -/
lemma contributions_eq {events : List RunOpenEvent} {w : RunOpen} (h : Returned events w) :
    contributions events w
      = (w.history.filter fun entry => isDropped entry.2).map
          (fun entry => (entry.1, .dropped)) ++
        (returns events).map fun r =>
          ((w.tasks.map Task.seq).getD r.1 0, Contribution.ofResult r.2) := by
  rw [contributions, List.append_cancel_left_eq]
  have hall : ∀ rs : List (ℕ × Bool), (∀ r ∈ rs, ∃ task, w.tasks[r.1]? = some task) →
      (rs.filterMap fun r => w.tasks[r.1]?.map fun task => (task.seq, Contribution.ofResult r.2))
        = rs.map fun r => ((w.tasks.map Task.seq).getD r.1 0, Contribution.ofResult r.2) := by
    intro rs hrs
    induction rs with
    | nil => rfl
    | cons r rs ih =>
        obtain ⟨task, htask⟩ := hrs r (List.mem_cons_self ..)
        have hrest := ih fun r' hr' => hrs r' (List.mem_cons_of_mem r hr')
        have hseq : (w.tasks.map Task.seq).getD r.1 0 = task.seq := by
          simp [List.getD, htask]
        rw [List.map_cons, hseq, List.filterMap_cons, htask, hrest]
        rfl
  refine hall _ fun r hr => ?_
  obtain ⟨task, htask, -⟩ := (h.mem_iff r.1).mp (List.mem_map_of_mem hr)
  exact ⟨task, htask⟩

/-- The counters hold what the requests contributed. -/
lemma contributions_count {events : List RunOpenEvent} {w : RunOpen} (h : Returned events w)
    (hdrops : w.history.countP (fun entry => entry.2 = .dropped) = w.dropped) :
    (contributions events w).countP (fun c => c.2 = .dropped) = w.dropped ∧
    (contributions events w).countP (fun c => c.2 = .errored) = w.errored ∧
    (contributions events w).countP (fun c => c.2 = .sampled)
      = w.collector.received.length + w.channel.length := by
  have hdropped : w.history.countP (fun entry => isDropped entry.2) = w.dropped := by
    rw [← hdrops]
    refine List.countP_congr fun entry _ => ?_
    cases hfate : entry.2 <;> simp [isDropped]
  have hkind : ∀ o : Contribution, (contributions events w).countP (fun c => c.2 = o)
      = (if o = .dropped then w.dropped else 0)
        + (returns events).countP fun r => Contribution.ofResult r.2 = o := by
    intro o
    rw [contributions_eq h, List.countP_append, List.countP_map, List.countP_map]
    refine congrArg₂ (· + ·) ?_ rfl
    split_ifs with ho
    · refine (List.countP_eq_length.mpr fun _ _ => decide_eq_true ho.symm).trans ?_
      rw [← List.countP_eq_length_filter, hdropped]
    · exact List.countP_eq_zero.mpr fun _ _ heq => ho (of_decide_eq_true heq).symm
  refine ⟨?_, ?_, ?_⟩
  · rw [hkind, if_pos rfl, List.countP_eq_zero.mpr, Nat.add_zero]
    intro r _
    cases r.2 <;> simp [Contribution.ofResult]
  · rw [hkind, h.errored, if_neg (by decide), Nat.zero_add]
    refine List.countP_congr fun r _ => ?_
    cases r.2 <;> simp [Contribution.ofResult]
  · rw [hkind, h.sampled, if_neg (by decide), Nat.zero_add]
    refine List.countP_congr fun r _ => ?_
    cases r.2 <;> simp [Contribution.ofResult]

/-- Once every task has ended, each number has contributed exactly once. -/
lemma contributions_perm {events : List RunOpenEvent} {w : RunOpen} (h : Returned events w)
    (hnumbered : Numbered w) (hnumbers : w.history.map Prod.fst = List.range w.sequence)
    (hended : ∀ task ∈ w.tasks, task.phase = .ended) :
    ((contributions events w).map Prod.fst).Perm (List.range w.sequence) := by
  have hreturns : ((returns events).map Prod.fst).Perm (List.range w.tasks.length) := by
    refine (List.perm_ext_iff_of_nodup h.once List.nodup_range).mpr fun k => ?_
    rw [h.mem_iff, List.mem_range]
    constructor
    · rintro ⟨task, htask, -⟩
      exact (List.getElem?_eq_some_iff.mp htask).1
    · intro hk
      refine ⟨w.tasks[k], List.getElem?_eq_getElem hk, ?_⟩
      rw [hended _ (List.getElem_mem hk)]
      decide
  have hseqs : (List.range w.tasks.length).map (fun k => (w.tasks.map Task.seq).getD k 0)
      = w.tasks.map Task.seq := by
    refine List.ext_getElem (by simp) fun k hk _ => ?_
    have hk' : k < w.tasks.length := by simpa using hk
    simp [hk']
  have hsecond : (((returns events).map fun r =>
      ((w.tasks.map Task.seq).getD r.1 0, Contribution.ofResult r.2)).map Prod.fst).Perm
      (w.tasks.map Task.seq) := by
    rw [List.map_map]
    have hmap := hreturns.map fun k => (w.tasks.map Task.seq).getD k 0
    rw [List.map_map, hseqs] at hmap
    exact hmap
  rw [contributions_eq h, List.map_append, ← hnumbers, List.map_map]
  refine (hsecond.append_left _).trans ?_
  rw [show w.tasks.map Task.seq = _ from hnumbered]
  have hsplit := (List.filter_append_perm (fun entry : ℕ × Fate => isDropped entry.2)
    w.history).map Prod.fst
  rw [List.map_append] at hsplit
  exact hsplit

/-- **Accounted for exactly once.**  In every reachable state at most `max_inflight` tasks hold a
permit.  Once the collector has given its done signal, the numbers the scheduler went through are
the dropped, the errored and the received ones together, and every number has contributed to
exactly one of the three. -/
theorem accounted_once {args : OpenArgs} {events : List RunOpenEvent} {w : RunOpen}
    (hrun : (runOpen args).run (.init args) events = some w) :
    w.holders ≤ args.maxInflight ∧
    (w.collector.measureEnd.isSome →
      w.sequence = w.dropped + w.errored + w.collector.received.length ∧
      ((contributions events w).map Prod.fst).Perm (List.range w.sequence) ∧
      (contributions events w).countP (fun c => c.2 = .dropped) = w.dropped ∧
      (contributions events w).countP (fun c => c.2 = .errored) = w.errored ∧
      (contributions events w).countP (fun c => c.2 = .sampled) = w.collector.received.length) := by
  have hpermits := permits_run hrun
  refine ⟨?_, ?_⟩
  · rw [PermitsBalance] at hpermits
    omega
  · intro hclosed
    obtain ⟨hchannel, hgone⟩ := settled_run hrun hclosed
    obtain ⟨-, hended⟩ := sendersGone_iff.mp hgone
    have hreturned := returned_run hrun
    have hkept := (scheduled_run hrun).kept
    obtain ⟨hdropped, herrored, hsampled⟩ := contributions_count hreturned hkept.drops
    rw [hchannel, List.length_nil, Nat.add_zero] at hsampled
    have hperm := contributions_perm hreturned (numbered_run hrun) hkept.numbers hended
    refine ⟨?_, hperm, hdropped, herrored, hsampled⟩
    -- each contribution is of one of the three kinds
    have hlength := hperm.length_eq
    rw [List.length_map, List.length_range] at hlength
    rw [← hlength, ← hdropped, ← herrored, ← hsampled]
    generalize contributions events w = cs
    induction cs with
    | nil => rfl
    | cons c cs ih =>
        obtain ⟨n, outcome⟩ := c
        cases outcome <;> simp [ih] <;> omega

/-- Room for one request at a time, three requests in one burst. -/
def oneAtATime : OpenArgs :=
  { Pace.eachSecond 0 with
    burst := 3
    burst_pos := Nat.succ_pos 2
    maxInflight := 1
    drainTimeout := 1
    casPercentage := 0
    warmupEnd := 0
    maxInflight_pos := Nat.one_pos }

/-- The first request of the burst fails, the second finds no permit, the third is answered. -/
def oneOfEach : List RunOpenEvent :=
  [.scheduler 0, .scheduler 0, .scheduler 0, .scheduler 0, .taskReturns 0 false 1, .taskReleases 0,
    .scheduler 1, .scheduler 1, .scheduler 1, .scheduler 1, .scheduler 1, .taskReturns 1 true 2,
    .taskReleases 1, .scheduler 2, .taskEnds 0, .taskEnds 1, .collectorReceives, .collectorCloses 3]

theorem accounted_once_of_each :
    ∃ w, (runOpen oneAtATime).run (.init oneAtATime) oneOfEach = some w ∧
      w.sequence = 3 ∧ w.dropped = 1 ∧ w.errored = 1 ∧ w.collector.received.length = 1 ∧
      ((contributions oneOfEach w).map Prod.fst).Perm (List.range 3) := by
  have hrun : ((runOpen oneAtATime).run (.init oneAtATime) oneOfEach).map
      (fun w => (w.sequence, w.dropped, w.errored, w.collector.received.length,
        w.collector.measureEnd.isSome)) = some (3, 1, 1, 1, true) := by
    decide +kernel
  obtain ⟨w, hw, hvalues⟩ := Option.map_eq_some_iff.mp hrun
  simp only [Prod.mk.injEq] at hvalues
  obtain ⟨hsequence, hdropped, herrored, hreceived, hclosed⟩ := hvalues
  obtain ⟨-, hbalance⟩ := accounted_once hw
  obtain ⟨-, hperm, -⟩ := hbalance hclosed
  exact ⟨w, hw, hsequence, hdropped, herrored, hreceived, hsequence ▸ hperm⟩

end RaftBench.OpenRaft

import RaftBench.OpenRaft.Client

/-!
# Which writes the generator counts as completed

A call that returns `Ok(())` becomes a latency sample.  Here a call runs against an arbitrary list
of outcomes, and the trace of its exchanges is compared with what it returns.

Both loops end the same way (`Ended`): they return `Ok(())` at the first exchange that *settles*
them, and the error of their budget when none does.  A reply settles `post_with_forwarding` as soon
as no leader address can be taken out of it, and `do_compare_and_set` when it is no mismatch
either.  Neither looks for the `Ok` the server answers a committed write with, so an `Err` without
an address settles them too; `completed_write_acknowledged_iff` says which replies have to stay
away for a completed write to be an acknowledged one.
-/

namespace RaftBench.OpenRaft

/-! ## Running a call -/

/-- One attempt: where it went, what was asked and what came of it. -/
structure Exchange where
  addr : String
  path : String
  body : Body
  outcome : Outcome

/-- The JSON the attempt brought, if any. -/
def Exchange.response (ex : Exchange) : Option Json :=
  match ex.outcome with
  | .replied parsed => parsed
  | _ => none

/-- The environment of one call: the cluster, the outcomes to come and the exchanges so far. -/
structure Wire where
  cluster : Cluster
  outcomes : List Outcome
  trace : List Exchange := []

def Wire.handle : (op : ClientOp) → Wire → Option (op.Ans × Wire)
  | .attempt path body, w =>
      match w.outcomes with
      | o :: os =>
          some (o, { w with
            outcomes := os, trace := w.trace ++ [⟨w.cluster.current, path, body, o⟩] })
      | [] => none
  | .rotate, w => some ((), { w with cluster := w.cluster.rotate })
  | .setLeader addr, w => some ((), { w with cluster := w.cluster.setLeader addr })

/-- An attempt takes the next outcome. -/
lemma run_attempt {α : Type} {path : String} {body : Body} {next : Outcome → Client α} {w : Wire}
    {r : α × Wire}
    (h : (Prog.call (.attempt path body) next : Client α).run Wire.handle w = some r) :
    ∃ ex w', ex.body = body ∧ w'.trace = w.trace ++ [ex] ∧
      (next ex.outcome).run Wire.handle w' = some r := by
  rw [Prog.run_call] at h
  cases hos : w.outcomes with
  | nil => simp [Wire.handle, hos] at h
  | cons o os =>
      simp only [Wire.handle, hos, Option.bind_some] at h
      exact ⟨⟨w.cluster.current, path, body, o⟩, _, rfl, rfl, h⟩

/-- Moving the tracked leader leaves the trace alone. -/
lemma run_rotate {α : Type} {next : Client α} {w : Wire} {r : α × Wire}
    (h : (Prog.call .rotate fun _ => next : Client α).run Wire.handle w = some r) :
    ∃ w', w'.trace = w.trace ∧ next.run Wire.handle w' = some r :=
  ⟨{ w with cluster := w.cluster.rotate }, rfl, h⟩

lemma run_setLeader {α : Type} {addr : String} {next : Client α} {w : Wire} {r : α × Wire}
    (h : (Prog.call (.setLeader addr) fun _ => next : Client α).run Wire.handle w = some r) :
    ∃ w', w'.trace = w.trace ∧ next.run Wire.handle w' = some r :=
  ⟨{ w with cluster := w.cluster.setLeader addr }, rfl, h⟩

/-! ## How the loops end -/

/-- A call ends with `Ok` at the first exchange that settles it, and with an error if none does. -/
inductive Ended (settles : Exchange → Prop) : List Exchange → Except String Unit → Prop where
  | gaveUp (exchanges : List Exchange) (e : String) (h : ∀ ex ∈ exchanges, ¬ settles ex) :
      Ended settles exchanges (.error e)
  | settled (before : List Exchange) (last : Exchange) (h : ∀ ex ∈ before, ¬ settles ex)
      (hlast : settles last) : Ended settles (before ++ [last]) (.ok ())

/-- Exchanges that settle nothing may come first. -/
lemma Ended.prepend {settles : Exchange → Prop} {exchanges : List Exchange}
    {r : Except String Unit} (h : Ended settles exchanges r) {first : List Exchange}
    (hfirst : ∀ ex ∈ first, ¬ settles ex) : Ended settles (first ++ exchanges) r := by
  cases h with
  | gaveUp exchanges e h =>
      refine .gaveUp _ e fun ex hex => ?_
      rcases List.mem_append.mp hex with hex | hex
      · exact hfirst ex hex
      · exact h ex hex
  | settled before last h hlast =>
      rw [← List.append_assoc]
      refine .settled _ last (fun ex hex => ?_) hlast
      rcases List.mem_append.mp hex with hex | hex
      · exact hfirst ex hex
      · exact h ex hex

/-- Exchanges that cannot settle the call may be left out. -/
lemma Ended.filter {settles : Exchange → Prop} {exchanges : List Exchange}
    {r : Except String Unit} (h : Ended settles exchanges r) {p : Exchange → Bool}
    (hp : ∀ ex, settles ex → p ex = true) : Ended settles (exchanges.filter p) r := by
  cases h with
  | gaveUp exchanges e h => exact .gaveUp _ e fun ex hex => h ex (List.mem_filter.mp hex).1
  | settled before last h hlast =>
      have hfilter : (before ++ [last]).filter p = before.filter p ++ [last] := by
        rw [List.filter_append, List.filter_cons_of_pos (hp last hlast), List.filter_nil]
      rw [hfilter]
      exact .settled _ last (fun ex hex => h ex (List.mem_filter.mp hex).1) hlast

/-- The last response among the exchanges. -/
def lastResponse (exchanges : List Exchange) : Option Json :=
  (exchanges.filterMap Exchange.response).getLast?

/-- **What a settled call rests on.**  Where every settling exchange has a response, the last
response of a call that returned `Ok` is good exactly when every settling exchange is. -/
lemma Ended.last_iff {settles : Exchange → Prop} {exchanges : List Exchange}
    {r : Except String Unit} (h : Ended settles exchanges r) {good : Json → Prop}
    (hresponse : ∀ ex, settles ex → ex.response ≠ none) :
    (r = .ok () → ∃ v, lastResponse exchanges = some v ∧ good v) ↔
      ∀ ex ∈ exchanges, settles ex → ∀ v, ex.response = some v → good v := by
  cases h with
  | gaveUp exchanges e h =>
      constructor
      · intro _ ex hex hsettles
        exact absurd hsettles (h ex hex)
      · intro _ hok
        simp at hok
  | settled before last h hlast =>
      obtain ⟨v, hv⟩ := Option.ne_none_iff_exists.mp (hresponse last hlast)
      have hlastResponse : lastResponse (before ++ [last]) = some v := by
        rw [lastResponse, List.filterMap_append, List.filterMap_cons, ← hv]
        simp
      rw [hlastResponse]
      constructor
      · intro hok ex hex hsettles u hu
        obtain ⟨v', hv', hgood⟩ := hok rfl
        obtain rfl := Option.some.inj hv'
        rcases List.mem_append.mp hex with hex | hex
        · exact absurd hsettles (h ex hex)
        · rw [List.mem_singleton] at hex
          subst hex
          rw [← hv, Option.some.injEq] at hu
          exact hu ▸ hgood
      · intro hall _
        exact ⟨v, rfl, hall last (by simp) hlast v hv.symm⟩

/-! ## `do_set` -/

/-- The reply names no leader: `post_with_forwarding` returns. -/
def SettlesPost (ex : Exchange) : Prop :=
  ∃ v, ex.response = some v ∧ extractForwardToLeader v = none

/-- An attempt settles `post_with_forwarding`, or sends it round the loop again. -/
lemma run_postNext {path : String} {body : Body} {n : ℕ} {ex : Exchange} {w w' : Wire}
    {r : Except String Unit}
    (h : (postNext path body n ex.outcome).run Wire.handle w = some (r, w')) :
    (SettlesPost ex ∧ r = .ok () ∧ w' = w) ∨
      (¬ SettlesPost ex ∧ ∃ w₁, w₁.trace = w.trace ∧
        (postLoop path body n).run Wire.handle w₁ = some (r, w')) := by
  cases ho : ex.outcome with
  | unreachable =>
      rw [ho] at h
      exact Or.inr ⟨by simp [SettlesPost, Exchange.response, ho], run_rotate h⟩
  | interrupted =>
      rw [ho] at h
      exact Or.inr ⟨by simp [SettlesPost, Exchange.response, ho], w, rfl, h⟩
  | replied parsed =>
      rw [ho] at h
      cases parsed with
      | none => exact Or.inr ⟨by simp [SettlesPost, Exchange.response, ho], w, rfl, h⟩
      | some v =>
          have hv : ex.response = some v := by simp [Exchange.response, ho]
          simp only [postNext] at h
          cases hf : extractForwardToLeader v with
          | some newLeader =>
              rw [hf] at h
              exact Or.inr ⟨by simp [SettlesPost, hv, hf], run_setLeader h⟩
          | none =>
              simp only [hf, Prog.run_ret, Option.some.injEq, Prod.mk.injEq] at h
              exact Or.inl ⟨⟨v, hv, hf⟩, h.1.symm, h.2.symm⟩

/-- The exchanges of `post_with_forwarding`. -/
lemma postLoop_ended {path : String} {body : Body} {n : ℕ} {w w' : Wire}
    {r : Except String Unit} (h : (postLoop path body n).run Wire.handle w = some (r, w')) :
    ∃ exchanges, w'.trace = w.trace ++ exchanges ∧ (∀ ex ∈ exchanges, ex.body = body) ∧
      Ended SettlesPost exchanges r := by
  induction n generalizing w with
  | zero =>
      simp only [postLoop, Prog.pure_eq, Prog.run_ret, Option.some.injEq, Prod.mk.injEq] at h
      obtain ⟨rfl, rfl⟩ := h
      exact ⟨[], by simp, by simp, .gaveUp _ _ (by simp)⟩
  | succ n ih =>
      rw [postLoop_succ] at h
      obtain ⟨ex, w₁, hbody, htrace, h⟩ := run_attempt h
      rcases run_postNext h with ⟨hsettles, rfl, rfl⟩ | ⟨hsettles, w₂, hw₂, h⟩
      · exact ⟨[ex], htrace, by simp [hbody], .settled [] ex (by simp) hsettles⟩
      · obtain ⟨exchanges, hsame, hbodies, hended⟩ := ih h
        refine ⟨[ex] ++ exchanges, ?_, ?_, hended.prepend (by simpa using hsettles)⟩
        · rw [hsame, hw₂, htrace, List.append_assoc]
        · simpa [hbody] using hbodies

/-! ## `do_compare_and_set` -/

/-- The body is a `CompareAndSet` write. -/
def Body.isCas : Body → Bool
  | .request (.compareAndSet _ _ _) => true
  | _ => false

/-- The reply to the write names no leader and is no mismatch: `do_compare_and_set` returns. -/
def SettlesCas (ex : Exchange) : Prop :=
  ex.body.isCas = true ∧
    ∃ v, ex.response = some v ∧ extractForwardToLeader v = none ∧ isCasMismatch v = false

/-- The write settles `do_compare_and_set`, or sends it round the loop again. -/
lemma run_casWriteNext {peers : ℕ} {key value : String} {n : ℕ} {ex : Exchange} {w w' : Wire}
    {r : Except String Unit} (hcas : ex.body.isCas = true)
    (h : (casWriteNext peers key value n ex.outcome).run Wire.handle w = some (r, w')) :
    (SettlesCas ex ∧ r = .ok () ∧ w' = w) ∨
      (¬ SettlesCas ex ∧ ∃ w₁, w₁.trace = w.trace ∧
        (compareAndSetLoop peers key value n).run Wire.handle w₁ = some (r, w')) := by
  cases ho : ex.outcome with
  | unreachable =>
      rw [ho] at h
      exact Or.inr ⟨by simp [SettlesCas, Exchange.response, ho], run_rotate h⟩
  | interrupted =>
      rw [ho] at h
      exact Or.inr ⟨by simp [SettlesCas, Exchange.response, ho], w, rfl, h⟩
  | replied parsed =>
      rw [ho] at h
      cases parsed with
      | none => exact Or.inr ⟨by simp [SettlesCas, Exchange.response, ho], w, rfl, h⟩
      | some v =>
          have hv : ex.response = some v := by simp [Exchange.response, ho]
          simp only [casWriteNext] at h
          cases hf : extractForwardToLeader v with
          | some newLeader =>
              rw [hf] at h
              exact Or.inr ⟨by simp [SettlesCas, hv, hf], run_setLeader h⟩
          | none =>
              simp only [hf] at h
              cases hm : isCasMismatch v with
              | true =>
                  rw [hm, if_pos rfl] at h
                  exact Or.inr ⟨by simp [SettlesCas, hv, hm], w, rfl, h⟩
              | false =>
                  simp only [hm, Bool.false_eq_true, if_false, Prog.run_ret, Option.some.injEq,
                    Prod.mk.injEq] at h
                  exact Or.inl ⟨⟨hcas, v, hv, hf, hm⟩, h.1.symm, h.2.symm⟩

/-- A read brings nothing, or a value to go on with; either way the call is not settled by it. -/
lemma run_casReadNext {peers : ℕ} {key value : String} {n : ℕ} {o : Outcome} {w w' : Wire}
    {r : Except String Unit}
    (h : (casReadNext peers key value n o).run Wire.handle w = some (r, w')) :
    ∃ got w₁, w₁.trace = w.trace ∧
      (casReadValue peers key value n got).run Wire.handle w₁ = some (r, w') := by
  cases o with
  | unreachable =>
      obtain ⟨w₁, hw₁, h⟩ := run_rotate h
      exact ⟨.error .unreachable, w₁, hw₁, h⟩
  | interrupted => exact ⟨.error .interrupted, w, rfl, h⟩
  | replied parsed =>
      cases parsed with
      | none => exact ⟨.error .unparsable, w, rfl, h⟩
      | some envelope => exact ⟨readReply envelope, w, rfl, h⟩

/-- The exchanges of `do_compare_and_set`. -/
lemma compareAndSetLoop_ended {peers : ℕ} {key value : String} {n : ℕ} {w w' : Wire}
    {r : Except String Unit}
    (h : (compareAndSetLoop peers key value n).run Wire.handle w = some (r, w')) :
    ∃ exchanges, w'.trace = w.trace ++ exchanges ∧ Ended SettlesCas exchanges r := by
  induction n generalizing w with
  | zero =>
      simp only [compareAndSetLoop, Prog.pure_eq, Prog.run_ret, Option.some.injEq,
        Prod.mk.injEq] at h
      obtain ⟨rfl, rfl⟩ := h
      exact ⟨[], by simp, .gaveUp _ _ (by simp)⟩
  | succ n ih =>
      -- every way round the loop again leaves exchanges that do not settle it
      have again {first : List Exchange} (hfirst : ∀ ex ∈ first, ¬ SettlesCas ex) {w₁ : Wire}
          (hw₁ : w₁.trace = w.trace ++ first)
          (h : (compareAndSetLoop peers key value n).run Wire.handle w₁ = some (r, w')) :
          ∃ exchanges, w'.trace = w.trace ++ exchanges ∧ Ended SettlesCas exchanges r := by
        obtain ⟨exchanges, hsame, hended⟩ := ih h
        refine ⟨first ++ exchanges, ?_, hended.prepend hfirst⟩
        rw [hsame, hw₁, List.append_assoc]
      rw [compareAndSetLoop_succ] at h
      obtain ⟨read, w₁, hread, htrace, h⟩ := run_attempt h
      have hsettles : ¬ SettlesCas read := by simp [SettlesCas, hread, Body.isCas]
      obtain ⟨got, w₂, hw₂, h⟩ := run_casReadNext h
      rw [htrace] at hw₂
      rcases got with e | ⟨currentValue, expectedVersion⟩
      · exact again (by simpa using hsettles) hw₂ h
      · cases currentValue with
        | none =>
            -- the initialising `Set` leaves exchanges that are no such writes
            simp only [casReadValue, Prog.run_bind, Option.bind_eq_some_iff] at h
            obtain ⟨⟨r', w₃⟩, hset, h⟩ := h
            obtain ⟨exchanges, hw₃, hbodies, -⟩ := postLoop_ended hset
            refine again ?_ (hw₃.trans (by rw [hw₂, List.append_assoc])) h
            intro ex hex
            rcases List.mem_append.mp hex with hex | hex
            · rw [List.mem_singleton] at hex
              exact hex ▸ hsettles
            · simp [SettlesCas, hbodies ex hex, Body.isCas]
        | some currentValue =>
            simp only [casReadValue] at h
            obtain ⟨write, w₃, hwrite, hw₃, h⟩ := run_attempt h
            rw [hw₂, List.append_assoc, List.singleton_append] at hw₃
            rcases run_casWriteNext (by rw [hwrite]; rfl) h with
              ⟨hwrites, rfl, rfl⟩ | ⟨hwrites, w₄, hw₄, h⟩
            · exact ⟨[read, write], hw₃, .settled [read] write (by simpa using hsettles) hwrites⟩
            · exact again (by simpa using ⟨hsettles, hwrites⟩) (hw₄.trans hw₃) h

/-! ## Completed and acknowledged -/

/-- The server has committed and applied the write: a top-level `Ok`. -/
def acknowledged (resp : Json) : Bool := (resp.get "Ok").isSome

/-- The server has applied the write, and the versions matched: an `Ok` with a value. -/
def casAcknowledged (resp : Json) : Bool :=
  match ((resp.get "Ok").bind (Json.get "data")).bind (Json.get "value") with
  | some v => !v.isNull
  | none => false

/-- **When a completed write was acknowledged.**  For every cluster and all outcomes, a `do_set`
that returns `Ok(())` has an acknowledgement as its last response exactly when each reply it
received without a leader address was one; and likewise for the `CompareAndSet` writes of a
`do_compare_and_set`, mismatches apart. -/
theorem completed_write_acknowledged_iff (c : Cluster) (key value : String)
    (outcomes : List Outcome) :
    (∀ r w, (doSet c.peers.length key value).run Wire.handle { cluster := c, outcomes }
        = some (r, w) →
      ((r = .ok () → ∃ v, lastResponse w.trace = some v ∧ acknowledged v = true) ↔
        ∀ ex ∈ w.trace, ∀ v, ex.response = some v → extractForwardToLeader v = none →
          acknowledged v = true)) ∧
    (∀ r w, (doCompareAndSet c.peers.length key value).run Wire.handle { cluster := c, outcomes }
        = some (r, w) →
      ((r = .ok () → ∃ v, lastResponse (w.trace.filter fun ex => ex.body.isCas) = some v ∧
          casAcknowledged v = true) ↔
        ∀ ex ∈ w.trace, ex.body.isCas = true → ∀ v, ex.response = some v →
          extractForwardToLeader v = none → isCasMismatch v = false →
          casAcknowledged v = true)) := by
  constructor
  · intro r w h
    obtain ⟨exchanges, htrace, -, hended⟩ := postLoop_ended h
    rw [List.nil_append] at htrace
    rw [htrace, hended.last_iff (by rintro ex ⟨v, hv, -⟩; simp [hv])]
    constructor
    · intro hall ex hex v hv hf
      exact hall ex hex ⟨v, hv, hf⟩ v hv
    · rintro hall ex hex ⟨v', hv', hf⟩ v hv
      obtain rfl : v' = v := Option.some.inj (hv'.symm.trans hv)
      exact hall ex hex v' hv hf
  · intro r w h
    obtain ⟨exchanges, htrace, hended⟩ := compareAndSetLoop_ended h
    rw [List.nil_append] at htrace
    have hfiltered := hended.filter (p := fun ex => ex.body.isCas) (fun ex hex => hex.1)
    rw [htrace, hfiltered.last_iff (by rintro ex ⟨-, v, hv, -⟩; simp [hv])]
    constructor
    · intro hall ex hex hcas v hv hf hm
      exact hall ex (List.mem_filter.mpr ⟨hex, hcas⟩) ⟨hcas, v, hv, hf, hm⟩ v hv
    · rintro hall ex hex ⟨hcas, v', hv', hf, hm⟩ v hv
      obtain rfl : v' = v := Option.some.inj (hv'.symm.trans hv)
      exact hall ex (List.mem_filter.mp hex).1 hcas v' hv hf hm

/-- A cluster of one peer. -/
def onePeer : Cluster := .new ["a"] (by simp)

/-- The answer to a write that was applied as version 2. -/
def appliedReply : Json :=
  .object [("Ok", .object [("data", .object [("value",
    .object [("value", .string "1"), ("version", .number (.posInt 2))])])])]

/-- The answer of a follower during an election: a redirect that names no leader. -/
def electionReply : Json :=
  .object [("Err", .object [("ForwardToLeader",
    .object [("leader_id", .null), ("leader_node", .null)])])]

/-- The answer to a read of value 0 in version 1. -/
def zeroReply : Json :=
  .object [("Ok", .object [("value",
    .object [("value", .string "0"), ("version", .number (.posInt 1))])])]

/-- Both calls complete against a server that applies their write, and with its acknowledgement. -/
theorem completed_write_acknowledged_applied :
    (∃ w, (doSet 1 "k" "v").run Wire.handle
        { cluster := onePeer, outcomes := [.replied (some appliedReply)] } = some (.ok (), w) ∧
        ∃ v, lastResponse w.trace = some v ∧ acknowledged v = true) ∧
      ∃ w, (doCompareAndSet 1 "k" "v").run Wire.handle
          { cluster := onePeer
            outcomes := [.replied (some zeroReply), .replied (some appliedReply)] }
          = some (.ok (), w) ∧
        ∃ v, lastResponse (w.trace.filter fun ex => ex.body.isCas) = some v ∧
          casAcknowledged v = true := by
  constructor
  · refine ⟨_, rfl, ?_⟩
    refine ((completed_write_acknowledged_iff onePeer "k" "v"
      [.replied (some appliedReply)]).1 _ _ rfl).mpr ?_ rfl
    intro ex hex v hv _
    rw [List.mem_singleton.mp hex] at hv
    obtain rfl := Option.some.inj hv
    rfl
  · refine ⟨_, rfl, ?_⟩
    refine ((completed_write_acknowledged_iff onePeer "k" "v"
      [.replied (some zeroReply), .replied (some appliedReply)]).2 _ _ rfl).mpr ?_ rfl
    intro ex hex hcas v hv _ _
    rcases List.mem_cons.mp hex with rfl | hex
    · simp [Body.isCas] at hcas
    · rw [List.mem_singleton.mp hex] at hv
      obtain rfl := Option.some.inj hv
      rfl

/-- Both calls complete on a redirect that names no leader, with nothing written. -/
theorem completed_write_not_acknowledged :
    (¬ ∀ (c : Cluster) (key value : String) (outcomes : List Outcome) (w : Wire),
      (doSet c.peers.length key value).run Wire.handle { cluster := c, outcomes }
          = some (.ok (), w) →
        ∃ v, lastResponse w.trace = some v ∧ acknowledged v = true) ∧
      ¬ ∀ (c : Cluster) (key value : String) (outcomes : List Outcome) (w : Wire),
        (doCompareAndSet c.peers.length key value).run Wire.handle { cluster := c, outcomes }
            = some (.ok (), w) →
          ∃ v, lastResponse (w.trace.filter fun ex => ex.body.isCas) = some v ∧
            casAcknowledged v = true := by
  constructor
  · intro h
    obtain ⟨v, hv, hok⟩ := h onePeer "k" "v" [.replied (some electionReply)] _ rfl
    obtain rfl := Option.some.inj hv
    revert hok
    decide
  · intro h
    obtain ⟨v, hv, hok⟩ := h onePeer "k" "v"
      [.replied (some zeroReply), .replied (some electionReply)] _ rfl
    obtain rfl := Option.some.inj hv
    revert hok
    decide

end RaftBench.OpenRaft

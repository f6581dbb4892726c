import Mathlib.Data.List.Nodup
import RaftBench.OpenRaft.Client

/-!
# Finding the leader

One request, alone, on a cluster whose leader does not change.  `post_with_forwarding` starts from
whatever address is tracked.  A node that does not answer makes it rotate to the next peer, a
follower sends it to the leader at once, and the leader's answer ends it.

Rotation goes round the list, so its progress is the number of places that are still between the
tracked peer and the leader (`finds_listed` is by induction on it).  An address that is not in the
list rotates to the second peer and costs one attempt more, which makes the bound of
`finds_stable_leader` one more than the number of peers.
-/

namespace RaftBench.OpenRaft

/-! ## The environment of a lone request -/

/-- The tracked leader and the number of attempts so far, where `answer k addr` is the outcome of
attempt `k` against `addr`. -/
def lone (answer : ℕ → String → Outcome) :
    (op : ClientOp) → Cluster × ℕ → Option (op.Ans × (Cluster × ℕ))
  | .attempt _ _, (c, k) => some (answer k c.current, (c, k + 1))
  | .rotate, (c, k) => some ((), (c.rotate, k))
  | .setLeader addr, (c, k) => some ((), (c.setLeader addr, k))

/-- The peer answers with an `Ok` envelope. -/
def Leads (answer : ℕ → String → Outcome) (addr : String) : Prop :=
  ∀ k, ∃ ok, answer k addr = .replied (some (.object [("Ok", ok)]))

/-- The peer cannot be reached. -/
def Dead (answer : ℕ → String → Outcome) (addr : String) : Prop :=
  ∀ k, answer k addr = .unreachable

/-- The peer names `leader` in a `ForwardToLeader`. -/
def Follows (answer : ℕ → String → Outcome) (addr leader : String) : Prop :=
  ∀ k, ∃ resp, answer k addr = .replied (some resp) ∧ extractForwardToLeader resp = some leader

/-- A cluster with one leader, where every other peer is down for good or follows it, and where
nobody listens at any other address. -/
structure StableLeader (peers : List String) (leader : String)
    (answer : ℕ → String → Outcome) : Prop where
  listed : leader ∈ peers
  leads : Leads answer leader
  others : ∀ addr ∈ peers, addr ≠ leader → Dead answer addr ∨ Follows answer addr leader
  unlisted : ∀ addr, addr ∉ peers → Dead answer addr

/-! ## One attempt -/

/-- With this budget the request ends at `leader`, after at most `bound` attempts. -/
def Finds (answer : ℕ → String → Outcome) (leader path : String) (body : Body) (budget : ℕ)
    (c : Cluster) (bound : ℕ) : Prop :=
  ∀ k, ∃ sends, sends ≤ bound ∧
    (postLoop path body budget).run (lone answer) (c, k)
      = some (.ok (), (c.setLeader leader, k + sends))

section Attempt

variable {answer : ℕ → String → Outcome} {leader path : String} {body : Body} {budget bound : ℕ}
  {c : Cluster}

lemma finds_at_leader (h : Leads answer leader) (hc : c.leader = leader) :
    Finds answer leader path body (budget + 1) c 1 := by
  intro k
  obtain ⟨ok, hok⟩ := h k
  have hset : c.setLeader leader = c := by
    subst hc
    rfl
  refine ⟨1, le_rfl, ?_⟩
  rw [postLoop_succ, Prog.run_call, hset]
  simp only [lone, Cluster.current, hc, hok, Option.bind_some, postNext]
  rfl

/-- A dead peer costs one attempt and rotates. -/
lemma finds_of_dead (h : Dead answer c.leader)
    (hnext : Finds answer leader path body budget c.rotate bound) :
    Finds answer leader path body (budget + 1) c (bound + 1) := by
  intro k
  obtain ⟨sends, hsends, hrun⟩ := hnext (k + 1)
  refine ⟨sends + 1, Nat.succ_le_succ hsends, ?_⟩
  rw [postLoop_succ, Prog.run_call]
  simp only [lone, Cluster.current, h k, Option.bind_some, postNext, Prog.run_call, hrun,
    Option.some.injEq, Prod.mk.injEq, true_and]
  exact ⟨rfl, by omega⟩

/-- A follower costs one attempt and installs the leader. -/
lemma finds_of_follows (h : Follows answer c.leader leader)
    (hnext : Finds answer leader path body budget (c.setLeader leader) bound) :
    Finds answer leader path body (budget + 1) c (bound + 1) := by
  intro k
  obtain ⟨resp, hresp, hforward⟩ := h k
  obtain ⟨sends, hsends, hrun⟩ := hnext (k + 1)
  refine ⟨sends + 1, Nat.succ_le_succ hsends, ?_⟩
  rw [postLoop_succ, Prog.run_call]
  simp only [lone, Cluster.current, hresp, hforward, Option.bind_some, postNext, Prog.run_call,
    hrun, Option.some.injEq, Prod.mk.injEq, true_and]
  exact ⟨rfl, by omega⟩

lemma Finds.mono {bound' : ℕ} (h : Finds answer leader path body budget c bound)
    (hle : bound ≤ bound') : Finds answer leader path body budget c bound' := by
  intro k
  obtain ⟨sends, hsends, hrun⟩ := h k
  exact ⟨sends, hsends.trans hle, hrun⟩

end Attempt

/-! ## Going round -/

/-- Without repetitions a peer is found where it is. -/
lemma Cluster.position_get (c : Cluster) (hnodup : c.peers.Nodup) (i : Fin c.peers.length) :
    c.position (c.peers.get i) = i := by
  have hfind : c.peers.findIdx? (· == c.peers.get i) = some i.val := by
    rw [List.findIdx?_eq_some_iff_getElem]
    refine ⟨i.isLt, by simp, ?_⟩
    intro j hj heq
    have hij : j = i.val := hnodup.getElem_inj_iff.mp (beq_iff_eq.mp heq)
    omega
  rw [position, hfind, Option.getD_some]

/-- **From a listed peer.**  The peers are `c.peers.get i` with `d` places to go to the leader at
place `l`: every dead peer on the way brings it one place nearer, a follower all the way. -/
lemma finds_listed {answer : ℕ → String → Outcome} {path : String} {body : Body} {c : Cluster}
    (hnodup : c.peers.Nodup) {l i : Fin c.peers.length}
    (h : StableLeader c.peers (c.peers.get l) answer) {d budget : ℕ}
    (hd : d < c.peers.length) (hdist : (i.val + d) % c.peers.length = l) (hbudget : d < budget) :
    Finds answer (c.peers.get l) path body budget (c.setLeader (c.peers.get i)) (d + 1) := by
  induction d generalizing i budget with
  | zero =>
      obtain ⟨m, rfl⟩ := Nat.exists_eq_add_of_lt hbudget
      have hil : i = l := by
        rw [Nat.add_zero, Nat.mod_eq_of_lt i.isLt] at hdist
        exact Fin.ext hdist
      rw [hil, Nat.zero_add]
      exact finds_at_leader h.leads rfl
  | succ d ih =>
      obtain ⟨m, rfl⟩ : ∃ m, budget = m + 1 := ⟨budget - 1, by omega⟩
      have hne : c.peers.get i ≠ c.peers.get l := by
        intro heq
        have hil : i = l := hnodup.injective_get heq
        have hi := i.isLt
        rw [hil] at hdist hi
        -- fewer places than a whole turn do not lead back
        rcases Nat.lt_or_ge (l.val + (d + 1)) c.peers.length with hlt | hge
        · rw [Nat.mod_eq_of_lt hlt] at hdist
          omega
        · rw [Nat.mod_eq_sub_mod hge, Nat.mod_eq_of_lt (by omega)] at hdist
          omega
      rcases h.others _ (List.get_mem c.peers i) hne with hdead | hfollows
      · refine finds_of_dead hdead ?_
        have hrotate : (c.setLeader (c.peers.get i)).rotate
            = c.setLeader
                (c.peers.get ⟨(i.val + 1) % c.peers.length, Nat.mod_lt _ c.peers_pos⟩) := by
          have hposition : (c.setLeader (c.peers.get i)).position (c.peers.get i) = i :=
            c.position_get hnodup i
          simp only [Cluster.rotate, Cluster.next, Cluster.setLeader] at hposition ⊢
          simp only [hposition]
        rw [hrotate]
        refine ih (by omega) ?_ (by omega)
        rw [Nat.mod_add_mod, Nat.add_assoc, Nat.add_comm 1 d]
        exact hdist
      · refine (finds_of_follows hfollows ?_).mono (by omega : 1 + 1 ≤ d + 1 + 1)
        obtain ⟨m', rfl⟩ : ∃ m', m = m' + 1 := ⟨m - 1, by omega⟩
        exact finds_at_leader h.leads rfl

/-- **Where the search starts does not matter.**  From any listed peer there are fewer places to
go than there are peers; an address that is not listed rotates to a listed one. -/
lemma finds_anywhere {answer : ℕ → String → Outcome} {path : String} {body : Body} {c : Cluster}
    (hnodup : c.peers.Nodup) {l : Fin c.peers.length}
    (h : StableLeader c.peers (c.peers.get l) answer) {budget : ℕ}
    (hbudget : c.peers.length < budget) :
    Finds answer (c.peers.get l) path body budget c (c.peers.length + 1) := by
  have hlisted : ∀ (i : Fin c.peers.length) (m : ℕ), c.peers.length ≤ m →
      Finds answer (c.peers.get l) path body m (c.setLeader (c.peers.get i)) c.peers.length := by
    intro i m hm
    have hd : (l.val + (c.peers.length - i.val)) % c.peers.length < c.peers.length :=
      Nat.mod_lt _ c.peers_pos
    refine (finds_listed hnodup h hd ?_ (by omega)).mono (by omega)
    have hsum : i.val + (l.val + (c.peers.length - i.val)) = l.val + c.peers.length := by omega
    rw [Nat.add_mod_mod, hsum, Nat.add_mod_right, Nat.mod_eq_of_lt l.isLt]
  by_cases hmem : c.leader ∈ c.peers
  · obtain ⟨i, hi⟩ := List.mem_iff_get.mp hmem
    have hstart : c.setLeader (c.peers.get i) = c := by
      rw [hi]
      rfl
    have hfinds := hlisted i budget hbudget.le
    rw [hstart] at hfinds
    exact hfinds.mono (Nat.le_succ _)
  · obtain ⟨m, rfl⟩ : ∃ m, budget = m + 1 := ⟨budget - 1, by omega⟩
    exact finds_of_dead (h.unlisted _ hmem) (hlisted _ m (by omega))

/-! ## The result -/

/-- **A lone request finds a stable leader.**  Whatever address is tracked at the start, it ends
with `Ok(())` after at most one attempt more than there are peers, which its budget covers, and the
leader is then tracked. -/
theorem finds_stable_leader (c : Cluster) (hnodup : c.peers.Nodup) (leader : String)
    (answer : ℕ → String → Outcome) (h : StableLeader c.peers leader answer) (path : String)
    (body : Body) :
    c.peers.length + 1 ≤ max (c.peers.length * 4) 8 ∧
      ∃ sends c', (postWithForwarding c.peers.length path body).run (lone answer) (c, 0)
          = some (.ok (), (c', sends)) ∧
        sends ≤ c.peers.length + 1 ∧ c'.peers = c.peers ∧ c'.leader = leader := by
  have hbudget : c.peers.length + 1 ≤ max (c.peers.length * 4) 8 := by
    omega
  refine ⟨hbudget, ?_⟩
  obtain ⟨l, rfl⟩ := List.mem_iff_get.mp h.listed
  obtain ⟨sends, hsends, hrun⟩ := finds_anywhere hnodup h hbudget 0
  rw [Nat.zero_add] at hrun
  exact ⟨sends, _, hrun, hsends, rfl, rfl⟩

/-- The reply of a follower of `leader`. -/
def forwardTo (leader : String) : Json :=
  .object [("Err", .object [("ForwardToLeader",
    .object [("leader_id", .null), ("leader_node", .object [("data", .string leader)])])])]

/-- The first of three peers leads, the second is down and the third follows. -/
def threePeers (_ : ℕ) (addr : String) : Outcome :=
  if addr = "a" then .replied (some (.object [("Ok", .null)]))
  else if addr = "c" then .replied (some (forwardTo "a"))
  else .unreachable

/-- From an unlisted address over the dead second peer and the third to the leader. -/
theorem finds_first_of_three :
    ∃ sends c', (postWithForwarding 3 "write" (.request (.set "k" "v"))).run (lone threePeers)
        (⟨["a", "b", "c"], "x", List.cons_ne_nil _ _⟩, 0) = some (.ok (), (c', sends)) ∧
      sends ≤ 4 ∧ c'.leader = "a" := by
  have hothers : ∀ addr, addr ≠ "a" → addr ≠ "c" → Dead threePeers addr := by
    intro addr ha hc k
    rw [threePeers, if_neg ha, if_neg hc]
  have hstable : StableLeader ["a", "b", "c"] "a" threePeers := by
    refine ⟨by simp, fun k => ⟨.null, rfl⟩, ?_, ?_⟩
    · intro addr _ ha
      by_cases hc : addr = "c"
      · right
        intro k
        subst hc
        exact ⟨forwardTo "a", rfl, rfl⟩
      · exact .inl (hothers addr ha hc)
    · intro addr haddr
      simp only [List.mem_cons, List.not_mem_nil, or_false, not_or] at haddr
      exact hothers addr haddr.1 haddr.2.2
  obtain ⟨-, sends, c', hrun, hsends, -, hleader⟩ :=
    finds_stable_leader ⟨["a", "b", "c"], "x", List.cons_ne_nil _ _⟩ (by decide) "a" threePeers
      hstable "write" (.request (.set "k" "v"))
  exact ⟨sends, c', hrun, hsends, hleader⟩

end RaftBench.OpenRaft

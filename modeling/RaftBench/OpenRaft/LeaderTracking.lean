import RaftBench.Lib.Machine
import RaftBench.OpenRaft.Client

/-!
# Many requests, one tracked leader

The requests of the load generator share one `Cluster`.  Each reads the tracked leader once and
sends to that address; much later it ends, with a transport failure that rotates the tracked
leader, with a redirect that installs one, or without touching it.

`rotate` moves on from whatever is tracked *when the failure arrives*, not from the address the
request was sent to.  `FailureHarmless` is what a failure should leave intact, `Timely` is when it
does: the tracked leader is still the address that failed, and the next peer in the list is another
one.  `failures_harmless_iff_timely` has the two directions, and what the condition buys for a
burst of failures and for a leader that a redirect has just installed.
-/

namespace RaftBench.OpenRaft

/-! ## The machine -/

/-- A request: where it was sent, and which addresses others have installed since. -/
structure Flight where
  addr : String
  installed : List String := []
  ended : Bool := false
  deriving DecidableEq, Repr

structure Tracking where
  cluster : Cluster
  flights : List Flight := []

/-- The leader that is tracked. -/
def Tracking.leader (w : Tracking) : String := w.cluster.leader

inductive TrackingEvent where
  /-- a request reads `current()` and is sent -/
  | send
  /-- request `k` fails at transport -/
  | fail (k : ℕ)
  /-- request `k` receives a `ForwardToLeader` -/
  | redirect (k : ℕ) (addr : String)
  /-- request `k` ends in any other way -/
  | succeed (k : ℕ)
  deriving DecidableEq, Repr

/-- Request `k`, if it is in flight. -/
def Tracking.inFlight (w : Tracking) (k : ℕ) : Option Flight :=
  (w.flights[k]?).filter fun f => !f.ended

/-- The requests, with request `k` ended. -/
def Tracking.finish (w : Tracking) (k : ℕ) (f : Flight) : List Flight :=
  w.flights.set k { f with ended := true }

def trackingStep (w : Tracking) : TrackingEvent → Option Tracking
  | .send => some { w with flights := w.flights ++ [{ addr := w.cluster.current }] }
  | .fail k => (w.inFlight k).map fun f => ⟨w.cluster.rotate, w.finish k f⟩
  | .redirect k addr => (w.inFlight k).map fun f =>
      ⟨w.cluster.setLeader addr,
        (w.finish k f).map fun g => { g with installed := g.installed ++ [addr] }⟩
  | .succeed k => (w.inFlight k).map fun f => { w with flights := w.finish k f }

def tracking : Machine Tracking TrackingEvent where
  step := trackingStep

lemma step_fail {w w' : Tracking} {k : ℕ} (h : tracking.step w (.fail k) = some w') :
    ∃ f, w.inFlight k = some f ∧ w' = ⟨w.cluster.rotate, w.finish k f⟩ := by
  obtain ⟨f, hf, rfl⟩ := Option.map_eq_some_iff.mp h
  exact ⟨f, hf, rfl⟩

lemma step_redirect {w w' : Tracking} {k : ℕ} {addr : String}
    (h : tracking.step w (.redirect k addr) = some w') :
    ∃ f, w.inFlight k = some f ∧ w' = ⟨w.cluster.setLeader addr,
      (w.finish k f).map fun g => { g with installed := g.installed ++ [addr] }⟩ := by
  obtain ⟨f, hf, rfl⟩ := Option.map_eq_some_iff.mp h
  exact ⟨f, hf, rfl⟩

/-! ## What a failure may do -/

/-- The failure of a request leaves alone what it knows nothing about: it changes the tracked leader
only if that is still the address the request was sent to, it leaves another address tracked than
that one, and it does not move away from an address installed since the request was sent. -/
def FailureHarmless (w : Tracking) (e : TrackingEvent) : Prop :=
  ∀ k f w', e = .fail k → w.inFlight k = some f → tracking.step w e = some w' →
    (w'.leader ≠ w.leader → w.leader = f.addr) ∧ w'.leader ≠ f.addr ∧
      (w.leader ∈ f.installed → w'.leader = w.leader)

/-- The failure comes in time: the tracked leader is still the failed address, nobody has installed
it anew, and the peer after it is another one.  (Or the list repeats the tracked leader where
`rotate` looks, so that rotating does nothing.) -/
def FailureTimely (w : Tracking) (f : Flight) : Prop :=
  (w.leader = f.addr ∧ f.addr ∉ f.installed ∧ w.cluster.next f.addr ≠ f.addr) ∨
    (w.leader ≠ f.addr ∧ w.cluster.next w.leader = w.leader)

def Timely (w : Tracking) : TrackingEvent → Prop
  | .fail k => ∀ f ∈ w.inFlight k, FailureTimely w f
  | _ => True

instance (w : Tracking) (f : Flight) : Decidable (FailureTimely w f) :=
  inferInstanceAs (Decidable (_ ∨ _))

instance (w : Tracking) : (e : TrackingEvent) → Decidable (Timely w e)
  | .send => isTrue trivial
  | .fail k => inferInstanceAs (Decidable (∀ f ∈ w.inFlight k, FailureTimely w f))
  | .redirect _ _ => isTrue trivial
  | .succeed _ => isTrue trivial

/-- **One step.**  A failure is harmless exactly when it comes in time. -/
lemma failureHarmless_iff_timely (w : Tracking) (e : TrackingEvent) :
    FailureHarmless w e ↔ Timely w e := by
  cases e with
  | send => simp [FailureHarmless, Timely]
  | redirect k addr => simp [FailureHarmless, Timely]
  | succeed k => simp [FailureHarmless, Timely]
  | fail k =>
      constructor
      · intro h f hf
        have hstep : tracking.step w (.fail k) = some ⟨w.cluster.rotate, w.finish k f⟩ := by
          simp only [tracking, trackingStep]
          rw [hf]
          rfl
        obtain ⟨honly, hother, hinstalled⟩ := h k f _ rfl hf hstep
        by_cases hleader : w.leader = f.addr
        · refine Or.inl ⟨hleader, ?_, ?_⟩
          · intro hmem
            exact hother ((hinstalled (hleader ▸ hmem)).trans hleader)
          · have hmoved : w.cluster.next w.leader ≠ f.addr := hother
            rwa [hleader] at hmoved
        · refine Or.inr ⟨hleader, ?_⟩
          by_contra hmoved
          exact hleader (honly hmoved)
      · rintro h k' f w' ⟨⟩ hf hstep
        obtain ⟨f', hf', rfl⟩ := step_fail hstep
        rcases h f hf with ⟨hleader, hnew, hnext⟩ | ⟨hleader, hnext⟩
        · refine ⟨fun _ => hleader, ?_, ?_⟩
          · rw [← hleader] at hnext ⊢
            exact hnext
          · intro hmem
            exact absurd (hleader ▸ hmem) hnew
        · refine ⟨fun hmoved => absurd hnext hmoved, ?_, fun _ => hnext⟩
          intro hsame
          exact hleader (hnext.symm.trans hsame)

/-! ## Runs -/

/-- The addresses requests were sent to do not change. -/
lemma addr_of_inFlight {w w' : Tracking} {e : TrackingEvent} (h : tracking.step w e = some w')
    {k : ℕ} {f f' : Flight} (hf : w.inFlight k = some f) (hf' : w'.flights[k]? = some f') :
    f'.addr = f.addr := by
  have hk := (Option.filter_eq_some_iff.mp hf).1
  have hset (j : ℕ) (g : Flight) (hg : w.inFlight j = some g) :
      ∀ g', (w.finish j g)[k]? = some g' → g'.addr = f.addr := by
    intro g' hg'
    have hj := (Option.filter_eq_some_iff.mp hg).1
    rw [Tracking.finish, List.getElem?_set] at hg'
    split_ifs at hg' with hjk hlt
    · subst hjk
      obtain rfl := Option.some.inj hg'
      rw [hk, Option.some.injEq] at hj
      rw [hj]
    · rw [hk, Option.some.injEq] at hg'
      rw [hg']
  cases e with
  | send =>
      obtain rfl := Option.some.inj h
      obtain ⟨hlt, -⟩ := List.getElem?_eq_some_iff.mp hk
      rw [List.getElem?_append_left hlt, hk, Option.some.injEq] at hf'
      rw [hf']
  | fail j =>
      obtain ⟨g, hg, rfl⟩ := step_fail h
      exact hset j g hg f' hf'
  | redirect j addr =>
      obtain ⟨g, hg, rfl⟩ := step_redirect h
      rw [List.getElem?_map, Option.map_eq_some_iff] at hf'
      obtain ⟨g', hg', rfl⟩ := hf'
      exact hset j g hg g' hg'
  | succeed j =>
      obtain ⟨g, hg, rfl⟩ := Option.map_eq_some_iff.mp h
      exact hset j g hg f' hf'

/-- After a burst of failures against one address, another one is tracked. -/
lemma leader_ne_of_failures {c : Cluster} {pre fails : List TrackingEvent} {w : Tracking}
    {addr : String} (hrun : tracking.run { cluster := c } (pre ++ fails) = some w)
    (htimely : tracking.Along Timely { cluster := c } (pre ++ fails)) (hne : fails ≠ [])
    (hfails : ∀ e ∈ fails, ∃ k f, e = .fail k ∧ w.flights[k]? = some f ∧ f.addr = addr) :
    w.leader ≠ addr := by
  -- the last failure decides
  obtain ⟨fails, e, rfl⟩ := (List.eq_nil_or_concat fails).resolve_left hne
  obtain ⟨k, f', rfl, hf', rfl⟩ := hfails e (by simp)
  rw [List.concat_eq_append, ← List.append_assoc] at hrun htimely
  obtain ⟨u, hu, hstep⟩ := Machine.run_concat.mp hrun
  have hlast := ((Machine.along_concat_of_run hu).mp htimely).2
  obtain ⟨f, hf, hw⟩ := step_fail hstep
  rw [addr_of_inFlight hstep hf hf']
  exact ((failureHarmless_iff_timely u (.fail k)).mpr hlast k f w rfl hf hstep).2.1

/-- Every request in flight was sent before `addr` was installed, and `addr` is tracked. -/
def Installed (addr : String) (w : Tracking) : Prop :=
  w.leader = addr ∧ ∀ k f, w.inFlight k = some f → addr ∈ f.installed

lemma installed_redirect {w w' : Tracking} {k : ℕ} {addr : String}
    (h : tracking.step w (.redirect k addr) = some w') : Installed addr w' := by
  obtain ⟨f, -, rfl⟩ := step_redirect h
  refine ⟨rfl, ?_⟩
  intro j g hg
  have hj := (Option.filter_eq_some_iff.mp hg).1
  rw [List.getElem?_map, Option.map_eq_some_iff] at hj
  obtain ⟨g', -, rfl⟩ := hj
  simp

lemma installed_fail {w w' : Tracking} {k : ℕ} {addr : String} (h : Installed addr w)
    (htimely : Timely w (.fail k)) (hstep : tracking.step w (.fail k) = some w') :
    Installed addr w' := by
  obtain ⟨hleader, hall⟩ := h
  obtain ⟨f, hf, hw⟩ := step_fail hstep
  have hharmless := (failureHarmless_iff_timely w (.fail k)).mpr htimely k f w' rfl hf hstep
  refine ⟨(hharmless.2.2 (hleader ▸ hall k f hf)).trans hleader, ?_⟩
  intro j g hg
  obtain ⟨hj, hopen⟩ := Option.filter_eq_some_iff.mp hg
  subst hw
  rw [Tracking.finish, List.getElem?_set] at hj
  split_ifs at hj with hkj hlt
  · obtain rfl := Option.some.inj hj
    simp at hopen
  · exact hall j g (Option.filter_eq_some_iff.mpr ⟨hj, hopen⟩)

/-- A leader installed by a redirect outlives the failures of all requests sent before. -/
lemma leader_eq_of_redirect {w w' : Tracking} {fails : List TrackingEvent} {addr : String}
    (hinstalled : Installed addr w) (hrun : tracking.run w fails = some w')
    (htimely : tracking.Along Timely w fails) (hfails : ∀ e ∈ fails, ∃ k, e = .fail k) :
    w'.leader = addr := by
  induction fails generalizing w with
  | nil =>
      obtain rfl := Option.some.inj hrun
      exact hinstalled.1
  | cons e fails ih =>
      obtain ⟨k, rfl⟩ := hfails e (by simp)
      rw [Machine.run_cons, Option.bind_eq_some_iff] at hrun
      obtain ⟨u, hu, hrun⟩ := hrun
      refine ih (installed_fail hinstalled htimely.1 hu) hrun (htimely.2 u hu) ?_
      exact fun e he => hfails e (List.mem_cons_of_mem _ he)

/-- **When stale failures leave the tracked leader alone.**  For every run, every failure in it is
harmless exactly when every failure in it is timely.  In such a run any burst of failures against
one address leaves another one tracked, and a leader installed by a redirect stays tracked through
the failures of all requests sent before. -/
theorem failures_harmless_iff_timely (c : Cluster) (events : List TrackingEvent) (w : Tracking)
    (hrun : tracking.run { cluster := c } events = some w) :
    (tracking.Along FailureHarmless { cluster := c } events ↔
        tracking.Along Timely { cluster := c } events) ∧
      (tracking.Along Timely { cluster := c } events →
        (∀ pre fails addr, events = pre ++ fails → fails ≠ [] →
          (∀ e ∈ fails, ∃ k f, e = .fail k ∧ w.flights[k]? = some f ∧ f.addr = addr) →
          w.leader ≠ addr) ∧
        (∀ pre k addr fails, events = pre ++ .redirect k addr :: fails →
          (∀ e ∈ fails, ∃ j, e = .fail j) → w.leader = addr)) := by
  refine ⟨Machine.along_congr failureHarmless_iff_timely, fun htimely => ⟨?_, ?_⟩⟩
  · rintro pre fails addr rfl hne hfails
    exact leader_ne_of_failures hrun htimely hne hfails
  · rintro pre k addr fails rfl hfails
    rw [Machine.run_append, Option.bind_eq_some_iff] at hrun
    obtain ⟨u, hu, hrun⟩ := hrun
    rw [Machine.run_cons, Option.bind_eq_some_iff] at hrun
    obtain ⟨v, hv, hrun⟩ := hrun
    have hafter := (Machine.along_append.mp htimely).2 u hu
    exact leader_eq_of_redirect (installed_redirect hv) hrun (hafter.2 v hv) hfails

/-- Two peers, the first of them tracked. -/
def twoPeers : Cluster := .new ["a", "b"] (by simp)

/-- One failure, in time: the generator goes on with the other peer. -/
theorem failures_harmless_one :
    ∃ w, tracking.run { cluster := twoPeers } [.send, .fail 0] = some w ∧
      tracking.Along FailureHarmless { cluster := twoPeers } [.send, .fail 0] ∧
      w.leader ≠ "a" := by
  obtain ⟨w, hw⟩ : ∃ w, tracking.run { cluster := twoPeers } [.send, .fail 0] = some w :=
    ⟨_, rfl⟩
  have htimely : tracking.Along Timely { cluster := twoPeers } [.send, .fail 0] := by decide
  obtain ⟨hiff, hburst⟩ := failures_harmless_iff_timely twoPeers _ w hw
  refine ⟨w, hw, hiff.mpr htimely, (hburst htimely).1 [.send] [.fail 0] "a" rfl (by simp) ?_⟩
  obtain rfl := Option.some.inj hw
  simp [Tracking.finish, twoPeers, Cluster.new, Cluster.current]

/-- Two requests are sent to `a`.  The first is redirected to `b`, and the late failure of the
second points everyone back at `a`. -/
theorem late_failure_unseats_leader :
    ¬ ∀ (c : Cluster) (events : List TrackingEvent) (w : Tracking),
      (∃ p ∈ c.peers, ∃ q ∈ c.peers, p ≠ q) →
      tracking.run { cluster := c } events = some w →
        tracking.Along FailureHarmless { cluster := c } events := by
  intro h
  have hharmless := h twoPeers [.send, .send, .redirect 0 "b", .fail 1] _
    ⟨"a", by decide, "b", by decide, by decide⟩ rfl
  rw [Machine.along_congr failureHarmless_iff_timely] at hharmless
  revert hharmless
  decide

end RaftBench.OpenRaft

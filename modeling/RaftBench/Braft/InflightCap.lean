import RaftBench.Braft.Accounting
import RaftBench.Braft.Routing

/-!
# The cap and the channels of the open loop

The scheduler reads `g_inflight`, compares it with `--max_inflight`, and increments it two shared
accesses later; callbacks decrement it in between.  Since no other thread increments it, what the
scheduler has read is an upper bound until it increments, and the cap holds at every step.

The channels are built in a loop that stops at the first failure, so the vector can be left short.
It is only indexed where `have_channel` is set, and `have_channel` is only set where the loop went
through.

`LoopBounds` is the invariant behind both; `loopBounds_step` is one case analysis on what a step
can do, and `withinLimits_run` puts it together with the books of `accounting_run`.
-/

namespace RaftBench.Braft

/-- The calls `g_inflight` stands for: the issued ones whose callback has not decremented it, and
the one whose increment is done while `compare_exchange` is still to be entered. -/
def OpenLoop.outstanding (w : OpenLoop) : ℕ :=
  callsIn w.calls CallPhase.isPending + w.pc.counting

lemma OpenConfig.nchannels_pos (cfg : OpenConfig) : 0 < cfg.nchannels := by
  unfold nchannels
  split_ifs with h
  · omega
  · exact Nat.one_pos

/-! ## The invariant -/

/-- What the scheduler's position says about the cap and about the vector of channels; that it only
sends with `have_channel` set is part of `Routed`. -/
structure LoopBounds (cfg : OpenConfig) (w : OpenLoop) : Prop where
  cap : w.inflight ≤ cfg.maxInflight
  room : ∀ scheduled i, w.pc = .admitted scheduled i → w.inflight < cfg.maxInflight
  filled : w.haveChannel = true → w.channels.length = cfg.nchannels
  filling : ∀ scheduled, w.pc = .resolving scheduled → w.channels.length < cfg.nchannels
  safe : w.pc ≠ .crashed

lemma loopBounds_init (cfg : OpenConfig) (table : Option String) :
    LoopBounds cfg { leader := table } := by
  have hcap : (0 : ℤ) ≤ cfg.maxInflight := le_trans Int.one_nonneg cfg.maxInflight_pos
  exact ⟨hcap, by simp, by simp, by simp, by simp⟩

/-- The channel of a sequence number is there. -/
lemma LoopBounds.index_lt {cfg : OpenConfig} {w : OpenLoop} (h : LoopBounds cfg w)
    (hr : Routed w) (hsending : w.pc.sending = true) :
    w.channels.length = cfg.nchannels ∧ w.sequence % cfg.nchannels < w.channels.length := by
  have hlength := h.filled (hr.sending hsending)
  refine ⟨hlength, ?_⟩
  rw [hlength]
  exact Nat.mod_lt _ cfg.nchannels_pos

/-- **Every step keeps within the bounds.**  Only `counts` increments `g_inflight`, and it comes
from `admitted`, where there was room when the counter was read and callbacks can only have made
more since. -/
lemma loopBounds_step {cfg : OpenConfig} {w v : OpenLoop} {e : OpenLoopEvent} (hr : Routed w)
    (h : LoopBounds cfg w) (hstep : OpenLoopStep cfg w e v) : LoopBounds cfg v := by
  have hindex := h.index_lt hr
  obtain ⟨hcap, hroom, hfilled, hfilling, hsafe⟩ := h
  cases hstep with
  | idle | measures | completes | fails => exact ⟨hcap, hroom, hfilled, hfilling, hsafe⟩
  | ends | quits | starts | closes | drops | issues | advances | drains | drained =>
      exact ⟨hcap, by simp, hfilled, by simp, by simp⟩
  | resolves _ _ _ _ noChannel =>
      exact ⟨hcap, by simp, by simp [noChannel], fun _ _ => cfg.nchannels_pos, by simp⟩
  | refreshFailed => exact ⟨hcap, by simp, by simp, by simp, by simp⟩
  | refreshedOne _ _ scheduled _ _ pc more =>
      have hno := hr.haveChannel_resolving pc
      exact ⟨hcap, hroom, by simp [hno], fun _ _ => by simpa using more, hsafe⟩
  | refreshedAll _ _ scheduled _ _ pc all =>
      have hshort := hfilling scheduled pc
      refine ⟨hcap, by simp, ?_, by simp, by simp⟩
      intro _
      rw [List.length_append, List.length_singleton]
      omega
  | admits _ _ _ _ _ room => exact ⟨hcap, fun _ _ _ => room, hfilled, by simp, by simp⟩
  | counts _ scheduled i _ pc =>
      have hlt := hroom scheduled i pc
      refine ⟨?_, by simp, hfilled, by simp, by simp⟩
      dsimp only
      omega
  | crashes _ _ _ pc missing =>
      rw [pc] at hindex
      have hlt := (hindex rfl).2
      rw [List.getElem?_eq_none_iff] at missing
      omega
  | begins =>
      refine ⟨?_, ?_, hfilled, hfilling, hsafe⟩
      · dsimp only
        omega
      · intro scheduled i pc
        have hlt := hroom scheduled i pc
        dsimp only
        omega

lemma loopBounds_run {cfg : OpenConfig} {table : Option String} {events : List OpenLoopEvent}
    {w : OpenLoop} (hrun : (openLoop cfg).run { leader := table } events = some w) :
    Routed w ∧ LoopBounds cfg w := by
  refine Machine.invariant (I := fun s => Routed s ∧ LoopBounds cfg s) ?_
    ⟨routed_init table, loopBounds_init cfg table⟩ hrun
  intro s e s' hs hstep
  obtain ⟨v, hv, rfl⟩ := openLoop_step hstep
  obtain ⟨hcap, hroom, hfilled, hfilling, hsafe⟩ := loopBounds_step hs.1 hs.2 hv
  exact ⟨routed_step hs.1 hv, hcap, hroom, hfilled, hfilling, hsafe⟩

/-! ## The loop within its limits -/

/-- `g_inflight` counts the outstanding calls and stays between `0` and the cap, and where a
request is sent every channel is there. -/
structure WithinLimits (cfg : OpenConfig) (w : OpenLoop) : Prop where
  counted : w.inflight = w.outstanding
  nonneg : 0 ≤ w.inflight
  capped : w.inflight ≤ cfg.maxInflight
  indexed : w.pc.sending = true →
    w.channels.length = cfg.nchannels ∧ w.sequence % cfg.nchannels < w.channels.length
  safe : w.pc ≠ .crashed

/-- **The open loop stays within its limits at every step of every run.** -/
theorem withinLimits_run (cfg : OpenConfig) (table : Option String) (events : List OpenLoopEvent)
    (w : OpenLoop) (hrun : (openLoop cfg).run { leader := table } events = some w) :
    WithinLimits cfg w := by
  obtain ⟨hrouted, hbounds⟩ := loopBounds_run hrun
  have hcounted : w.inflight = w.outstanding := by
    rw [(accounting_run hrun).inflight, OpenLoop.outstanding, Nat.cast_add]
  refine ⟨hcounted, ?_, hbounds.cap, hbounds.index_lt hrouted, hbounds.safe⟩
  rw [hcounted]
  exact Int.natCast_nonneg _

/-- The one request is admitted: its channel is there and nothing is in flight yet. -/
theorem withinLimits_admitted :
    ∃ w, (openLoop oneRequest).run { leader := some "a" }
        [.scheduler 0, .refresh none true, .scheduler 0] = some w ∧
      w.pc = .admitted 0 0 ∧ WithinLimits oneRequest w := by
  have hpc : ((openLoop oneRequest).run { leader := some "a" }
      [.scheduler 0, .refresh none true, .scheduler 0]).map OpenLoop.pc
      = some (.admitted 0 0) := by
    decide +kernel
  obtain ⟨w, hrun, hw⟩ := Option.map_eq_some_iff.mp hpc
  exact ⟨w, hrun, hw, withinLimits_run oneRequest (some "a") _ w hrun⟩

end RaftBench.Braft

import Mathlib.Data.Rat.Floor
import Mathlib.Algebra.Order.Floor.Semiring
import Mathlib.Tactic.Linarith

/-!
# The open-loop schedule

What the three load generators are meant to offer in open mode, said once and without reference to
any of their loops: sequence number `k` belongs to the burst that begins at
`burst * (k / burst)`, every number of a burst shares the burst's scheduled instant, and the
schedule ends with the first burst whose instant lies past the end of the run.

* `Pace.scheduledAt` — the instant of a sequence number, in exact arithmetic where the sources use
  doubles.
* `Pace.length` — how many sequence numbers the schedule has; `span_le_length` and `length_lt`
  are its two bounds, and `eq_length_of_past` recognises it where a loop stops.
* `Pace.AtHead` and `Pace.InBurst` — where a scheduler stands, before a burst or inside one, with
  the moves from one to the other.
* `Pace.OnSchedule` — the history of a scheduler follows the schedule; `OnSchedule.pushSent` and
  `OnSchedule.pushDropped` are the two ways in which the loops extend it.
-/

namespace RaftBench

/-- The parameters of an open-loop run: `ticks` clock ticks per second, a target rate, the number
of requests per scheduled instant, and the two ends of the run. -/
structure Pace where
  ticks : ℕ
  rate : ℕ
  burst : ℕ
  start : ℤ
  stop : ℤ
  ticks_pos : 0 < ticks
  rate_pos : 1 ≤ rate
  burst_pos : 1 ≤ burst
  start_le : start ≤ stop

/-- One request a second, from `0` to `stop`. -/
def Pace.eachSecond (stop : ℕ) : Pace where
  ticks := 1
  rate := 1
  burst := 1
  start := 0
  stop := stop
  ticks_pos := Nat.one_pos
  rate_pos := le_rfl
  burst_pos := le_rfl
  start_le := Int.natCast_nonneg stop

/-- What became of a sequence number: sent with a scheduled instant, or dropped by the rig. -/
inductive Fate where
  | sent (scheduled : ℤ)
  | dropped
  deriving DecidableEq, Repr

/-- The instant a number was sent with. -/
def Fate.scheduled? : Fate → Option ℤ
  | .sent scheduled => some scheduled
  | .dropped => none

namespace Pace

variable (p : Pace)

/-- Ticks between two requests. -/
def interval : ℚ := p.ticks / p.rate

/-- The scheduled instant computed from a sequence number. -/
def scheduledAt (sequence : ℕ) : ℤ := p.start + ⌊(sequence : ℚ) * p.interval⌋

/-- The first number of the burst `k` belongs to. -/
def burstHead (k : ℕ) : ℕ := p.burst * (k / p.burst)

/-- The requests that fit between `start` and `stop`, the end tick included. -/
def span : ℚ := p.rate * (p.stop - p.start + 1) / p.ticks

/-- The number of sequence numbers the schedule has: whole bursts covering `span`. -/
def length : ℕ := p.burst * ⌈p.span / p.burst⌉₊

lemma ticks_cast_pos : (0 : ℚ) < p.ticks := Nat.cast_pos.mpr p.ticks_pos

lemma rate_cast_pos : (0 : ℚ) < p.rate := Nat.cast_pos.mpr p.rate_pos

lemma burst_cast_pos : (0 : ℚ) < p.burst := Nat.cast_pos.mpr p.burst_pos

lemma span_pos : 0 < p.span := by
  have hduration : (0 : ℚ) < (p.stop : ℚ) - p.start + 1 := by
    have : (p.start : ℚ) ≤ p.stop := Int.cast_le.mpr p.start_le
    linarith
  exact div_pos (mul_pos p.rate_cast_pos hduration) p.ticks_cast_pos

/-! ## Where the schedule ends -/

/-- A sequence number lies past the end exactly from `span` on. -/
lemma stop_lt_scheduledAt (s : ℕ) : p.stop < p.scheduledAt s ↔ p.span ≤ s := by
  have hticks := p.ticks_cast_pos
  have hrate := p.rate_cast_pos
  have hfloor : p.stop < p.scheduledAt s ↔ p.stop - p.start + 1 ≤ ⌊(s : ℚ) * p.interval⌋ := by
    unfold scheduledAt
    omega
  rw [hfloor, Int.le_floor, span, interval, div_le_iff₀ hticks]
  push_cast
  rw [mul_div_assoc', le_div_iff₀ hrate]
  constructor <;> intro h <;> linarith

lemma span_le_length : p.span ≤ p.length := by
  have hburst := p.burst_cast_pos
  have hceil : p.span / p.burst ≤ (⌈p.span / p.burst⌉₊ : ℚ) := Nat.le_ceil _
  rw [div_le_iff₀ hburst] at hceil
  rw [length]
  push_cast
  linarith

lemma length_lt : (p.length : ℚ) < p.span + p.burst := by
  have hburst := p.burst_cast_pos
  have hnonneg : 0 ≤ p.span / p.burst := (div_pos p.span_pos hburst).le
  have hceil : (⌈p.span / p.burst⌉₊ : ℚ) < p.span / p.burst + 1 := Nat.ceil_lt_add_one hnonneg
  have hmul := mul_lt_mul_of_pos_left hceil hburst
  rw [mul_add, mul_div_cancel₀ _ hburst.ne', mul_one] at hmul
  rw [length]
  push_cast
  exact hmul

lemma burst_dvd_length : p.burst ∣ p.length := Dvd.intro _ rfl

/-- **A loop that stops at the first burst past the end stops at `length`.** -/
theorem eq_length_of_past {s : ℕ} (hdvd : p.burst ∣ s) (hpast : p.stop < p.scheduledAt s)
    (hbefore : s = 0 ∨ p.scheduledAt (s - p.burst) ≤ p.stop) : s = p.length := by
  have hpos := p.span_pos
  have hburst := p.burst_cast_pos
  have hge : p.span ≤ s := (p.stop_lt_scheduledAt s).mp hpast
  -- the last burst before `s` was still inside, so `s` is less than a burst past `span`
  have hlt : (s : ℚ) < p.span + p.burst := by
    rcases hbefore with rfl | hbefore
    · push_cast at hge ⊢
      linarith
    · have hinside : ((s - p.burst : ℕ) : ℚ) < p.span := by
        rw [← not_le, ← p.stop_lt_scheduledAt, not_lt]
        exact hbefore
      have hsub : (s : ℚ) ≤ ((s - p.burst : ℕ) : ℚ) + p.burst := by
        rw [← Nat.cast_add]
        exact Nat.cast_le.mpr (by omega)
      linarith
  obtain ⟨a, rfl⟩ := hdvd
  obtain ⟨b, hb⟩ := p.burst_dvd_length
  have hle := p.span_le_length
  have hltl := p.length_lt
  rw [hb] at hle hltl ⊢
  push_cast at hge hlt hle hltl
  have hab : (a : ℚ) < b + 1 := by nlinarith
  have hba : (b : ℚ) < a + 1 := by nlinarith
  have hab' : a < b + 1 := by exact_mod_cast hab
  have hba' : b < a + 1 := by exact_mod_cast hba
  have : a = b := by omega
  rw [this]

/-! ## Where a scheduler stands -/

variable {p}

/-- Before a burst: the sequence number begins one, and the burst before it was still inside. -/
structure AtHead (p : Pace) (sequence : ℕ) : Prop where
  dvd : p.burst ∣ sequence
  before : sequence = 0 ∨ p.scheduledAt (sequence - p.burst) ≤ p.stop

/-- `i` requests into a burst that is inside the run and has the instant `scheduled`. -/
structure InBurst (p : Pace) (scheduled : ℤ) (i sequence : ℕ) : Prop where
  started : ∃ head, p.burst ∣ head ∧ p.scheduledAt head = scheduled ∧ scheduled ≤ p.stop ∧
    sequence = head + i
  le : i ≤ p.burst

lemma atHead_zero : p.AtHead 0 := ⟨Dvd.intro 0 rfl, Or.inl rfl⟩

lemma AtHead.enter {s : ℕ} (h : p.AtHead s) (hinside : p.scheduledAt s ≤ p.stop) :
    p.InBurst (p.scheduledAt s) 0 s :=
  ⟨⟨s, h.dvd, rfl, hinside, rfl⟩, Nat.zero_le _⟩

lemma InBurst.next {scheduled : ℤ} {i s : ℕ} (h : p.InBurst scheduled i s) (hi : i < p.burst) :
    p.InBurst scheduled (i + 1) (s + 1) := by
  obtain ⟨head, hdvd, hsched, hinside, rfl⟩ := h.started
  exact ⟨⟨head, hdvd, hsched, hinside, rfl⟩, hi⟩

lemma InBurst.close {scheduled : ℤ} {i s : ℕ} (h : p.InBurst scheduled i s) (hi : p.burst ≤ i) :
    p.AtHead s := by
  obtain ⟨head, hdvd, hsched, hinside, rfl⟩ := h.started
  obtain rfl : i = p.burst := Nat.le_antisymm h.le hi
  refine ⟨(Nat.dvd_add_right hdvd).mpr dvd_rfl, Or.inr ?_⟩
  rw [Nat.add_sub_cancel, hsched]
  exact hinside

/-- A burst skipped as a whole. -/
lemma AtHead.skip {s : ℕ} (h : p.AtHead s) (hinside : p.scheduledAt s ≤ p.stop) :
    p.AtHead (s + p.burst) := by
  refine ⟨(Nat.dvd_add_right h.dvd).mpr dvd_rfl, Or.inr ?_⟩
  rw [Nat.add_sub_cancel]
  exact hinside

/-- The burst's instant is the one the schedule gives to each of its numbers. -/
lemma InBurst.scheduled_eq {scheduled : ℤ} {i s : ℕ} (h : p.InBurst scheduled i s)
    (hi : i < p.burst) : scheduled = p.scheduledAt (p.burstHead s) := by
  obtain ⟨head, ⟨j, rfl⟩, hsched, -, rfl⟩ := h.started
  rw [burstHead, Nat.mul_add_div p.burst_pos, Nat.div_eq_of_lt hi, Nat.add_zero]
  exact hsched.symm

lemma AtHead.eq_length {s : ℕ} (h : p.AtHead s) (hpast : p.stop < p.scheduledAt s) :
    s = p.length :=
  p.eq_length_of_past h.dvd hpast h.before

/-! ## Following the schedule -/

/-- A scheduler that has gone through `sequence` numbers follows the schedule: the numbers are
`0, 1, …` in order, each was dropped or sent with its burst's instant, `sent` lists the instants of
the requests that went out and `dropped` counts the others. -/
structure OnSchedule (p : Pace) (sequence : ℕ) (history : List (ℕ × Fate)) (sent : List ℤ)
    (dropped : ℕ) : Prop where
  numbers : history.map Prod.fst = List.range sequence
  fates : ∀ k fate, (k, fate) ∈ history →
    fate = .dropped ∨ fate = .sent (p.scheduledAt (p.burstHead k))
  sends : history.filterMap (fun entry => entry.2.scheduled?) = sent
  drops : history.countP (fun entry => entry.2 = .dropped) = dropped

lemma onSchedule_nil : p.OnSchedule 0 [] [] 0 := ⟨rfl, by simp, rfl, rfl⟩

/-- One more number, sent with its burst's instant. -/
lemma OnSchedule.pushSent {s dropped : ℕ} {history : List (ℕ × Fate)} {sent : List ℤ}
    (h : p.OnSchedule s history sent dropped) {scheduled : ℤ}
    (hscheduled : scheduled = p.scheduledAt (p.burstHead s)) :
    p.OnSchedule (s + 1) (history ++ [(s, .sent scheduled)]) (sent ++ [scheduled]) dropped where
  numbers := by
    rw [List.map_append, h.numbers, List.range_succ]
    rfl
  fates := by
    intro k f hf
    rcases List.mem_append.mp hf with hf | hf
    · exact h.fates k f hf
    · rw [List.mem_singleton, Prod.mk.injEq] at hf
      obtain ⟨rfl, rfl⟩ := hf
      exact Or.inr (congrArg Fate.sent hscheduled)
  sends := by
    rw [List.filterMap_append, h.sends]
    rfl
  drops := by
    rw [List.countP_append, h.drops]
    rfl

/-- The entries of `n` numbers dropped together, from `s` on. -/
def droppedFrom (s n : ℕ) : List (ℕ × Fate) := (List.range n).map fun i => (s + i, Fate.dropped)

/-- Several numbers dropped together. -/
lemma OnSchedule.pushDropped {s dropped : ℕ} {history : List (ℕ × Fate)} {sent : List ℤ}
    (h : p.OnSchedule s history sent dropped) (n : ℕ) :
    p.OnSchedule (s + n) (history ++ droppedFrom s n) sent (dropped + n) where
  numbers := by
    rw [List.map_append, h.numbers, List.range_add, droppedFrom, List.map_map]
    rfl
  fates := by
    intro k f hf
    rcases List.mem_append.mp hf with hf | hf
    · exact h.fates k f hf
    · obtain ⟨i, -, hi⟩ := List.mem_map.mp hf
      rw [Prod.mk.injEq] at hi
      exact Or.inl hi.2.symm
  sends := by
    have hnone : (droppedFrom s n).filterMap (fun entry => entry.2.scheduled?) = [] := by
      simp [droppedFrom, Fate.scheduled?]
    rw [List.filterMap_append, h.sends, hnone, List.append_nil]
  drops := by
    have hall : (droppedFrom s n).countP (fun entry => entry.2 = .dropped)
        = (droppedFrom s n).length := by
      rw [List.countP_eq_length]
      simp [droppedFrom]
    rw [List.countP_append, h.drops, hall, droppedFrom, List.length_map, List.length_range]

end Pace

end RaftBench

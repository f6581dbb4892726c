import RaftBench.Braft.Summary
import RaftBench.Sweep.Percentiles

/-!
# The raw file against the client's own report

`merge-hdr.py` promises that merging the raw file of one client reproduces what that client
printed.  Writer and reader agree on the text (`load_hdrRawOut`), but not on two conventions:

* the file names a bucket by its lowest value, the client prints the highest;
* the script asks for the rank `⌈pct * n / 100⌉`, the histogram for `pct * n / 100` rounded half
  up.

`raw_file_reproduces_iff` says for which latencies neither makes a difference.
-/

namespace RaftBench.Sweep

open Braft

/-! ## The file is read as it was written -/

lemma isDigit_or_minus_of_mem_print {z : ℤ} {c : Char} (h : c ∈ Decimal.print z) :
    c.isDigit = true ∨ c = '-' := by
  rw [Decimal.print] at h
  split_ifs at h
  · rcases List.mem_cons.mp h with rfl | h
    · exact Or.inr rfl
    · exact Or.inl (Decimal.isDigit_of_mem_printNat h)
  · exact Or.inl (Decimal.isDigit_of_mem_printNat h)

lemma print_ne_nil (z : ℤ) : Decimal.print z ≠ [] := by
  rw [Decimal.print]
  split_ifs
  · exact List.cons_ne_nil _ _
  · exact Decimal.printNat_ne_nil _

lemma isSpace_of_isDigit {c : Char} (h : c.isDigit = true) : isSpace c = false := by
  have hrange : 48 ≤ c.toNat ∧ c.toNat ≤ 57 := Char.isDigit_iff_toNat.mp h
  simp only [isSpace, Bool.or_eq_false_iff, Bool.and_eq_false_iff, decide_eq_false_iff_not,
    beq_eq_false_iff_ne]
  omega

/-- None of the characters of a line is white space. -/
lemma isSpace_rawLine {run : ℤ × ℕ} {c : Char} (h : c ∈ rawLine run) : isSpace c = false := by
  have hprint : ∀ z, c ∈ Decimal.print z → isSpace c = false := by
    intro z hz
    rcases isDigit_or_minus_of_mem_print hz with hdigit | rfl
    · exact isSpace_of_isDigit hdigit
    · decide
  rcases List.mem_append.mp h with h | h
  · exact hprint _ h
  · rcases List.mem_cons.mp h with rfl | h
    · decide
    · exact hprint _ h

lemma strip_eq_self {s : List Char} (h : ∀ c ∈ s, isSpace c = false) : strip s = s := by
  have hdrop : s.dropWhile isSpace = s := by
    refine List.dropWhile_eq_self_iff.mpr fun hpos => ?_
    simp [h _ (List.getElem_mem hpos)]
  rw [strip, hdrop, List.rdropWhile_eq_self_iff]
  intro hs
  simp [h _ (List.getLast_mem hs)]

lemma strip_line {s : List Char} (hs : s ≠ []) (h : ∀ c ∈ s, isSpace c = false) :
    strip (s ++ ['\n']) = s := by
  obtain ⟨c, cs, rfl⟩ := List.exists_cons_of_ne_nil hs
  have hhead : isSpace c = false := h c (List.mem_cons_self ..)
  have hself : (c :: cs).rdropWhile isSpace = c :: cs := by
    rw [List.rdropWhile_eq_self_iff]
    intro hne
    simp [h _ (List.getLast_mem hne)]
  rw [strip, List.cons_append, List.dropWhile_cons_of_neg (by simp [hhead]), ← List.cons_append,
    List.rdropWhile_concat_pos _ _ _ (by decide), hself]

lemma digits_printNat (n : ℕ) : digits (Decimal.printNat n) = some n := by
  have hnot : '_' ∉ Decimal.printNat n := by
    intro hmem
    simpa using Decimal.isDigit_of_mem_printNat hmem
  have hfilter : (Decimal.printNat n).filter (· ≠ '_') = Decimal.printNat n := by
    refine List.filter_eq_self.mpr fun c hc => ?_
    exact decide_eq_true fun heq => hnot (heq ▸ hc)
  have hnil : [] ∉ (Decimal.printNat n).splitOn '_' := by
    rw [List.splitOn_eq_singleton hnot, List.mem_singleton]
    exact (Decimal.printNat_ne_nil n).symm
  rw [digits, if_neg hnil, hfilter, Decimal.ofDigits_printNat]

lemma int_print (z : ℤ) : int (Decimal.print z) = some z := by
  have hstrip : strip (Decimal.print z) = Decimal.print z := by
    refine strip_eq_self fun c hc => ?_
    rcases isDigit_or_minus_of_mem_print hc with hdigit | rfl
    · exact isSpace_of_isDigit hdigit
    · decide
  rw [int, hstrip]
  by_cases hz : z < 0
  · rw [Decimal.print, if_pos hz]
    simp only [digits_printNat]
    exact congrArg some (show -(z.natAbs : ℤ) = z by omega)
  · rw [Decimal.print, if_neg hz]
    -- a natural number begins with a digit, so neither sign case applies
    obtain ⟨c, cs, hcs⟩ := List.exists_cons_of_ne_nil (Decimal.printNat_ne_nil z.natAbs)
    have hc : c.isDigit = true :=
      Decimal.isDigit_of_mem_printNat (n := z.natAbs) (by simp [hcs])
    have hdigits := digits_printNat z.natAbs
    rw [hcs] at hdigits ⊢
    split
    · rename_i heq
      simp [(List.cons.inj heq).1] at hc
    · rename_i heq
      simp [(List.cons.inj heq).1] at hc
    · rw [hdigits]
      exact congrArg some (show (z.natAbs : ℤ) = z by omega)

/-- A bucket of the histogram, as the script reads it. -/
def bucketOf (run : ℤ × ℕ) : Bucket := toLex (run.1, (run.2 : ℤ))

lemma load_rawLine (run : ℤ × ℕ) (lines : Lines) :
    load (String.ofList (rawLine run ++ ['\n']) :: lines)
      = (load lines).map fun buckets => bucketOf run :: buckets := by
  have hstrip : strip (rawLine run ++ ['\n']) = rawLine run :=
    strip_line (by simp [rawLine]) fun c hc => isSpace_rawLine hc
  have hcomma : ∀ z, ',' ∉ Decimal.print z := by
    intro z hmem
    simpa using isDigit_or_minus_of_mem_print hmem
  have hsplit : (rawLine run).splitOn ',' = [Decimal.print run.1, Decimal.print run.2] := by
    rw [rawLine, List.splitOn_append_cons_self_of_not_mem (hcomma _),
      List.splitOn_eq_singleton (hcomma _)]
  have hkept : ¬ (rawLine run = [] ∨ "value".toList.isPrefixOf (rawLine run)) := by
    obtain ⟨c, cs, hcs⟩ := List.exists_cons_of_ne_nil (print_ne_nil run.1)
    have hc := isDigit_or_minus_of_mem_print (z := run.1) (c := c) (by simp [hcs])
    have hv : 'v' ≠ c := by
      rintro rfl
      simp at hc
    simp [rawLine, hcs, hv]
  simp only [load, String.toList_ofList, hstrip, if_neg hkept, hsplit, int_print]
  cases load lines with
  | none => rfl
  | some buckets => rfl

/-- **Round trip.**  The file holds the buckets of the histogram. -/
lemma load_hdrRawOut (hdr : LatencyHistogram) (measured : List ℤ) :
    load (hdrRawOut hdr measured) = some ((hdr.buckets measured).map bucketOf) := by
  have hlines : ∀ runs : List (ℤ × ℕ),
      load (runs.map fun run => String.ofList (rawLine run ++ ['\n']))
        = some (runs.map bucketOf) := by
    intro runs
    induction runs with
    | nil => rfl
    | cons run runs ih => rw [List.map_cons, load_rawLine, ih, Option.map_some, List.map_cons]
  have hheader : strip "value,count\n".toList = "value,count".toList := by
    decide
  rw [hdrRawOut_eq, load, hheader, if_pos (Or.inr (by decide)), hlines]

/-! ## What the script reports for the file -/

lemma positive_buckets (hdr : LatencyHistogram) (measured : List ℤ) :
    Positive ((hdr.buckets measured).map bucketOf) := by
  intro b hb
  obtain ⟨run, hrun, rfl⟩ := List.mem_map.mp hb
  have hpos := (HdrHistogram.mem_buckets hrun).2
  show (0 : ℤ) < run.2
  omega

lemma samples_buckets (hdr : LatencyHistogram) (measured : List ℤ) :
    samples ((hdr.buckets measured).map bucketOf)
      = (measured : Multiset ℤ).map hdr.lowestEquivalent := by
  have hrun : ∀ run : ℤ × ℕ, (bucketOf run).run = run := by
    intro run
    rfl
  rw [samples, List.map_map, show Bucket.run ∘ bucketOf = id from funext hrun, List.map_id,
    HdrHistogram.expand_buckets]

lemma totalCount_buckets (hdr : LatencyHistogram) (measured : List ℤ) :
    totalCount ((hdr.buckets measured).map bucketOf) = measured.length := by
  rw [← card_samples (positive_buckets hdr measured), samples_buckets, Multiset.card_map,
    Multiset.coe_card]

/-- The percentiles of a report, next to what they are percentiles of. -/
def Report.percentiles (r : Report) : List (ℚ × ℤ) :=
  [(50, r.p50), (90, r.p90), (99, r.p99), (999 / 10, r.p999)]

/-- **The script on the file of one client.**  Each percentile is the lowest value of the bucket
that holds the latency of rank `⌈pct * n / 100⌉`, and the maximum that of the last bucket. -/
lemma main_hdrRawOut (hdr : LatencyHistogram) {measured : List ℤ}
    (htrack : HdrHistogram.Trackable kHighestTrackableUs measured) (hne : measured ≠ []) :
    ∃ report, main [some (hdrRawOut hdr measured)] = some report ∧
      (∀ figure ∈ report.percentiles, ∃ v,
        (measured : Multiset ℤ).ranked (position measured.length figure.1) = some v ∧
          figure.2 = hdr.lowestEquivalent v) ∧
      ∃ run, (hdr.buckets measured).getLast? = some run ∧ report.max = run.1 := by
  have hload : loadAll [some (hdrRawOut hdr measured)]
      = some [(hdr.buckets measured).map bucketOf] := by
    simp [loadAll, load_hdrRawOut]
  have hflatten : [(hdr.buckets measured).map bucketOf].flatten
      = (hdr.buckets measured).map bucketOf := List.append_nil _
  have htotal : 0 < totalCount ((hdr.buckets measured).map bucketOf) := by
    have := List.length_pos_iff.mpr hne
    rw [totalCount_buckets]
    omega
  have hsome : (main [some (hdrRawOut hdr measured)]).isSome := by
    refine (main_isSome_iff _).mpr ⟨_, hload, ?_⟩
    rw [hflatten]
    exact htotal.ne'
  obtain ⟨report, hreport⟩ := Option.isSome_iff_exists.mp hsome
  obtain ⟨histograms, lines, hload', hmerged⟩ := main_eq_some hreport
  obtain rfl := Option.some.inj (hload.symm.trans hload')
  rw [hflatten] at hmerged
  refine ⟨report, hreport, ?_, ?_⟩
  · intro figure hfigure
    have hpct : 0 < figure.1 ∧ figure.1 ≤ 100 := by
      simp only [Report.percentiles, List.mem_cons, List.not_mem_nil, or_false] at hfigure
      rcases hfigure with rfl | rfl | rfl | rfl <;> norm_num
    obtain ⟨low, hlow, hpercentile⟩ :=
      percentile_eq_ranked (positive_buckets hdr measured) htotal hpct.1 hpct.2
    have hfigure' := mergedReport_percentiles hmerged figure hfigure
    obtain rfl := Option.some.inj (hfigure'.symm.trans hpercentile)
    rw [samples_buckets, totalCount_buckets, HdrHistogram.ranked_lowest htrack] at hlow
    obtain ⟨v, hv, hlow⟩ := Option.map_eq_some_iff.mp hlow
    exact ⟨v, hv, hlow.symm⟩
  · obtain ⟨-, hmem, hmax⟩ := mergedReport_figures hmerged
    obtain ⟨b, hb, hbmax⟩ := hmem report.max (by simp [Report.figures])
    obtain ⟨run, hrun, rfl⟩ := List.mem_map.mp hb
    have hlast := List.getLast?_eq_some_getLast (List.ne_nil_of_mem hrun)
    refine ⟨_, hlast, le_antisymm ?_ ?_⟩
    · obtain ⟨v, hv, hlow⟩ := (HdrHistogram.mem_buckets hrun).1
      have hle := HdrHistogram.lowest_le_last hlast hv
      rw [hlow] at hle
      exact hbmax ▸ hle
    · exact hmax _ (List.mem_map_of_mem (List.getLast_mem (List.ne_nil_of_mem hrun)))

/-! ## When the two agree -/

/-- Where the two roundings of the rank part, the latencies on both sides of it are equal. -/
def NeighboursAgree (values : List ℤ) (pct : ℚ) : Prop :=
  0 < Int.fract (pct * values.length / 100) → Int.fract (pct * values.length / 100) < 1 / 2 →
    1 ≤ ⌊pct * values.length / 100⌋ →
      (values : Multiset ℤ).ranked (⌊pct * values.length / 100⌋.toNat - 1)
        = (values : Multiset ℤ).ranked ⌊pct * values.length / 100⌋.toNat

/-- The script's rank and the histogram's rank name equal values exactly then. -/
lemma ranked_eq_iff {values : List ℤ} (hne : values ≠ []) {pct : ℚ} (hpos : 0 < pct) :
    (values : Multiset ℤ).ranked (position values.length pct)
        = (values : Multiset ℤ).ranked (HdrHistogram.rank values.length pct - 1)
      ↔ NeighboursAgree values pct := by
  have hlength : (0 : ℚ) < values.length := by
    exact_mod_cast List.length_pos_iff.mpr hne
  have hposition : position values.length pct = ⌈pct * values.length / 100⌉.toNat - 1 := by
    rw [position, Int.cast_natCast]
  rw [hposition, HdrHistogram.rank, NeighboursAgree]
  have hq : 0 < pct * values.length / 100 := by positivity
  generalize pct * (values.length : ℚ) / 100 = q at hq
  have hsplit := Int.floor_add_fract q
  have hfract := Int.fract_nonneg q
  have hfloor : 0 ≤ ⌊q⌋ := Int.floor_nonneg.mpr hq.le
  rcases hfract.eq_or_lt with h0 | h0
  · -- a whole number: both ranks are it
    have hceil : ⌈q⌉ = ⌊q⌋ := by
      rw [Int.ceil_eq_iff]
      constructor <;> linarith
    have hhalf : ⌊q + 1 / 2⌋ = ⌊q⌋ := by
      rw [Int.floor_eq_iff]
      constructor <;> linarith
    rw [hceil, hhalf, show (max 1 ⌊q⌋).toNat - 1 = ⌊q⌋.toNat - 1 by omega]
    exact iff_of_true rfl fun hfract' => absurd h0 hfract'.ne
  · have hceil : ⌈q⌉ = ⌊q⌋ + 1 := by
      have := Int.fract_lt_one q
      rw [Int.ceil_eq_iff]
      push_cast
      constructor <;> linarith
    rcases lt_or_ge (Int.fract q) (1 / 2) with hlt | hge
    · have hhalf : ⌊q + 1 / 2⌋ = ⌊q⌋ := by
        rw [Int.floor_eq_iff]
        constructor <;> linarith
      rw [hceil, hhalf, show (⌊q⌋ + 1).toNat - 1 = ⌊q⌋.toNat by omega]
      rcases hfloor.eq_or_lt with hzero | hone
      · -- below the first rank both take the first latency
        rw [← hzero]
        exact iff_of_true rfl fun _ _ hone => absurd hone (by norm_num)
      · rw [show (max 1 ⌊q⌋).toNat - 1 = ⌊q⌋.toNat - 1 by omega]
        exact ⟨fun heq _ _ _ => heq.symm, fun heq => (heq h0 hlt hone).symm⟩
    · have hhalf : ⌊q + 1 / 2⌋ = ⌊q⌋ + 1 := by
        have := Int.fract_lt_one q
        rw [Int.floor_eq_iff]
        push_cast
        constructor <;> linarith
      rw [hceil, hhalf, show (max 1 (⌊q⌋ + 1)).toNat - 1 = (⌊q⌋ + 1).toNat - 1 by omega]
      exact iff_of_true rfl fun _ hlt => absurd hlt (not_lt.mpr hge)

/-- The five figures of the script are the five the client printed. -/
def Reproduces (report : Report) (lines : LatencyLines) : Prop :=
  report.p50 = lines.p50 ∧ report.p90 = lines.p90 ∧ report.p99 = lines.p99 ∧
    report.p999 = lines.p999 ∧ report.max = lines.max

/-- The percentiles of the client, as `Report.percentiles`. -/
lemma reproduces_iff (report : Report) (hdr : LatencyHistogram) (measured : List ℤ) :
    Reproduces report (latencyLines hdr measured) ↔
      (∀ figure ∈ report.percentiles, figure.2 = hdr.valueAtPercentile measured figure.1) ∧
        report.max = hdr.max measured := by
  simp only [Reproduces, latencyLines, Report.percentiles, List.forall_mem_cons, List.not_mem_nil,
    false_implies, implies_true, and_true, and_assoc]

/-- Values with buckets of their own: a percentile of the script is the client's exactly when the
two roundings agree. -/
lemma percentile_eq_iff (hdr : LatencyHistogram) {measured : List ℤ}
    (htrack : HdrHistogram.Trackable kHighestTrackableUs measured) (hne : measured ≠ [])
    (hsmall : ∀ v ∈ measured, v < 2048) {pct : ℚ} (hpos : 0 < pct) (hle : pct ≤ 100) {v : ℤ}
    (hv : (measured : Multiset ℤ).ranked (position measured.length pct) = some v) :
    hdr.lowestEquivalent v = hdr.valueAtPercentile measured pct ↔ NeighboursAgree measured pct := by
  obtain ⟨w, hw, hvalue⟩ : ∃ w, (measured : Multiset ℤ).ranked
        (HdrHistogram.rank measured.length pct - 1) = some w ∧
      hdr.valueAtPercentile measured pct = hdr.highestEquivalent w :=
    HdrHistogram.exists_valueAtPercentile htrack hne hle
  have hself : ∀ u ∈ measured, hdr.lowestEquivalent u = u ∧ hdr.highestEquivalent u = u :=
    fun u hu => hdr.own_bucket u (htrack u hu).1 (hsmall u hu)
  rw [hvalue, (hself v (Multiset.mem_of_ranked hv)).1, (hself w (Multiset.mem_of_ranked hw)).2,
    ← ranked_eq_iff hne hpos, hv, hw, Option.some.injEq]

/-- The comparison, for the values in the histogram. -/
lemma reproduces_iff_of_report (hdr : LatencyHistogram) {measured : List ℤ}
    (htrack : HdrHistogram.Trackable kHighestTrackableUs measured) (hne : measured ≠ []) :
    (∃ report, main [some (hdrRawOut hdr measured)] = some report ∧
        Reproduces report (latencyLines hdr measured)) ↔
      (∀ v ∈ measured, v < 2048) ∧
        ∀ pct ∈ [(50 : ℚ), 90, 99, 999 / 10], NeighboursAgree measured pct := by
  obtain ⟨report, hreport, hfigures, run, hlast, hmax⟩ := main_hdrRawOut hdr htrack hne
  have hmax_iff : report.max = hdr.max measured ↔ ∀ v ∈ measured, v < 2048 := by
    rw [HdrHistogram.max, hlast, hmax]
    exact HdrHistogram.last_bucket_single_iff htrack hlast
  have hpcts : ∀ P : ℚ → Prop, (∀ figure ∈ report.percentiles, P figure.1) ↔
      ∀ pct ∈ [(50 : ℚ), 90, 99, 999 / 10], P pct := by
    intro P
    simp [Report.percentiles]
  have hrange : ∀ figure ∈ report.percentiles, 0 < figure.1 ∧ figure.1 ≤ 100 := by
    rw [hpcts fun pct => 0 < pct ∧ pct ≤ 100]
    intro pct hpct
    simp only [List.mem_cons, List.not_mem_nil, or_false] at hpct
    rcases hpct with rfl | rfl | rfl | rfl <;> norm_num
  have hall : (∀ v ∈ measured, v < 2048) →
      ((∀ figure ∈ report.percentiles, figure.2 = hdr.valueAtPercentile measured figure.1) ↔
        ∀ figure ∈ report.percentiles, NeighboursAgree measured figure.1) := by
    intro hsmall
    refine forall₂_congr fun figure hfigure => ?_
    obtain ⟨v, hv, hlow⟩ := hfigures figure hfigure
    obtain ⟨hpos, hle⟩ := hrange figure hfigure
    rw [hlow, percentile_eq_iff hdr htrack hne hsmall hpos hle hv]
  calc (∃ r, main [some (hdrRawOut hdr measured)] = some r ∧
        Reproduces r (latencyLines hdr measured))
      ↔ Reproduces report (latencyLines hdr measured) := by
        simp [hreport]
    _ ↔ (∀ v ∈ measured, v < 2048) ∧
          ∀ figure ∈ report.percentiles, figure.2 = hdr.valueAtPercentile measured figure.1 := by
        rw [reproduces_iff, hmax_iff, and_comm]
    _ ↔ (∀ v ∈ measured, v < 2048) ∧
          ∀ figure ∈ report.percentiles, NeighboursAgree measured figure.1 :=
        and_congr_right hall
    _ ↔ _ := by rw [hpcts (NeighboursAgree measured)]

/-- A client that recorded nothing writes a file the script reports nothing for. -/
lemma main_hdrRawOut_nil (hdr : LatencyHistogram) : main [some (hdrRawOut hdr [])] = none := by
  rw [← Option.not_isSome_iff_eq_none, main_isSome_iff]
  rintro ⟨histograms, hload, htotal⟩
  have hfile : loadAll [some (hdrRawOut hdr [])] = some [(hdr.buckets []).map bucketOf] := by
    simp [loadAll, load_hdrRawOut]
  obtain rfl := Option.some.inj (hfile.symm.trans hload)
  exact htotal (by simpa using totalCount_buckets hdr [])

/-- **When a single-file merge reproduces the client's report**: some latency was recorded, none
reached the first bucket wider than one microsecond, and at no percentile do the two roundings of
the rank separate different latencies. -/
theorem raw_file_reproduces_iff (hdr : LatencyHistogram) (latencies : List ℤ) :
    (∃ report, main [some (hdrRawOut hdr (recorded latencies))] = some report ∧
        Reproduces report (latencyLines hdr (recorded latencies))) ↔
      latencies ≠ [] ∧ (∀ l ∈ latencies, l < 2048) ∧
        ∀ pct ∈ [(50 : ℚ), 90, 99, 999 / 10], NeighboursAgree (latencies.map (max 1)) pct := by
  rcases eq_or_ne latencies [] with rfl | hne
  · refine iff_of_false ?_ fun h => h.1 rfl
    rintro ⟨report, hreport, -⟩
    rw [recorded_eq, List.map_nil, main_hdrRawOut_nil] at hreport
    cases hreport
  · have hne' : recorded latencies ≠ [] := by
      rwa [recorded_eq, Ne, List.map_eq_nil_iff]
    have hsmall : (∀ v ∈ recorded latencies, v < 2048) ↔ ∀ l ∈ latencies, l < 2048 := by
      rw [recorded_eq, List.forall_mem_map]
      refine forall₂_congr fun l _ => ?_
      simp only [clampUs, kHighestTrackableUs]
      split_ifs <;> omega
    rw [reproduces_iff_of_report hdr (trackable_recorded latencies) hne', hsmall,
      and_iff_right hne]
    -- below 2048 the upper bound of `record` plays no part
    refine and_congr_right fun hbelow => ?_
    have hclamp : recorded latencies = latencies.map (max 1) := by
      rw [recorded_eq]
      refine List.map_congr_left fun l hl => ?_
      have := hbelow l hl
      simp only [clampUs, kHighestTrackableUs]
      split_ifs <;> omega
    rw [hclamp]

/-- Two runs on which the promise fails: one request of 2049 microseconds, for which the client
prints 2049 and the script 2048; and seven requests well below the wide buckets, where the rank of
`p90` is rounded to 6 by the one and to 7 by the other. -/
theorem raw_file_differs :
    (¬ ∃ report,
      main [some (hdrRawOut (HdrHistogram.threeDigits kHighestTrackableUs)
        (recorded [2049]))] = some report ∧
      Reproduces report
        (latencyLines (HdrHistogram.threeDigits kHighestTrackableUs) (recorded [2049]))) ∧
    ¬ ∃ report,
      main [some (hdrRawOut (HdrHistogram.threeDigits kHighestTrackableUs)
        (recorded [1, 1, 1, 1, 1, 1, 2]))] = some report ∧
      Reproduces report (latencyLines (HdrHistogram.threeDigits kHighestTrackableUs)
        (recorded [1, 1, 1, 1, 1, 1, 2])) := by
  have hscript : (main [some (hdrRawOut (HdrHistogram.threeDigits kHighestTrackableUs)
      (recorded [2049]))]).map Report.max = some 2048 := by
    decide +kernel
  have hscript' : (main [some (hdrRawOut (HdrHistogram.threeDigits kHighestTrackableUs)
      (recorded [1, 1, 1, 1, 1, 1, 2]))]).map Report.p90 = some 2 := by
    decide +kernel
  have hclient : (latencyLines (HdrHistogram.threeDigits kHighestTrackableUs)
      (recorded [2049])).max = 2049 := by
    decide +kernel
  have hclient' : (latencyLines (HdrHistogram.threeDigits kHighestTrackableUs)
      (recorded [1, 1, 1, 1, 1, 1, 2])).p90 = 1 := by
    decide +kernel
  constructor
  · rintro ⟨report, hreport, hsame⟩
    rw [hreport, Option.map_some, Option.some.injEq, hsame.2.2.2.2, hclient] at hscript
    exact absurd hscript (by decide)
  · rintro ⟨report, hreport, hsame⟩
    rw [hreport, Option.map_some, Option.some.injEq, hsame.2.1, hclient'] at hscript'
    exact absurd hscript' (by decide)

end RaftBench.Sweep

import RaftBench.Sweep.Loaders
import RaftBench.Sweep.RawHistogram
import RaftBench.Sweep.SweepGen

/-!
# From the requests to the chart

A latency passes through three programs before it is drawn.  A generator records it in a histogram
and writes that out under `--hdr_raw_out`; `sweep-gen.sh` collects the files of a rate, has
`merge-hdr.py` merge them and writes a line of the CSV; `mkcharts.py` reads the CSV and averages the
repeats of a rate.

`charted_median` follows it all the way: what is charted for a rate is the rounded mean, over the
passes at that rate, of the median of all the latencies of the pass together, up to the width of a
bucket of the histogram.
-/

namespace RaftBench.Sweep.Pipeline

open Braft HalfEven

/-! ## The rows of a sweep -/

section Rows

variable {fleet : Fleet}

/-- The generators whose histograms are merged in a pass, when nothing old is left. -/
def merged (p : Gen.Pass fleet) : List (ℕ × ℕ) :=
  (Gen.generators fleet).filter fun gen => p.copied gen && (p.wrote gen).isSome

/-- The passes with a row. -/
def reported (passes : List (Gen.Pass fleet)) : List (Gen.Pass fleet) :=
  passes.filter fun p => merged p ≠ []

end Rows

variable {cfg : Gen.Config}

/-- The row of such a pass. -/
def rowOf (cfg : Gen.Config) (p : Gen.Pass cfg.fleet) : Gen.Row :=
  Gen.writeRow cfg p ((merged p).map fun gen => (p.wrote gen).map fun lines => ⟨lines, none⟩)

/-- The box of every generator is cleared, or the generator writes its file. -/
def Replaced (p : Gen.Pass cfg.fleet) : Prop :=
  ∀ gen ∈ Gen.generators cfg.fleet, p.cleared gen.1 = true ∨ (p.wrote gen).isSome

/-- The files when all generators have ended are those they have written. -/
lemma generate_eq_wrote (hnodup : cfg.fleet.hosts.Nodup) {p : Gen.Pass cfg.fleet}
    (hreplaced : Replaced p) (s : Gen.State) {gen : ℕ × ℕ}
    (hgen : gen ∈ Gen.generators cfg.fleet) :
    Gen.generate s p (Gen.host cfg.fleet gen.1, gen.2)
      = (p.wrote gen).map fun lines => ⟨lines, some (s.passes, gen.1)⟩ := by
  rw [Gen.generate_eq]
  cases hwriters : (p.writers (Gen.host cfg.fleet gen.1) gen.2).getLast? with
  | some hi =>
      obtain rfl := Gen.eq_of_mem_writers hnodup hgen (List.mem_of_getLast? hwriters)
      rfl
  | none =>
      have hnone : p.wrote gen = none := by
        rw [← Option.not_isSome_iff_eq_none]
        intro hwrote
        have hmem := Gen.mem_writers.mpr ⟨hgen, rfl, hwrote⟩
        rw [List.getLast?_eq_none_iff.mp hwriters] at hmem
        cases hmem
      have hcleared : p.cleared gen.1 = true := by
        rcases hreplaced gen hgen with hcleared | hwrote
        · exact hcleared
        · rw [hnone] at hwrote
          cases hwrote
      rw [Option.elim_none, Gen.clear, if_pos (Gen.clears_of_cleared hgen hcleared), hnone]
      rfl

lemma raws_eq_merged (hnodup : cfg.fleet.hosts.Nodup) {p : Gen.Pass cfg.fleet}
    (hreplaced : Replaced p) (s : Gen.State) : Gen.raws s p = merged p := by
  refine List.filter_congr fun gen hgen => ?_
  rw [generate_eq_wrote hnodup hreplaced s hgen, Option.isSome_map]

/-- Of the files only the lines count. -/
lemma writeRow_congr {p : Gen.Pass cfg.fleet} {files files' : List (Option Gen.File)}
    (h : files.map (Option.map Gen.File.lines) = files'.map (Option.map Gen.File.lines)) :
    Gen.writeRow cfg p files = Gen.writeRow cfg p files' := by
  simp only [Gen.writeRow]
  rw [h]

/-- **One pass** adds its row, or none. -/
lemma rows_pass_eq (hnodup : cfg.fleet.hosts.Nodup) {p : Gen.Pass cfg.fleet}
    (hreplaced : Replaced p) (s : Gen.State) :
    (Gen.pass cfg s p).rows.map Gen.Written.row
      = s.rows.map Gen.Written.row ++ (reported [p]).map (rowOf cfg) := by
  have hraws := raws_eq_merged hnodup hreplaced s
  have hfiles : ∀ gen ∈ merged p, (Gen.copy s p (p.rate, gen)).map Gen.File.lines
      = p.wrote gen := by
    intro gen hgen
    rw [Gen.copy_eq (hraws ▸ hgen),
      generate_eq_wrote hnodup hreplaced s (List.mem_of_mem_filter hgen), Option.map_map]
    exact Option.map_id'
  have hrow : Gen.writeRow cfg p
      (((merged p).map fun gen => (gen, Gen.copy s p (p.rate, gen))).map Prod.snd)
      = rowOf cfg p := by
    refine writeRow_congr ?_
    rw [List.map_map, List.map_map, List.map_map]
    refine List.map_congr_left fun gen hgen => ?_
    simp only [Function.comp_apply, hfiles gen hgen, Option.map_map]
    exact Option.map_id'.symm
  simp only [Gen.pass, hraws, List.map_eq_nil_iff, reported]
  split_ifs with hempty
  · simp [hempty]
  · rw [List.map_append, List.map_singleton, hrow]
    simp [hempty]

/-- **A whole sweep** has one row for each pass with histograms, in order. -/
lemma rows_sweep (hnodup : cfg.fleet.hosts.Nodup) (passes : List (Gen.Pass cfg.fleet))
    (hreplaced : ∀ p ∈ passes, Replaced p) (s : Gen.State) :
    (passes.foldl (Gen.pass cfg) s).rows.map Gen.Written.row
      = s.rows.map Gen.Written.row ++ (reported passes).map (rowOf cfg) := by
  induction passes generalizing s with
  | nil => simp [reported]
  | cons p passes ih =>
      have hsplit : reported (p :: passes) = reported [p] ++ reported passes :=
        List.filter_append [p] passes
      rw [List.foldl_cons, ih (fun q hq => hreplaced q (List.mem_cons_of_mem _ hq)),
        rows_pass_eq hnodup (hreplaced p List.mem_cons_self), hsplit, List.map_append,
        List.append_assoc]

/-! ## The median of a pass -/

/-- The pairs in the file of a client. -/
def fileBuckets (hdr : LatencyHistogram) (values : List ℤ) : List Bucket :=
  (hdr.buckets values).map bucketOf

lemma samples_files (hdr : LatencyHistogram) (measured : List (List ℤ)) :
    samples (measured.map (fileBuckets hdr)).flatten
      = (measured.flatten : Multiset ℤ).map hdr.lowestEquivalent := by
  induction measured with
  | nil => rfl
  | cons values measured ih =>
      have happend : ∀ b c : List Bucket, samples (b ++ c) = samples b + samples c := by
        intro b c
        rw [samples, List.map_append, Runs.expand, List.flatMap_append]
        rfl
      rw [List.map_cons, List.flatten_cons, happend, ih, fileBuckets, samples_buckets,
        List.flatten_cons, ← Multiset.coe_add, Multiset.map_add]

/-- **The script on the files of several clients.**  Each percentile is the lowest value of the
bucket that holds the latency of rank `⌈pct * n / 100⌉` of all of them. -/
lemma main_files (hdr : LatencyHistogram) {measured : List (List ℤ)}
    (htrack : HdrHistogram.Trackable kHighestTrackableUs measured.flatten)
    (hne : measured.flatten ≠ []) :
    ∃ report, main (measured.map fun values => some (hdrRawOut hdr values)) = some report ∧
      ∀ figure ∈ report.percentiles, ∃ v,
        (measured.flatten : Multiset ℤ).ranked (position measured.flatten.length figure.1)
          = some v ∧ figure.2 = hdr.lowestEquivalent v := by
  have hload : loadAll (measured.map fun values => some (hdrRawOut hdr values))
      = some (measured.map (fileBuckets hdr)) := by
    rw [loadAll, List.mapM_map]
    exact Grouping.mapM_eq_some fun values _ => load_hdrRawOut hdr values
  have hpositive : Positive (measured.map (fileBuckets hdr)).flatten := by
    intro b hb
    obtain ⟨buckets, hbuckets, hb⟩ := List.mem_flatten.mp hb
    obtain ⟨values, -, rfl⟩ := List.mem_map.mp hbuckets
    exact positive_buckets hdr values b hb
  have hcount : totalCount (measured.map (fileBuckets hdr)).flatten = measured.flatten.length := by
    rw [← card_samples hpositive, samples_files, Multiset.card_map, Multiset.coe_card]
  have htotal : 0 < totalCount (measured.map (fileBuckets hdr)).flatten := by
    have := List.length_pos_iff.mpr hne
    rw [hcount]
    omega
  obtain ⟨report, hreport⟩ := Option.isSome_iff_exists.mp
    ((main_isSome_iff _).mpr ⟨_, hload, htotal.ne'⟩)
  obtain ⟨histograms, lines, hload', hmerged⟩ := main_eq_some hreport
  obtain rfl := Option.some.inj (hload.symm.trans hload')
  refine ⟨report, hreport, fun figure hfigure => ?_⟩
  have hpct : 0 < figure.1 ∧ figure.1 ≤ 100 := by
    simp only [Report.percentiles, List.mem_cons, List.not_mem_nil, or_false] at hfigure
    rcases hfigure with rfl | rfl | rfl | rfl <;> norm_num
  obtain ⟨low, hlow, hpercentile⟩ := percentile_eq_ranked hpositive htotal hpct.1 hpct.2
  have hfigure' := mergedReport_percentiles hmerged figure hfigure
  obtain rfl := Option.some.inj (hfigure'.symm.trans hpercentile)
  rw [samples_files, hcount, HdrHistogram.ranked_lowest htrack] at hlow
  obtain ⟨v, hv, hlow⟩ := Option.map_eq_some_iff.mp hlow
  exact ⟨v, hv, hlow.symm⟩

/-- Every file a generator writes is that of its latencies, of which there are some. -/
def Records (hdr : LatencyHistogram) (latencies : ℕ × ℕ → List ℤ) (p : Gen.Pass cfg.fleet) : Prop :=
  ∀ gen ∈ Gen.generators cfg.fleet, ∀ lines, p.wrote gen = some lines →
    latencies gen ≠ [] ∧ lines = hdrRawOut hdr (recorded (latencies gen))

/-- All latencies of a pass that are merged, as they are recorded. -/
def pooled (latencies : ℕ × ℕ → List ℤ) (p : Gen.Pass cfg.fleet) : List ℤ :=
  ((merged p).map fun gen => recorded (latencies gen)).flatten

/-- The medians a pass can be charted with. -/
def IsMedian (hdr : LatencyHistogram) (values : List ℤ) (m : ℤ) : Prop :=
  ∃ v, (values : Multiset ℤ).ranked (position values.length 50) = some v ∧
    m = hdr.lowestEquivalent v

lemma isMedian_rowOf {hdr : LatencyHistogram} {latencies : ℕ × ℕ → List ℤ}
    {p : Gen.Pass cfg.fleet} (hrecords : Records hdr latencies p) (hmerged : merged p ≠ []) :
    ∃ report, main ((merged p).map p.wrote) = some report ∧
      IsMedian hdr (pooled latencies p) report.p50 := by
  have hwrote : ∀ gen ∈ merged p, p.wrote gen = some (hdrRawOut hdr (recorded (latencies gen))) ∧
      latencies gen ≠ [] := by
    intro gen hgen
    obtain ⟨hmem, hcopied⟩ := List.mem_filter.mp hgen
    rw [Bool.and_eq_true] at hcopied
    obtain ⟨lines, hlines⟩ := Option.isSome_iff_exists.mp hcopied.2
    obtain ⟨hne, rfl⟩ := hrecords gen hmem lines hlines
    exact ⟨hlines, hne⟩
  have hfiles : (merged p).map p.wrote = ((merged p).map fun gen => recorded (latencies gen)).map
      fun values => some (hdrRawOut hdr values) := by
    rw [List.map_map]
    exact List.map_congr_left fun gen hgen => (hwrote gen hgen).1
  have htrack : HdrHistogram.Trackable kHighestTrackableUs (pooled latencies p) := by
    intro v hv
    obtain ⟨values, hvalues, hv⟩ := List.mem_flatten.mp hv
    obtain ⟨gen, -, rfl⟩ := List.mem_map.mp hvalues
    exact trackable_recorded (latencies gen) v hv
  have hne : pooled latencies p ≠ [] := by
    obtain ⟨gen, hgen⟩ := List.exists_mem_of_ne_nil _ hmerged
    obtain ⟨l, hl⟩ := List.exists_mem_of_ne_nil _ (hwrote gen hgen).2
    have hmem : clampUs l ∈ recorded (latencies gen) := by
      rw [recorded_eq]
      exact List.mem_map_of_mem hl
    exact List.ne_nil_of_mem (List.mem_flatten.mpr ⟨_, List.mem_map_of_mem hgen, hmem⟩)
  rw [hfiles]
  obtain ⟨report, hreport, hfigures⟩ := main_files hdr htrack hne
  exact ⟨report, hreport, hfigures (50, report.p50) (by simp [Report.percentiles])⟩

/-! ## The CSV -/

/-- A figure in a cell, which stays empty when there is none. -/
def cell : Option ℤ → List Char
  | none => []
  | some z => Decimal.print z

def rowCells (r : Gen.Row) : List (List Char) :=
  [r.prod.toList, Decimal.print r.rate, Decimal.print r.achieved, cell r.p50, cell r.p90,
    cell r.p99, cell r.p999, cell r.max, Decimal.print r.dropped, Decimal.print r.lag,
    r.fleet.toList]

/-- `echo "$PROD,$R,$ACH,…,$FLEET"`. -/
def rowText (r : Gen.Row) : List Char := List.intercalate [','] (rowCells r)

def header : List Char := "product,rate,achieved,p50,p90,p99,p999,max,dropped,lag,fleet".toList

/-- The lines of the CSV. -/
def csvText (s : Gen.State) : List (List Char) := header :: s.rows.map fun w => rowText w.row

/-- `csv.reader` on a line without quotes. -/
def csvRecord (line : List Char) : List (List Char) :=
  if line = [] then [] else line.splitOn ','

/-- A name that is a cell as it stands. -/
def Plain (name : String) : Prop :=
  ∀ c ∈ name.toList, c ≠ ',' ∧ c ≠ '"' ∧ c ≠ '\n' ∧ c ≠ '\r'

instance (name : String) : Decidable (Plain name) :=
  List.decidableBAll (fun c => c ≠ ',' ∧ c ≠ '"' ∧ c ≠ '\n' ∧ c ≠ '\r') name.toList

lemma comma_not_mem_print (z : ℤ) : ',' ∉ Decimal.print z := by
  intro hmem
  simpa using isDigit_or_minus_of_mem_print hmem

lemma comma_not_mem_cell (o : Option ℤ) : ',' ∉ cell o := by
  cases o with
  | none => exact List.not_mem_nil
  | some z => exact comma_not_mem_print z

/-- The reader finds the cells of a row. -/
lemma csvRecord_rowText {r : Gen.Row} (hprod : Plain r.prod) (hfleet : Plain r.fleet) :
    csvRecord (rowText r) = rowCells r := by
  have hplain : ∀ {name}, Plain name → ',' ∉ name.toList := fun h hmem => (h _ hmem).1 rfl
  have hcomma : ∀ l ∈ rowCells r, ',' ∉ l := by
    simp only [rowCells, List.mem_cons, List.not_mem_nil, or_false, forall_eq_or_imp, forall_eq]
    exact ⟨hplain hprod, comma_not_mem_print _, comma_not_mem_print _, comma_not_mem_cell _,
      comma_not_mem_cell _, comma_not_mem_cell _, comma_not_mem_cell _, comma_not_mem_cell _,
      comma_not_mem_print _, comma_not_mem_print _, hplain hfleet⟩
  have hsplit : (rowText r).splitOn ',' = rowCells r :=
    List.splitOn_intercalate ',' hcomma (List.cons_ne_nil _ _)
  have hne : rowText r ≠ [] := by
    intro hnil
    rw [hnil] at hsplit
    exact absurd (congrArg List.length hsplit) (by simp [rowCells])
  rw [csvRecord, if_neg hne, hsplit]

/-- A row with its median, as a line of the loaders. -/
def toLine (r : Gen.Row) (median : ℤ) : Knee.SweepLine where
  product := r.prod.toList
  rate := Decimal.print r.rate
  achieved := Decimal.print r.achieved
  p50 := Decimal.print median
  rest := [cell r.p90, cell r.p99, cell r.p999, cell r.max, Decimal.print r.dropped,
    Decimal.print r.lag, r.fleet.toList]
  rest_length := by simp
  rateValue := r.rate
  rate_eq := int_print _
  achievedValue := r.achieved
  achieved_eq := int_print _
  p50Value := median
  p50_eq := int_print _

def lineOf (cfg : Gen.Config) (p : Gen.Pass cfg.fleet) : Knee.SweepLine :=
  toLine (rowOf cfg p) ((rowOf cfg p).p50.getD 0)

lemma nodup_columns : (Knee.sweepColumns ++ ["fleet".toList]).Nodup := by decide

/-- The CSV, as the charts read it. -/
def csvOf (cfg : Gen.Config) (passes : List (Gen.Pass cfg.fleet)) : Knee.SweepCsv where
  extra := ["fleet".toList]
  nodup := nodup_columns
  lines := (reported passes).map (lineOf cfg)

section Csv

variable {passes : List (Gen.Pass cfg.fleet)}

/-- The merge has found samples, so the row has all its figures. -/
def HasFigures (p : Gen.Pass cfg.fleet) : Prop := ∃ report, main ((merged p).map p.wrote) = some report

lemma main_rowOf (p : Gen.Pass cfg.fleet) :
    main (((merged p).map fun gen => (p.wrote gen).map fun lines => (⟨lines, none⟩ : Gen.File)).map
      fun file => file.map Gen.File.lines) = main ((merged p).map p.wrote) := by
  rw [List.map_map]
  congr 1
  refine List.map_congr_left fun gen _ => ?_
  rw [Function.comp_apply, Option.map_map]
  exact Option.map_id'

lemma p50_rowOf {p : Gen.Pass cfg.fleet} {report : Report}
    (h : main ((merged p).map p.wrote) = some report) : (rowOf cfg p).p50 = some report.p50 := by
  simp only [rowOf, Gen.writeRow, main_rowOf, h, Option.map_some]

lemma cells_lineOf {p : Gen.Pass cfg.fleet} (h : HasFigures p) :
    (lineOf cfg p).cells = rowCells (rowOf cfg p) := by
  obtain ⟨report, hreport⟩ := h
  rw [lineOf, p50_rowOf hreport, Knee.SweepLine.cells, rowCells, p50_rowOf hreport]
  rfl

lemma csvRecord_header : csvRecord header = Knee.sweepColumns ++ ["fleet".toList] := by
  decide +kernel

/-- **What is written is what is read.** -/
lemma records_csvText (hprod : Plain cfg.prod) (hfleet : Plain cfg.fleetName)
    (hfigures : ∀ p ∈ reported passes, HasFigures p) {s : Gen.State}
    (hrows : s.rows.map Gen.Written.row = (reported passes).map (rowOf cfg)) :
    (csvText s).map csvRecord = (csvOf cfg passes).records := by
  have htexts : s.rows.map (fun w => csvRecord (rowText w.row))
      = (reported passes).map fun p => (lineOf cfg p).cells := by
    have hmap := congrArg (List.map fun r => csvRecord (rowText r)) hrows
    rw [List.map_map, List.map_map] at hmap
    refine hmap.trans (List.map_congr_left fun p hp => ?_)
    rw [cells_lineOf (hfigures p hp)]
    exact csvRecord_rowText hprod hfleet
  rw [csvText, List.map_cons, csvRecord_header, List.map_map, Knee.SweepCsv.records, csvOf,
    List.map_map]
  exact congrArg _ htexts

/-! ### Every line has the same integer columns -/

/-- Whether a column of a row holds an integer depends on its cell only. -/
lemma isSome_dictRow (f : Column → List Char → Option ℤ) {vs vs' : List (List Char)}
    (h : List.Forall₂ (fun v v' => ∀ k, (f k v).isSome = (f k v').isSome) vs vs')
    (ks : List Column) (k : Column) :
    (((Knee.dictRow ks vs).lookup k).bind fun v => v.bind (f k)).isSome
      = (((Knee.dictRow ks vs').lookup k).bind fun v => v.bind (f k)).isSome := by
  induction ks generalizing vs vs' with
  | nil => rfl
  | cons key ks ih =>
      cases h with
      | nil => rfl
      | cons hcell hrest =>
          simp only [Knee.dictRow, List.lookup_cons]
          cases k == key with
          | true => exact hcell k
          | false => exact ih hrest

/-- What a cell adds to the integer columns. -/
def intCell (k : Column) (v : List Char) : Option ℤ := if k = productColumn then none else int v

lemma mem_names_columns (r : CsvRow) (k : Column) :
    k ∈ names (columns r) ↔ ((r.cells.lookup k).bind fun v => v.bind (intCell k)).isSome := by
  have hcell : (fun v : Option (List Char) => v.bind (intCell k))
      = fun v => if k = productColumn then none else isint v := by
    funext v
    unfold intCell isint
    split_ifs
    · exact Option.bind_fun_none v
    · rfl
  rw [names, ← Grouping.lookup_isSome_iff_mem_keys, columns,
    Grouping.lookup_filterMap (fun k v => if k = productColumn then none else isint v) r.nodup,
    hcell]

lemma isSome_intCell_print (k : Column) (z z' : ℤ) :
    (intCell k (Decimal.print z)).isSome = (intCell k (Decimal.print z')).isSome := by
  unfold intCell
  split_ifs
  · rfl
  · rw [int_print, int_print]
    rfl

/-- The rows of two passes have integers in the same cells. -/
lemma rowCells_alike {p q : Gen.Pass cfg.fleet} (hp : HasFigures p) (hq : HasFigures q) :
    List.Forall₂ (fun v v' => ∀ k, (intCell k v).isSome = (intCell k v').isSome)
      (rowCells (rowOf cfg p)) (rowCells (rowOf cfg q)) := by
  obtain ⟨report, hreport⟩ := hp
  obtain ⟨report', hreport'⟩ := hq
  simp only [rowCells, rowOf, Gen.writeRow, main_rowOf, hreport, hreport', Option.map_some, cell]
  have hprint (z z' : ℤ) := fun k => isSome_intCell_print k z z'
  exact .cons (fun _ => rfl) <| .cons (hprint _ _) <| .cons (hprint _ _) <| .cons (hprint _ _) <|
    .cons (hprint _ _) <| .cons (hprint _ _) <| .cons (hprint _ _) <| .cons (hprint _ _) <|
    .cons (hprint _ _) <| .cons (hprint _ _) <| .cons (fun _ => rfl) .nil

lemma allComplete_csvOf (hfigures : ∀ p ∈ reported passes, HasFigures p) :
    Knee.AllComplete (csvOf cfg passes) := by
  intro l hl k hk x hx
  have hreps := List.ne_nil_of_mem hx
  have hfirst := headD_mem hreps
  rw [Knee.repeats_csvRows] at hx hfirst
  obtain ⟨first, hfirst, heq⟩ := List.mem_map.mp hfirst
  obtain ⟨other, hother, rfl⟩ := List.mem_map.mp hx
  obtain ⟨p, hp, rfl⟩ := List.mem_map.mp (List.mem_of_mem_filter hfirst)
  obtain ⟨q, hq, rfl⟩ := List.mem_map.mp (List.mem_of_mem_filter hother)
  rw [Knee.repeats_csvRows, ← heq] at hk
  rw [mem_names_columns] at hk ⊢
  have halike := rowCells_alike (hfigures q hq) (hfigures p hp)
  rw [← cells_lineOf (hfigures q hq), ← cells_lineOf (hfigures p hp)] at halike
  exact (isSome_dictRow intCell halike _ k).trans hk

/-! ## What is charted -/

/-- The passes at a rate. -/
def passesAt (passes : List (Gen.Pass cfg.fleet)) (rate : ℕ) : List (Gen.Pass cfg.fleet) :=
  (reported passes).filter fun p => p.rate = rate

lemma linesAt_csvOf (passes : List (Gen.Pass cfg.fleet)) (rate : ℕ) :
    Knee.linesAt (csvOf cfg passes) cfg.prod.toList rate
      = (passesAt passes rate).map (lineOf cfg) := by
  rw [Knee.linesAt, csvOf, passesAt, List.filter_map]
  congr 1
  refine List.filter_congr fun p _ => ?_
  have hrate : (lineOf cfg p).rateValue = p.rate := rfl
  have hproduct : (lineOf cfg p).product = cfg.prod.toList := rfl
  simp [hrate, hproduct]

end Csv

/-- **From the requests to the chart.**  For every fleet with each box listed once and every list of
passes in which each generator's box is cleared or its file is written anew, whatever else fails:
the CSV of the sweep is read back as it was written, and what `mkcharts.py` charts for a rate is
the rounded mean of the medians of the passes at that rate, where the median of a pass is that of
all latencies of all the generators that were collected, put together. -/
theorem charted_median (hdr : LatencyHistogram) (cfg : Gen.Config) (hprod : Plain cfg.prod)
    (hfleet : Plain cfg.fleetName) (hnodup : cfg.fleet.hosts.Nodup) (gateways : List String)
    (accepts : String → ℕ → Bool) (hready : ∀ gw ∈ gateways, ∃ t < 30, accepts gw t = true)
    (boxes : String × ℕ → Option Lines) (locals : ℕ × ℕ × ℕ → Option Lines)
    (passes : List (Gen.Pass cfg.fleet)) (hreplaced : ∀ p ∈ passes, Replaced p)
    (latencies : Gen.Pass cfg.fleet → ℕ × ℕ → List ℤ)
    (hrecords : ∀ p ∈ passes, Records hdr (latencies p) p) :
    ∃ s csv, Gen.sweepGen cfg gateways accepts (Gen.start boxes locals) passes = .ok s ∧
      Knee.dictReader ((csvText s).map csvRecord) = (Knee.csvRows csv).map CsvRow.cells ∧
      ∀ p ∈ reported passes, ∃ medians,
        List.Forall₂ (fun q m => IsMedian hdr (pooled (latencies q) q) m)
          (passesAt passes p.rate) medians ∧
        Knee.charted csv cfg.prod.toList p.rate = some (Knee.flagged p.rate
          (roundHalfEven ((medians.sum : ℤ) / (medians.length : ℕ)),
            roundHalfEven ((((passesAt passes p.rate).map fun q =>
              ((rowOf cfg q).achieved : ℤ)).sum : ℤ) / (medians.length : ℕ)))) := by
  have hmedian : ∀ p ∈ reported passes, ∃ report, main ((merged p).map p.wrote) = some report ∧
      IsMedian hdr (pooled (latencies p) p) report.p50 := by
    intro p hp
    obtain ⟨hmem, hmerged⟩ := List.mem_filter.mp hp
    exact isMedian_rowOf (hrecords p hmem) (of_decide_eq_true hmerged)
  have hfigures : ∀ p ∈ reported passes, HasFigures p := fun p hp =>
    (hmedian p hp).imp fun _ h => h.1
  refine ⟨_, csvOf cfg passes, Gen.sweepGen_eq hready _ passes, ?_, ?_⟩
  · have hrows := rows_sweep hnodup passes hreplaced (Gen.start boxes locals)
    rw [records_csvText hprod hfleet hfigures hrows, Knee.dictReader_records]
  · intro p hp
    refine ⟨(passesAt passes p.rate).map fun q => (lineOf cfg q).p50Value, ?_, ?_⟩
    · rw [List.forall₂_map_right_iff, List.forall₂_same]
      intro q hq
      obtain ⟨report, hreport, hmedian⟩ := hmedian q (List.mem_of_mem_filter hq)
      have hvalue : (lineOf cfg q).p50Value = report.p50 := by
        rw [lineOf, p50_rowOf hreport]
        rfl
      rw [hvalue]
      exact hmedian
    · have hcharted := Knee.charted_eq (csvOf cfg passes) (List.mem_map_of_mem hp)
      rw [if_pos ((Knee.forall_acc_iff _).mpr (allComplete_csvOf hfigures))] at hcharted
      refine hcharted.trans ?_
      have hlines := linesAt_csvOf passes p.rate
      have hp50 := Knee.mean_csvRows (csvOf cfg passes) (Knee.lookup_columns_p50 _)
        cfg.prod.toList p.rate
      have hachieved := Knee.mean_csvRows (csvOf cfg passes) (Knee.lookup_columns_achieved _)
        cfg.prod.toList p.rate
      rw [hlines, List.map_map, List.length_map] at hp50 hachieved
      rw [List.length_map]
      exact congrArg (fun v => some (Knee.flagged p.rate v)) (Prod.ext hp50 hachieved)

/-! ### Two passes at one rate -/

lemma median_of_sorted {hdr : LatencyHistogram} {values : List ℤ} {m v : ℤ}
    (h : IsMedian hdr values m) (hsorted : values.Pairwise (· ≤ ·))
    (hv : values[position values.length 50]? = some v) : m = hdr.lowestEquivalent v := by
  obtain ⟨w, hw, rfl⟩ := h
  rw [Multiset.ranked_coe hsorted, hv] at hw
  rw [Option.some.inj hw]

lemma sampleHosts_ne : ["10.0.0.1", "10.0.0.2"] ≠ [] := List.cons_ne_nil _ _

lemma samplePer_pos : 1 ≤ 1 := Nat.le_refl 1

def sampleConfig : Gen.Config where
  prod := "exchange"
  fleetName := "c7a.2xlarge"
  fleet := ⟨["10.0.0.1", "10.0.0.2"], 1, sampleHosts_ne, samplePer_pos⟩

def sampleHistogram : LatencyHistogram := HdrHistogram.threeDigits kHighestTrackableUs

lemma sampleEnded_perm : [(1, 0), (0, 0)].Perm (Gen.generators sampleConfig.fleet) :=
  List.Perm.swap _ _ _

/-- A pass with one generator on each box; one without latencies fails. -/
def samplePass (first second : List ℤ) : Gen.Pass sampleConfig.fleet where
  rate := 1000
  cleared _ := true
  wrote gen :=
    let latencies := if gen.1 = 0 then first else second
    if latencies = [] then none else some (hdrRawOut sampleHistogram (recorded latencies))
  ended := [(1, 0), (0, 0)]
  ended_perm := sampleEnded_perm
  copied _ := true
  achieved gen := some (500 - gen.1)

def samplePasses : List (Gen.Pass sampleConfig.fleet) :=
  [samplePass [90, 100] [100, 110, 400], samplePass [120] []]

/-- The latencies behind the files. -/
def sampleLatencies (p : Gen.Pass sampleConfig.fleet) (gen : ℕ × ℕ) : List ℤ :=
  if (p.wrote (1, 0)).isSome then if gen.1 = 0 then [90, 100] else [100, 110, 400]
  else if gen.1 = 0 then [120] else []

lemma records_samplePass {first second : List ℤ} {latencies : ℕ × ℕ → List ℤ}
    (h : ∀ gen, latencies gen = if gen.1 = 0 then first else second) :
    Records sampleHistogram latencies (samplePass first second) := by
  intro gen _ lines hlines
  simp only [samplePass, ← h gen] at hlines
  split_ifs at hlines with hne
  exact ⟨hne, (Option.some.inj hlines).symm⟩

/-- Medians of 100 and 120 are charted as 110. -/
theorem charted_median_sample :
    ∃ s csv, Gen.sweepGen sampleConfig ["10.0.1.1:9001"] (fun _ t => t = 3)
        (Gen.start (fun _ => none) fun _ => none) samplePasses = .ok s ∧
      Knee.dictReader ((csvText s).map csvRecord) = (Knee.csvRows csv).map CsvRow.cells ∧
      Knee.charted csv "exchange".toList 1000 = some ((110, 999), false) := by
  have hreplaced : ∀ p ∈ samplePasses, Replaced p := by
    intro p hp gen _
    rcases List.mem_pair.mp hp with rfl | rfl
    · exact .inl rfl
    · exact .inl rfl
  have hrecords : ∀ p ∈ samplePasses, Records sampleHistogram (sampleLatencies p) p := by
    intro p hp
    rcases List.mem_pair.mp hp with rfl | rfl
    · exact records_samplePass fun _ => rfl
    · exact records_samplePass fun _ => rfl
  obtain ⟨s, csv, hs, hread, hcharted⟩ := charted_median sampleHistogram sampleConfig
    (by decide +kernel) (by decide +kernel) (by decide) ["10.0.1.1:9001"] (fun _ t => t = 3)
    (fun _ _ => ⟨3, by decide, by decide⟩) (fun _ => none) (fun _ => none) samplePasses hreplaced
    sampleLatencies hrecords
  refine ⟨s, csv, hs, hread, ?_⟩
  obtain ⟨medians, hmedians, hcharted⟩ :=
    hcharted (samplePass [90, 100] [100, 110, 400]) List.mem_cons_self
  have hat : passesAt samplePasses 1000 = samplePasses := rfl
  have hrate : (samplePass [90, 100] [100, 110, 400]).rate = 1000 := rfl
  rw [hrate] at hmedians hcharted
  rw [hat] at hmedians hcharted
  obtain ⟨m, ms, hm, hms, rfl⟩ := List.forall₂_cons_left_iff.mp hmedians
  obtain ⟨m', ms', hm', hms', rfl⟩ := List.forall₂_cons_left_iff.mp hms
  obtain rfl := List.forall₂_nil_left_iff.mp hms'
  have hvalue : ∀ v : ℤ, 1 ≤ v → v < 2048 → sampleHistogram.lowestEquivalent v = v :=
    fun v hpos hlt => (sampleHistogram.own_bucket v hpos hlt).1
  have hfirst : m = 100 :=
    (median_of_sorted hm (by decide +kernel) (v := 100) (by decide +kernel)).trans
      (hvalue 100 (by decide) (by decide))
  have hsecond : m' = 120 :=
    (median_of_sorted hm' (by decide +kernel) (v := 120) (by decide +kernel)).trans
      (hvalue 120 (by decide) (by decide))
  rw [hfirst, hsecond] at hcharted
  refine hcharted.trans ?_
  decide +kernel

end RaftBench.Sweep.Pipeline

import Mathlib.Algebra.Order.BigOperators.Group.List
import RaftBench.Sweep.KneeCharts
import RaftBench.Sweep.WrapSub

/-!
# The legend, and the canvas of the round trips

`mkcharts.py` draws the medians of all round trips on one chart, on a canvas that is sized before
anything is drawn: `legend_rows` says how many rows `legend` will take, and the bottom margin grows
with them.  The two go through the items on their own, one counting rows and one moving a pen.

* `legendRows` and `legend` — the two loops; `Knee.legend` is the second without a right limit.
* `legendRows_eq`, `legend_eq` — both are images of the same greedy rows of the items.
* `roundTripsP50` — the subtitle, the canvas and the legend of the chart.
* `legend_fills_rows` — the legend fills the rows that were counted, and stays clear of the plot.

Widths and positions are exact.  What is plotted inside the canvas is not modelled here.
-/

namespace RaftBench.Sweep.RoundTrips

open GreedyRows

variable {γ : Type}

/-! ## The legend -/

/-- `_legend_w`. -/
def legendW (lab : String) : ℚ := 26 + lab.length * (66 / 10)

lemma legendW_pos (lab : String) : 0 < legendW lab := by
  rw [legendW]
  positivity

/-- The state of `legend_rows`: `rows` and `lx`. -/
def legendRowsStep (L maxx : ℚ) (s : ℕ × ℚ) (item : String × γ) : ℕ × ℚ :=
  let w := legendW item.1
  if L < s.2 ∧ maxx < s.2 + w then (s.1 + 1, L + w) else (s.1, s.2 + w)

/-- `legend_rows`. -/
def legendRows (items : List (String × γ)) (L maxx : ℚ) : ℕ :=
  (items.foldl (legendRowsStep L maxx) (1, L)).1

inductive LegendMark (γ : Type) where
  | circle (cx cy : ℚ) (fill : γ)
  | text (x y : ℚ) (lab : String)

/-- The state of `legend`: what is drawn, `y` and `lx`. -/
structure Pen (γ : Type) where
  marks : List (LegendMark γ)
  y : ℚ
  lx : ℚ

/-- An item at the pen. -/
def entry (lx y : ℚ) (item : String × γ) : List (LegendMark γ) :=
  [.circle (lx + 5) y item.2, .text (lx + 16) (y + 4) item.1]

/-- `if maxx`: a limit that is there, and is not 0. -/
def limit (maxx : Option ℚ) : Option ℚ := maxx.filter (· ≠ 0)

def legendStep (L : ℚ) (maxx : Option ℚ) (pen : Pen γ) (item : String × γ) : Pen γ :=
  let w := legendW item.1
  if ∃ m ∈ limit maxx, L < pen.lx ∧ m < pen.lx + w then
    ⟨pen.marks ++ entry L (pen.y + 18) item, pen.y + 18, L + w⟩
  else ⟨pen.marks ++ entry pen.lx pen.y item, pen.y, pen.lx + w⟩

/-- `legend`. -/
def legend (L H : ℚ) (items : List (String × γ)) (maxx : Option ℚ) : List (LegendMark γ) :=
  let rows := ((limit maxx).map (legendRows items L)).getD 1
  (items.foldl (legendStep L maxx) ⟨[], H - 16 - (rows - 1) * 18, L⟩).marks

/-! ## Rows of items -/

/-- What a row of items takes. -/
def rowWidth (row : List (String × γ)) : ℚ := (row.map fun item => legendW item.1).sum

lemma rowWidth_cons (item : String × γ) (row : List (String × γ)) :
    rowWidth (item :: row) = legendW item.1 + rowWidth row := rfl

lemma rowWidth_concat (row : List (String × γ)) (item : String × γ) :
    rowWidth (row ++ [item]) = rowWidth row + legendW item.1 := by
  simp [rowWidth]

lemma rowWidth_pos {row : List (String × γ)} (h : row ≠ []) : 0 < rowWidth row := by
  refine List.sum_pos _ (fun w hw => ?_) (by simpa using h)
  obtain ⟨item, -, rfl⟩ := List.mem_map.mp hw
  exact legendW_pos item.1

/-- The item ends at or before the limit when it is put behind the others. -/
def FitsRow (L maxx : ℚ) (row : List (String × γ)) (item : String × γ) : Prop :=
  L + rowWidth row + legendW item.1 ≤ maxx

instance (L maxx : ℚ) (row : List (String × γ)) (item : String × γ) :
    Decidable (FitsRow L maxx row item) :=
  inferInstanceAs (Decidable (_ ≤ _))

/-- The items on their rows. -/
def itemRows (items : List (String × γ)) (L maxx : ℚ) : List (List (String × γ)) :=
  rows (FitsRow L maxx) (fun _ => false) items

/-- A row, drawn from `lx` on. -/
def rowMarks (lx y : ℚ) : List (String × γ) → List (LegendMark γ)
  | [] => []
  | item :: items => entry lx y item ++ rowMarks (lx + legendW item.1) y items

/-- Where the entries of a row end. -/
def rowEnds (lx : ℚ) : List (String × γ) → List ℚ
  | [] => []
  | item :: items => (lx + legendW item.1) :: rowEnds (lx + legendW item.1) items

lemma rowMarks_concat (lx y : ℚ) (row : List (String × γ)) (item : String × γ) :
    rowMarks lx y (row ++ [item]) = rowMarks lx y row ++ entry (lx + rowWidth row) y item := by
  induction row generalizing lx with
  | nil => simp [rowMarks, rowWidth]
  | cons i row ih =>
      rw [List.cons_append, rowMarks, ih, rowMarks, rowWidth_cons, List.append_assoc, add_assoc]

/-- Rows below each other, 18 apart, from `y` on. -/
def drawRows (L y : ℚ) (rows : List (List (String × γ))) : List (LegendMark γ) :=
  rows.zipIdx.flatMap fun r => rowMarks L (y + 18 * r.2) r.1

lemma drawRows_concat (L y : ℚ) (rows : List (List (String × γ))) (row : List (String × γ)) :
    drawRows L y (rows ++ [row]) = drawRows L y rows ++ rowMarks L (y + 18 * rows.length) row := by
  simp [drawRows, List.zipIdx_append]

/-! ## Both loops go through the same rows -/

section Loops

variable {L maxx : ℚ}

lemma lt_pen_iff (s : Filling (β := String × γ) fun _ => false) :
    L < L + rowWidth s.row ↔ s.row ≠ [] := by
  constructor
  · intro h hrow
    rw [hrow] at h
    simp [rowWidth] at h
  · intro hrow
    have := rowWidth_pos hrow
    linarith

lemma first_false (item : String × γ) : first (fun _ => false) item = [item] := rfl

/-- `legend_rows` keeps the number of rows, and where the last one ends. -/
lemma legendRowsStep_image (s : Filling (β := String × γ) fun _ => false) (item : String × γ) :
    legendRowsStep L maxx (s.full.length + 1, L + rowWidth s.row) item =
      ((place (FitsRow L maxx) s item).full.length + 1,
        L + rowWidth (place (FitsRow L maxx) s item).row) := by
  have hnil : L + rowWidth ([] : List (String × γ)) = L := by simp [rowWidth]
  have hsingle : L + rowWidth [item] = L + legendW item.1 := by simp [rowWidth]
  obtain ⟨hrow, hfull, hrow'⟩ | ⟨hrow, hfits, hfull, hrow'⟩ | ⟨hrow, hfits, hfull, hrow'⟩ :=
    place_cases (FitsRow L maxx) s item
  · rw [legendRowsStep, if_neg fun h => (lt_pen_iff s).mp h.1 hrow, hfull, hrow', hrow, first_false,
      hnil, hsingle]
  · rw [legendRowsStep, if_neg fun h => absurd hfits (not_le.mpr h.2), hfull, hrow',
      rowWidth_concat, add_assoc]
  · rw [legendRowsStep, if_pos ⟨(lt_pen_iff s).mpr hrow, not_le.mp hfits⟩, hfull, hrow',
      first_false, hsingle, List.length_append, List.length_singleton]

/-- `legend` keeps the rows as they are drawn. -/
def penOf (L y : ℚ) (s : Filling (β := String × γ) fun _ => false) : Pen γ :=
  ⟨drawRows L y (s.full ++ [s.row]), y + 18 * s.full.length, L + rowWidth s.row⟩

lemma legendStep_image (hmaxx : maxx ≠ 0) (y : ℚ) (s : Filling (β := String × γ) fun _ => false)
    (item : String × γ) :
    legendStep L (some maxx) (penOf L y s) item =
      penOf L y (place (FitsRow L maxx) s item) := by
  have hlimit : limit (some maxx) = some maxx := by simp [limit, hmaxx]
  have hwraps : (∃ m ∈ limit (some maxx), L < (penOf L y s).lx ∧
      m < (penOf L y s).lx + legendW item.1) ↔ s.row ≠ [] ∧ ¬ FitsRow L maxx s.row item := by
    rw [hlimit]
    simp only [Option.mem_def, Option.some.injEq, exists_eq_left', penOf, lt_pen_iff, FitsRow,
      not_le]
  have hsingle : rowWidth [item] = legendW item.1 := by simp [rowWidth]
  have hempty : rowMarks L (y + 18 * s.full.length) ([] : List (String × γ)) = [] := rfl
  have hentry (y : ℚ) : rowMarks L y [item] = entry L y item := by simp [rowMarks]
  obtain ⟨hrow, hfull, hrow'⟩ | ⟨hrow, hfits, hfull, hrow'⟩ | ⟨hrow, hfits, hfull, hrow'⟩ :=
    place_cases (FitsRow L maxx) s item
  · have hwidth : rowWidth s.row = 0 := by simp [hrow, rowWidth]
    rw [legendStep, if_neg fun h => (hwraps.mp h).1 hrow, penOf, penOf, hfull, hrow', first_false,
      hwidth, add_zero, hsingle, drawRows_concat, drawRows_concat, hrow, hempty, List.append_nil,
      hentry]
  · rw [legendStep, if_neg fun h => (hwraps.mp h).2 hfits, penOf, penOf, hfull, hrow',
      rowWidth_concat, drawRows_concat, drawRows_concat, rowMarks_concat, List.append_assoc,
      add_assoc]
  · have hnext : y + 18 * (s.full.length : ℚ) + 18 = y + 18 * ((s.full ++ [s.row]).length : ℚ) := by
      rw [List.length_append, List.length_singleton]
      push_cast
      ring
    rw [legendStep, if_pos (hwraps.mpr ⟨hrow, hfits⟩), penOf, penOf, hfull, hrow', first_false,
      hsingle, drawRows_concat L y (s.full ++ [s.row]), hentry, hnext]

lemma itemRows_eq {items : List (String × γ)} (h : items ≠ []) :
    itemRows items L maxx = (fill (FitsRow L maxx) (fun _ => false) items).full ++
      [(fill (FitsRow L maxx) (fun _ => false) items).row] := by
  obtain ⟨front, item, rfl⟩ : ∃ front item, items = front ++ [item] :=
    ⟨_, _, (List.dropLast_append_getLast h).symm⟩
  have hrow : (fill (FitsRow L maxx) (fun _ => false) (front ++ [item])).row ≠ [] := by
    rw [fill_concat]
    obtain ⟨-, -, hrow'⟩ | ⟨-, -, -, hrow'⟩ | ⟨-, -, -, hrow'⟩ :=
      place_cases (FitsRow L maxx) (fill (FitsRow L maxx) (fun _ => false) front) item
    all_goals simp [hrow', first_false]
  rw [itemRows, rows, Filling.rows, if_neg hrow]

/-- **`legend_rows` counts the rows.** -/
lemma legendRows_eq {items : List (String × γ)} (h : items ≠ []) :
    legendRows items L maxx = (itemRows items L maxx).length := by
  have hloop : items.foldl (legendRowsStep L maxx) (1, L) =
      ((fill (FitsRow L maxx) (fun _ => false) items).full.length + 1,
        L + rowWidth (fill (FitsRow L maxx) (fun _ => false) items).row) := by
    rw [← foldl_image _ legendRowsStep_image items]
    simp [Filling.empty, rowWidth]
  rw [legendRows, hloop, itemRows_eq h, List.length_append, List.length_singleton]

/-- **`legend` draws the rows**, the last one 16 above the lower edge. -/
lemma legend_eq {items : List (String × γ)} (h : items ≠ []) (hmaxx : maxx ≠ 0) (H : ℚ) :
    legend L H items (some maxx) =
      drawRows L (H - 16 - 18 * ((itemRows items L maxx).length - 1)) (itemRows items L maxx) := by
  have hlimit : limit (some maxx) = some maxx := by simp [limit, hmaxx]
  have hstart (y : ℚ) : (⟨[], y, L⟩ : Pen γ) = penOf L y .empty := by
    simp [penOf, Filling.empty, drawRows, rowMarks, rowWidth]
  rw [legend, hlimit, Option.map_some, Option.getD_some, legendRows_eq h, hstart,
    foldl_image _ (legendStep_image hmaxx _), penOf, ← itemRows_eq h,
    mul_comm ((itemRows items L maxx).length - 1 : ℚ)]

lemma exists_of_mem_rowEnds {lx e : ℚ} {row : List (String × γ)} (h : e ∈ rowEnds lx row) :
    ∃ front item, front ++ [item] <+: row ∧ e = lx + rowWidth front + legendW item.1 := by
  induction row generalizing lx with
  | nil => simp [rowEnds] at h
  | cons i row ih =>
      rcases List.mem_cons.mp h with rfl | hmem
      · exact ⟨[], i, by simp, by simp [rowWidth]⟩
      · obtain ⟨front, item, hfront, rfl⟩ := ih hmem
        refine ⟨i :: front, item, List.cons_prefix_cons.mpr ⟨rfl, hfront⟩, ?_⟩
        rw [rowWidth_cons, add_assoc lx]

lemma rowEnds_tail_le {items row : List (String × γ)} (h : row ∈ itemRows items L maxx) :
    ∀ e ∈ (rowEnds L row).tail, e ≤ maxx := by
  intro e he
  cases row with
  | nil => simp [rowEnds] at he
  | cons i row =>
      obtain ⟨front, item, hfront, rfl⟩ := exists_of_mem_rowEnds he
      have hfits : FitsRow L maxx (i :: front) item :=
        filled_of_mem_rows h (i :: front) item (List.cons_prefix_cons.mpr ⟨rfl, hfront⟩)
          (List.cons_ne_nil i front)
      rwa [FitsRow, rowWidth_cons, ← add_assoc] at hfits

end Loops

/-! ## A legend without a limit -/

/-- The mark of a product chart. -/
def LegendMark.toMark : LegendMark Knee.Colour → Knee.Mark
  | .circle cx cy fill => .dot fill cx cy
  | .text x y lab => .text x y lab

/-- The legend of a product chart is this one, without a limit. -/
lemma knee_legend_eq (items : List (String × Knee.Colour)) :
    Knee.legend items = (legend Knee.L Knee.H items none).map LegendMark.toMark := by
  have hloop (items : List (String × Knee.Colour)) (pen : Pen Knee.Colour)
      (hy : pen.y = Knee.H - 16) :
      (items.foldl (fun (o : List Knee.Mark × ℚ) item =>
        (o.1 ++ [.dot item.2 (o.2 + 5) (Knee.H - 16), .text (o.2 + 16) (Knee.H - 16 + 4) item.1],
          o.2 + (26 + item.1.length * (66 / 10)))) (pen.marks.map LegendMark.toMark, pen.lx)).1 =
        (items.foldl (legendStep Knee.L none) pen).marks.map LegendMark.toMark := by
    induction items generalizing pen with
    | nil => rfl
    | cons item items ih =>
        rw [List.foldl_cons, List.foldl_cons, ← ih _ (by simpa [legendStep, limit] using hy)]
        simp [legendStep, limit, entry, LegendMark.toMark, legendW, hy]
  exact hloop items ⟨[], Knee.H - 16, Knee.L⟩ rfl |>.trans (by simp [legend, limit])

/-! ## The chart -/

/-- The p50 of the first point at 100k that has one above 0; `none` where a column is missing. -/
def at100k : List Columns → Option (Option ℤ)
  | [] => some none
  | q :: qs => do
    let rate ← q.lookup rateColumn
    if rate = 100000 then
      let p50 ← q.lookup Knee.p50Column
      if 0 < p50 then return some p50 else at100k qs
    else at100k qs

inductive Hue where
  | c1
  | c2
  | c3
  | c4
  | c5
  | c6
  | ink2
  deriving DecidableEq, Repr

/-- `RT`: product, label and colour of a round trip. -/
def RT : List (List Char × String × Hue) :=
  [("sequencer".toList, "synchronous ack", .c1),
   ("sequencer-direct".toList, "direct to node", .c4),
   ("sequencer-relay".toList, "relay (gRPC)", .c2),
   ("sequencer-output-brpc".toList, "output: brpc", .c3),
   ("sequencer-output-grpc".toList, "output: gRPC", .c4),
   ("sequencer-output-websocket".toList, "output: WebSocket", .c5),
   ("sequencer-fix".toList, "FIX (journal)", .c1),
   ("sequencer-fix-inline".toList, "FIX (inline)", .c2),
   ("sequencer-quickfix".toList, "FIX (QuickFIX)", .c6),
   ("braft-multi".toList, "braft (raw ops)", .ink2)]

/-- `rt_present`: the round trips of the table that are in the dataset. -/
def rtPresent (table : List (List Char × String × γ)) (D : Dataset) :
    List (List Char × String × γ) :=
  table.filter fun r => (D.lookup r.1).isSome

/-- `_at100k`. -/
def figuresAt100k (table : List (List Char × String × γ)) (D : Dataset) :
    Option (List (List Char)) := do
  let figures ← (rtPresent table D).mapM fun r => do
    let p50 ← at100k (← D.lookup r.1)
    return p50.map fun p50 => (r.2.1 ++ " " ++ Knee.thousands p50.toNat ++ " µs").toList
  return figures.reduceOption

/-- `_sub`. -/
def subtitle (figures : List (List Char)) : List Char :=
  if figures ≠ [] then
    "At 100k: ".toList ++ "; ".toList.intercalate figures ++ ".".toList
  else "No 100k point in this dataset.".toList

/-- `_sublines`. -/
def sublines (figures : List (List Char)) : List (List Char) :=
  [("p50 latency vs offered rate, same fleet and sweep as the panels above. " ++
    "Log latency scale. FIX arms are FIX 4.4 throughout.").toList] ++
  wrapSub (subtitle figures) 118 ++
  [("Hollow marker = the cluster fell behind the offered rate. " ++
    "Shaded band = at or below 1 ms.").toList]

/-- Width, height and margins; the right one plays no part here. -/
structure Canvas where
  W : ℚ
  H : ℚ
  L : ℚ
  T : ℚ
  B : ℚ

def Canvas.PH (c : Canvas) : ℚ := c.H - c.T - c.B

/-- The canvas for a legend and a subtitle. -/
def canvas (items : List (String × γ)) (sublines : List (List Char)) : Canvas :=
  let W : ℚ := 900
  let L : ℚ := 78
  let B : ℚ := 74 + (legendRows items L (W - 20) - 1) * 18
  let T : ℚ := 46 + 16 * sublines.length + 2
  { W := W, H := T + (470 - 96 - 74) + B, L := L, T := T, B := B }

/-- The chart, without what is plotted on it. -/
structure P50Chart (γ : Type) where
  canvas : Canvas
  sublines : List (List Char)
  legend : List (LegendMark γ)

/-- `round-trips-p50.svg`; `none` where the script raises, or does not draw it: two series of one
colour, less than two of them, a missing column. -/
def roundTripsP50 [DecidableEq γ] (table : List (List Char × String × γ)) (D : Dataset) :
    Option (P50Chart γ) := do
  let present := rtPresent table D
  if (present.map fun r => r.2.2).Nodup ∧ 2 ≤ present.length then
    let items := present.map fun r => (r.2.1, r.2.2)
    let lines := sublines (← figuresAt100k table D)
    let c := canvas items lines
    return ⟨c, lines, legend c.L c.H items (some (c.W - 20))⟩
  else none

/-- A chart that is drawn has series. -/
lemma roundTripsP50_eq [DecidableEq γ] {table : List (List Char × String × γ)} {D : Dataset}
    {chart : P50Chart γ} (h : roundTripsP50 table D = some chart) :
    ∃ (items : List (String × γ)) (lines : List (List Char)), items ≠ [] ∧
      chart = ⟨canvas items lines, lines,
        legend 78 (canvas items lines).H items (some (900 - 20))⟩ := by
  simp only [roundTripsP50] at h
  split_ifs at h with hpresent
  obtain ⟨figures, -, hchart⟩ := Option.bind_eq_some_iff.mp h
  refine ⟨_, _, ?_, (Option.some.inj hchart).symm⟩
  rw [ne_eq, List.map_eq_nil_iff, ← List.length_eq_zero_iff]
  omega

/-! ## The legend on the canvas -/

/-- The items are on rows, one below the other and 18 apart, the last one at `H - 16`. -/
structure LaidOut (L H maxx : ℚ) (items : List (String × γ)) (rows : List (List (String × γ))) :
    Prop where
  items_eq : rows.flatten = items
  ne_nil : ∀ row ∈ rows, row ≠ []
  length_eq : rows.length = legendRows items L maxx
  marks_eq : legend L H items (some maxx) = rows.zipIdx.flatMap fun r =>
    rowMarks L (H - 16 - 18 * (rows.length - 1 - r.2)) r.1
  ends_le : ∀ row ∈ rows, ∀ e ∈ (rowEnds L row).tail, e ≤ maxx

lemma laidOut_itemRows {items : List (String × γ)} (h : items ≠ []) {L maxx : ℚ} (hL : 0 ≤ L)
    (hmaxx : L < maxx) (H : ℚ) : LaidOut L H maxx items (itemRows items L maxx) where
  items_eq := flatten_rows_of_forall fun _ _ => rfl
  ne_nil _ hrow := ne_nil_of_mem_rows hrow
  length_eq := (legendRows_eq h).symm
  marks_eq := by
    rw [legend_eq h (hL.trans_lt hmaxx).ne', drawRows]
    refine congrArg (List.flatMap · _) (funext fun r => ?_)
    congr 1
    ring
  ends_le _ hrow := rowEnds_tail_le hrow

/-- The first item of a legend is on its first row. -/
lemma legend_head {items : List (String × γ)} (h : items ≠ []) {L maxx : ℚ} (hL : 0 ≤ L)
    (hmaxx : L < maxx) (H : ℚ) :
    ∃ colour marks, legend L H items (some maxx) =
      .circle (L + 5) (H - 16 - 18 * (legendRows items L maxx - 1)) colour :: marks := by
  have hlaid := laidOut_itemRows h hL hmaxx H
  have hrows : itemRows items L maxx ≠ [] := by
    intro hnil
    exact h (by rw [← hlaid.items_eq, hnil, List.flatten_nil])
  obtain ⟨row, rows, heq⟩ := List.exists_cons_of_ne_nil hrows
  obtain ⟨item, row, rfl⟩ := List.exists_cons_of_ne_nil (hlaid.ne_nil row (by simp [heq]))
  rw [legend_eq h (hL.trans_lt hmaxx).ne', legendRows_eq h, heq, drawRows, List.zipIdx_cons,
    List.flatMap_cons, rowMarks, entry, Nat.cast_zero, mul_zero, add_zero]
  exact ⟨item.2, _, rfl⟩

/-- **The legend fills the rows that were counted**, and on the chart of the round trips its first
row is 58 below the plot. -/
theorem legend_fills_rows [DecidableEq γ] (items : List (String × γ)) (hitems : items ≠ [])
    (L H maxx : ℚ) (hL : 0 ≤ L) (hmaxx : L < maxx) :
    (∃ rows, LaidOut L H maxx items rows) ∧
      ∀ (table : List (List Char × String × γ)) (D : Dataset), ∀ chart ∈ roundTripsP50 table D,
        ∃ colour marks, chart.legend =
          .circle (chart.canvas.L + 5) (chart.canvas.T + chart.canvas.PH + 58) colour :: marks := by
  refine ⟨⟨_, laidOut_itemRows hitems hL hmaxx H⟩, fun table D chart hchart => ?_⟩
  obtain ⟨items, lines, hne, rfl⟩ := roundTripsP50_eq hchart
  have hL : (0 : ℚ) ≤ 78 := by norm_num
  have hmaxx : (78 : ℚ) < 900 - 20 := by norm_num
  obtain ⟨colour, marks, hlegend⟩ := legend_head hne hL hmaxx (canvas items lines).H
  refine ⟨colour, marks, hlegend.trans ?_⟩
  congr 2
  simp only [canvas, Canvas.PH]
  ring

/-- Two round trips, with a point at 100k each. -/
def twoTrips : Dataset :=
  [("sequencer".toList, [[(rateColumn, 100000), (Knee.p50Column, 860)]]),
   ("sequencer-direct".toList, [[(rateColumn, 100000), (Knee.p50Column, 727)]])]

/-- Two labels that are too long for one row of 222. -/
theorem legend_fills_two_rows :
    legendRows [("synchronous ack", Hue.c1), ("direct to node", .c4)] 78 300 = 2 ∧
      (∃ rows, LaidOut 78 500 300 [("synchronous ack", Hue.c1), ("direct to node", .c4)] rows) ∧
      (roundTripsP50 RT twoTrips).isSome ∧ ∀ chart ∈ roundTripsP50 RT twoTrips,
        ∃ colour marks, chart.legend =
          .circle (chart.canvas.L + 5) (chart.canvas.T + chart.canvas.PH + 58) colour :: marks := by
  have hfills := legend_fills_rows [("synchronous ack", Hue.c1), ("direct to node", .c4)]
    (List.cons_ne_nil _ _) 78 500 300 (by norm_num) (by norm_num)
  refine ⟨?_, hfills.1, by rfl, hfills.2 RT twoTrips⟩
  have hack : "synchronous ack".length = 15 := by decide
  have hdirect : "direct to node".length = 14 := by decide
  norm_num [legendRows, legendRowsStep, legendW, hack, hdirect]

end RaftBench.Sweep.RoundTrips

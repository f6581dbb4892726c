import Mathlib.Data.Nat.Log
import RaftBench.Sweep.MkCharts

/-!
# The chart of a product

`mkcharts.py` draws the median and the 99th percentile of every product it knows over the offered
rate, on a logarithmic scale.  A chart is the list of what is drawn; a missing column, or the
logarithm of a number that is not positive, raises, and with it the whole set of charts is lost.

* `CFG` is the table of the script, `chart` draws one product and `kneeCharts` all of them.
* `chart_eq` — a chart as its condition and its total part.
* `plottable_averaged` — the condition in terms of the rows behind a point.
* `charts_rendered_iff` — which sweeps are charted.

`math.log10` is a parameter, of which is used that it grows when its argument doubles.  Coordinates
are exact, and stand for themselves instead of the text they are printed as.
-/

namespace RaftBench.Sweep.Knee

open Grouping HalfEven

/-! ## The table -/

/-- An entry of `CFG`. -/
structure ChartConfig where
  xmax : ℕ
  xstep : ℕ
  ymin : ℕ
  ymax : ℕ
  yticks : List ℕ
  comfort : ℕ
  markers : List (ℕ × String × ℕ)
  title : String
  line2 : String

def CFG : List (List Char × ChartConfig) :=
  [("braft".toList,
    { xmax := 320000, xstep := 50000, ymin := 400, ymax := 1000000
      yticks := [500, 700, 1000, 2000, 5000, 20000, 100000, 500000]
      comfort := 250000, markers := [(265000, "knee", 16)]
      title := "braft — flat to 250k on c7a, then a cliff"
      line2 := "p50 641us at 10k to 1291us at 250k; 280k collapses. Earlier c6i fleet turned at " ++
        "~160k." }),
   ("openraft".toList,
    { xmax := 150000, xstep := 25000, ymin := 700, ymax := 9000
      yticks := [800, 1000, 1500, 2000, 3000, 5000, 8000]
      comfort := 100000, markers := [(110000, "drops climb", 16)]
      title := "openraft — still no cliff, but a much lower slope on c7a"
      line2 := "Latency never cliffs; the dashed line is where the rig's own drops start " ++
        "climbing." }),
   ("aeron".toList,
    { xmax := 650000, xstep := 100000, ymin := 450, ymax := 4000
      yticks := [500, 600, 800, 1000, 1500, 2000, 3000]
      comfort := 250000, markers := [(270000, "knee", 16)]
      title := "aeron — still the flattest curve, but the ceiling moved down on c7a"
      line2 := "A 10x change in offered rate, 25k to 250k, moves p50 by 16 µs; 290k steps to " ++
        "2.1 ms." }),
   ("sequencer".toList,
    { xmax := 170000, xstep := 25000, ymin := 400, ymax := 3000000
      yticks := [500, 1000, 2000, 5000, 50000, 500000, 2000000]
      comfort := 130000, markers := [(137000, "knee", 16)]
      title := "sequencer — flat to ~130k once the gateway batches proposals"
      line2 := "p50 572us at 10k to 1430us at 130k; 145k is the first rate that breaks." }),
   ("sequencer-relay".toList,
    { xmax := 200000, xstep := 25000, ymin := 500, ymax := 20000000
      yticks := [1000, 5000, 50000, 200000, 1000000, 5000000, 20000000]
      comfort := 100000, markers := [(112000, "ceiling", 16)]
      title := "sequencer-relay — sub-2ms through 100k, but a lower ceiling than the old design"
      line2 := "p50 649us-1.3ms from 10k to 100k, beating phase 1's own ack latency; cliff " ++
        "moved from 130k to 115k." }),
   ("sequencer-direct".toList,
    { xmax := 260000, xstep := 50000, ymin := 400, ymax := 12000
      yticks := [500, 700, 1000, 2000, 3000, 5000, 10000]
      comfort := 250000, markers := []
      title := "sequencer-direct — submitting straight to the node, no input gateway"
      line2 := "p50 508us at 10k to 727us at 100k, still 1.6ms at 250k; the gateway arm knees " ++
        "at ~55-70k." }),
   ("sequencer-output-brpc".toList,
    { xmax := 520000, xstep := 100000, ymin := 500, ymax := 200000
      yticks := [500, 1000, 2000, 5000, 10000, 50000, 200000]
      comfort := 150000, markers := [(312000, "knee", 16)]
      title := "sequencer-output-brpc — brpc Streaming RPC, clean to 300k"
      line2 := "Five client boxes, one gateway, per-client topics. 300k at 1484us with zero " ++
        "drops; collapses by 325k." }),
   ("sequencer-output-grpc".toList,
    { xmax := 520000, xstep := 100000, ymin := 500, ymax := 200000
      yticks := [500, 1000, 2000, 5000, 10000, 50000, 200000]
      comfort := 175000, markers := [(312000, "knee", 16)]
      title := "sequencer-output-grpc — real gRPC streaming, clean to 300k"
      line2 := "Carries 300k with zero drops at 1489us; by 325k it has gone. Achieved plateaus " ++
        "near 320k however much more is offered." }),
   ("exchange-fix".toList,
    { xmax := 520000, xstep := 100000, ymin := 700, ymax := 5000000
      yticks := [1000, 3000, 10000, 40000, 150000, 600000, 4000000]
      comfort := 150000, markers := [(150000, "last clean", 150), (195000, "ceiling", 40)]
      title := "exchange-fix - a CLOB on sequencer, over FIX 4.4"
      line2 := "Full rate to 150k with zero drops, p50 1.4ms / p99 4.5ms. Hollow = offered rate " ++
        "not met." }),
   ("sequencer-fix-gen".toList,
    { xmax := 520000, xstep := 100000, ymin := 600, ymax := 200000
      yticks := [700, 1000, 2000, 5000, 15000, 50000, 150000]
      comfort := 300000, markers := [(300000, "last clean", 150)]
      title := "sequencer-fix-gen - the counter, 20 sessions across 2 gateways"
      line2 := "A deployment variant, not a comparable arm. Full rate to 300k; past it the rig " ++
        "drops." }),
   ("sequencer-fix".toList,
    { xmax := 520000, xstep := 100000, ymin := 500, ymax := 200000
      yticks := [500, 1000, 2000, 5000, 10000, 50000, 200000]
      comfort := 25000, markers := [(450000, "knee", 16)]
      title := "sequencer-fix - FIX 4.4 from the journal, the furthest-reaching arm"
      line2 := "ONE gateway, five sessions, both directions. Zero drops through 400k -- further " ++
        "than any other arm -- and collapses by 500k." }),
   ("sequencer-quickfix".toList,
    { xmax := 520000, xstep := 100000, ymin := 500, ymax := 200000
      yticks := [500, 1000, 2000, 5000, 10000, 50000, 200000]
      comfort := 100000, markers := [(162000, "knee", 16)]
      title := "sequencer-quickfix - FIX 4.4 on QuickFIX's session layer"
      line2 := "Carries 125k at 1127us, collapses by 175k, plateaus near 158k -- against 250k+ " ++
        "on the hffix arm." }),
   ("braft-multi".toList,
    { xmax := 520000, xstep := 100000, ymin := 500, ymax := 200000
      yticks := [500, 1000, 2000, 5000, 10000, 50000, 200000]
      comfort := 125000, markers := [(212000, "knee", 16)]
      title := "braft-multi - bare braft, no sequencer, five client boxes"
      line2 := "One raft op per request, unbatched: 200k at 1.7ms, collapsing by 225k. The " ++
        "gateways pass it because they batch." }),
   ("sequencer-fix-inline".toList,
    { xmax := 520000, xstep := 100000, ymin := 500, ymax := 200000
      yticks := [500, 1000, 2000, 5000, 10000, 50000, 200000]
      comfort := 75000, markers := [(312000, "knee", 16)]
      title := "sequencer-fix-inline - FIX 4.4, answered from the propose receipt"
      line2 := "Faster below ~100k and worse above, and it knees at 300k where the journal path " ++
        "runs to 400k: one send per reply, uncoalesced." }),
   ("sequencer-output-websocket".toList,
    { xmax := 520000, xstep := 100000, ymin := 500, ymax := 200000
      yticks := [500, 1000, 2000, 5000, 10000, 50000, 200000]
      comfort := 150000, markers := [(312000, "knee", 16)]
      title := "sequencer-output-websocket — Boost.Beast WebSocket, clean to 300k"
      line2 := "Nagle off (Beast does not set it; brpc and gRPC do). The p90 that used to leave " ++
        "the other two above 150k was that, not the writer thread." })]

/-- What the chart code takes for granted of an entry. -/
structure ChartConfig.Valid (cfg : ChartConfig) : Prop where
  xmax_pos : 0 < cfg.xmax
  xstep_pos : 0 < cfg.xstep
  ymin_pos : 0 < cfg.ymin
  yrange : 2 * cfg.ymin ≤ cfg.ymax
  yticks_pos : ∀ v ∈ cfg.yticks, 0 < v

lemma valid_of_mem_CFG : ∀ e ∈ CFG, e.2.Valid := by
  have hall : ∀ e ∈ CFG, 0 < e.2.xmax ∧ 0 < e.2.xstep ∧ 0 < e.2.ymin ∧ 2 * e.2.ymin ≤ e.2.ymax ∧
      ∀ v ∈ e.2.yticks, 0 < v := by
    decide
  intro e he
  obtain ⟨hxmax, hxstep, hymin, hyrange, hyticks⟩ := hall e he
  exact ⟨hxmax, hxstep, hymin, hyrange, hyticks⟩

/-! ## Drawing -/

/-- The colours of the two series. -/
inductive Colour where
  | c1
  | c2
  deriving DecidableEq, Repr

/-- What is drawn.  `dot` is the mark of a colour in the legend. -/
inductive Mark where
  | rect (x y width height : ℚ)
  | line (x₁ y₁ x₂ y₂ : ℚ)
  | text (x y : ℚ) (s : String)
  | path (colour : Colour) (points : List (ℚ × ℚ))
  | circle (colour : Colour) (hollow : Bool) (x y : ℚ)
  | dot (colour : Colour) (x y : ℚ)

/-- The path or a circle of a series. -/
def Mark.isSeries : Mark → Bool
  | .path _ _ => true
  | .circle _ _ _ _ => true
  | _ => false

def p50Column : Column := "p50".toList

def p99Column : Column := "p99".toList

def achievedColumn : Column := "achieved".toList

/-- `W,H,L,R,T,B` and what they leave to the plot. -/
def W : ℚ := 820
def H : ℚ := 440
def L : ℚ := 78
def R : ℚ := 120
def T : ℚ := 86
def B : ℚ := 74
def PW : ℚ := W - L - R
def PH : ℚ := H - T - B

/-- `f"{v:,}"`. -/
def thousands (v : ℕ) : String :=
  let groups := (((Decimal.printNat v).reverse.toChunks 3).map List.reverse).reverse
  String.ofList ([','].intercalate groups)

/-- `head`. -/
def head (title : String) (sub : List String) : List Mark :=
  .rect 0 0 W H :: .text 78 28 title ::
    sub.zipIdx.map fun l => .text 78 (46 + l.2 * 16) l.1

/-- `math.log10`, where its argument is positive. -/
structure Log10 where
  toFun : ℤ → ℚ
  grows : ∀ a b, 0 < a → 2 * a ≤ b → toFun a < toFun b

/-- `sat`. -/
def sat (d : Columns) : Option Bool := do
  let achieved ← d.lookup achievedColumn
  let rate ← d.lookup rateColumn
  return (achieved : ℚ) < 99 / 100 * rate

/-- `legend`, on one row. -/
def legend (items : List (String × Colour)) : List Mark :=
  (items.foldl (fun (o : List Mark × ℚ) item =>
    (o.1 ++ [.dot item.2 (o.2 + 5) (H - 16), .text (o.2 + 16) (H - 16 + 4) item.1],
      o.2 + (26 + item.1.length * (66 / 10)))) ([], L)).1

/-- The end labels, pushed apart when they are closer than `kMinLabelGap`, with the upper one still
on top. -/
def spread (y99 y50 : ℚ) : ℚ × ℚ :=
  if |y99 - y50| < 14 then
    let mid := (y99 + y50) / 2
    if y99 ≤ y50 then (mid - 14 / 2, mid + 14 / 2) else (mid + 14 / 2, mid - 14 / 2)
  else (y99, y50)

section Chart

variable (log10 : Log10) (cfg : ChartConfig)

def mathLog10 (v : ℤ) : Option ℚ := if 0 < v then some (log10.toFun v) else none

def xm (v : ℤ) : ℚ := L + PW * (v / cfg.xmax)

def ym (v : ℤ) : Option ℚ := do
  let ylo ← mathLog10 log10 cfg.ymin
  let yhi ← mathLog10 log10 cfg.ymax
  let y ← mathLog10 log10 v
  if yhi - ylo = 0 then none else some (T + PH * (1 - (y - ylo) / (yhi - ylo)))

/-- `axes`. -/
def axes : Option (List Mark) := do
  let ys ← cfg.yticks.mapM fun (v : ℕ) => (ym log10 cfg v).map fun y =>
    [Mark.line L y (L + PW) y, .text (L - 10) (y + 4) (thousands v)]
  let xs := (List.range (cfg.xmax / cfg.xstep + 1)).flatMap fun i =>
    [Mark.line (xm cfg (i * cfg.xstep : ℕ)) (T + PH) (xm cfg (i * cfg.xstep : ℕ)) (T + PH + 5),
      .text (xm cfg (i * cfg.xstep : ℕ)) (T + PH + 20) (toString (i * cfg.xstep / 1000) ++ "k")]
  return ys.flatten ++ [.text 20 (T + PH / 2) "latency (µs), log scale",
    .line L (T + PH) (L + PW) (T + PH)] ++ xs ++
    [.text (L + PW / 2) (T + PH + 44) "offered rate (requests/sec)"]

/-- Where a point is drawn. -/
def point (key : Column) (p : Columns) : Option (ℚ × ℚ) := do
  let rate ← p.lookup rateColumn
  let y ← ym log10 cfg (← p.lookup key)
  return (xm cfg rate, y)

/-- `series`. -/
def series (pts : List Columns) (colour : Colour) (key : Column) : Option (List Mark) := do
  let points ← pts.mapM (point log10 cfg key)
  let circles ← pts.mapM fun p => do
    let xy ← point log10 cfg key p
    return Mark.circle colour (← sat p) xy.1 xy.2
  return .path colour points :: circles

/-- The labels at the end of the two series. -/
def endLabels (pts : List Columns) : Option (List Mark) := do
  let last ← pts.getLast?
  let y99 ← ym log10 cfg (← last.lookup p99Column)
  let y50 ← ym log10 cfg (← last.lookup p50Column)
  let pos := spread (min (max y99 T) (T + PH)) (min (max y50 T) (T + PH))
  let rate ← last.lookup rateColumn
  return [.text (xm cfg rate + 12) (pos.1 + 4) "p99", .text (xm cfg rate + 12) (pos.2 + 4) "p50"]

/-- The marks that do not depend on the data: title, comfort zone and inflections. -/
def frame : List Mark :=
  head cfg.title [cfg.line2,
    "p50 and p99 latency, open loop. Hollow marker = the cluster fell behind the offered rate."] ++
  [.rect L T (xm cfg cfg.comfort - L) PH, .text (L + 8) (T + 16) "comfort zone"] ++
  cfg.markers.flatMap fun m =>
    [.line (xm cfg m.1) T (xm cfg m.1) (T + PH), .text (xm cfg m.1 + 6) (T + m.2.2) m.2.1]

/-- The chart of a product; `none` where the script raises. -/
def chart (pts : List Columns) : Option (List Mark) := do
  let axes ← axes log10 cfg
  let s99 ← series log10 cfg pts .c2 p99Column
  let s50 ← series log10 cfg pts .c1 p50Column
  let labels ← endLabels log10 cfg pts
  return frame cfg ++ axes ++ (s99 ++ s50) ++ labels ++ legend [("p50", .c1), ("p99", .c2)]

end Chart

/-- The entries of the table that are in a dataset, with their points. -/
def present (D : Dataset) : List ((List Char × ChartConfig) × List Columns) :=
  CFG.filterMap fun e => (D.lookup e.1).map fun pts => (e, pts)

/-- All charts of a dataset. -/
def kneeCharts (log10 : Log10) (D : Dataset) : Option (List (List Char × List Mark)) :=
  (present D).mapM fun e => (chart log10 e.1.2 e.2).map fun marks => (e.1.1, marks)

/-! ## A chart as its condition and its total part -/

/-- The point can be drawn: the percentile is there and has a logarithm. -/
def Plottable (key : Column) (p : Columns) : Prop := ∃ v ∈ p.lookup key, 0 < v

instance (key : Column) (p : Columns) : Decidable (Plottable key p) :=
  inferInstanceAs (Decidable (∃ v ∈ p.lookup key, 0 < v))

/-- A point with a rate and a throughput, as every row of a sweep gives one. -/
structure Measured (p : Columns) : Prop where
  rate : (p.lookup rateColumn).isSome
  achieved : (p.lookup achievedColumn).isSome

section Total

variable (log10 : Log10) (cfg : ChartConfig)

/-- The height of a positive number. -/
def height (v : ℤ) : ℚ :=
  T + PH * (1 - (log10.toFun v - log10.toFun cfg.ymin) /
    (log10.toFun cfg.ymax - log10.toFun cfg.ymin))

/-- Where a point is drawn that can be. -/
def position (key : Column) (p : Columns) : ℚ × ℚ :=
  (xm cfg (rateOf p), height log10 cfg ((p.lookup key).getD 0))

/-- The cluster fell behind. -/
def behind (p : Columns) : Bool :=
  (((p.lookup achievedColumn).getD 0 : ℤ) : ℚ) < 99 / 100 * (rateOf p : ℤ)

/-- The circle of a point that can be drawn. -/
def circleAt (colour : Colour) (key : Column) (p : Columns) : Mark :=
  .circle colour (behind p) (position log10 cfg key p).1 (position log10 cfg key p).2

variable {cfg}

lemma ym_eq (hcfg : cfg.Valid) (v : ℤ) :
    ym log10 cfg v = if 0 < v then some (height log10 cfg v) else none := by
  have hmin : (0 : ℤ) < cfg.ymin := by exact_mod_cast hcfg.ymin_pos
  have hrange : 2 * (cfg.ymin : ℤ) ≤ cfg.ymax := by exact_mod_cast hcfg.yrange
  have hmax : (0 : ℤ) < cfg.ymax := by omega
  have hne : log10.toFun cfg.ymax - log10.toFun cfg.ymin ≠ 0 :=
    (sub_pos.mpr (log10.grows _ _ hmin hrange)).ne'
  simp only [ym, mathLog10, if_pos hmin, if_pos hmax, Option.bind_eq_bind, Option.bind_some]
  split_ifs with hv
  · rfl
  · rfl

lemma axes_isSome (hcfg : cfg.Valid) :
    ∃ marks, axes log10 cfg = some marks ∧ ∀ m ∈ marks, m.isSeries = false := by
  have hticks : ∀ v ∈ cfg.yticks, ((ym log10 cfg v).map fun y =>
      [Mark.line L y (L + PW) y, .text (L - 10) (y + 4) (thousands v)])
      = if 0 < v then some [Mark.line L (height log10 cfg v) (L + PW) (height log10 cfg v),
          .text (L - 10) (height log10 cfg v + 4) (thousands v)] else none := by
    intro v hv
    have hpos := hcfg.yticks_pos v hv
    rw [ym_eq log10 hcfg, if_pos (by exact_mod_cast hpos), if_pos hpos]
    rfl
  rw [axes, mapM_eq_ite hticks, if_pos hcfg.yticks_pos]
  refine ⟨_, rfl, ?_⟩
  simp only [List.mem_append, List.mem_flatten, List.mem_map, List.mem_flatMap, List.mem_cons,
    List.not_mem_nil, or_false]
  rintro m (((⟨marks, ⟨v, -, rfl⟩, hm⟩ | rfl | rfl) | ⟨i, -, rfl | rfl⟩) | rfl)
  · rcases List.mem_cons.mp hm with rfl | hm
    · rfl
    · rw [List.mem_singleton.mp hm]
      rfl
  all_goals rfl

lemma point_eq (hcfg : cfg.Valid) (key : Column) {p : Columns} (hp : Measured p) :
    point log10 cfg key p
      = if Plottable key p then some (position log10 cfg key p) else none := by
  obtain ⟨rate, hrate⟩ := Option.isSome_iff_exists.mp hp.rate
  rw [point, hrate]
  cases hkey : p.lookup key with
  | none => simp [Plottable, hkey]
  | some v =>
      simp only [Option.bind_eq_bind, Option.bind_some, ym_eq log10 hcfg, Plottable, hkey,
        Option.mem_some_iff, exists_eq_left']
      split_ifs
      · simp [position, rateOf, hrate, hkey]
      · rfl

lemma sat_eq {p : Columns} (hp : Measured p) : sat p = some (behind p) := by
  obtain ⟨rate, hrate⟩ := Option.isSome_iff_exists.mp hp.rate
  obtain ⟨achieved, hachieved⟩ := Option.isSome_iff_exists.mp hp.achieved
  simp [sat, behind, rateOf, hrate, hachieved]

lemma series_eq (hcfg : cfg.Valid) {pts : List Columns} (hpts : ∀ p ∈ pts, Measured p)
    (colour : Colour) (key : Column) :
    series log10 cfg pts colour key
      = if ∀ p ∈ pts, Plottable key p then
          some (.path colour (pts.map (position log10 cfg key)) ::
            pts.map (circleAt log10 cfg colour key))
        else none := by
  have hcircles : ∀ p ∈ pts,
      (do
        let xy ← point log10 cfg key p
        return Mark.circle colour (← sat p) xy.1 xy.2)
        = if Plottable key p then some (circleAt log10 cfg colour key p) else none := by
    intro p hp
    rw [point_eq log10 hcfg key (hpts p hp), sat_eq (hpts p hp)]
    split_ifs
    · rfl
    · rfl
  rw [series, mapM_eq_ite fun p hp => point_eq log10 hcfg key (hpts p hp), mapM_eq_ite hcircles]
  split_ifs
  · rfl
  · rfl

lemma endLabels_isSome (hcfg : cfg.Valid) {pts : List Columns} (hne : pts ≠ [])
    (hpts : ∀ p ∈ pts, Measured p)
    (hplot : ∀ p ∈ pts, Plottable p99Column p ∧ Plottable p50Column p) :
    ∃ x y₁ y₂, endLabels log10 cfg pts = some [.text x y₁ "p99", .text x y₂ "p50"] := by
  have hlast := List.getLast_mem hne
  obtain ⟨rate, hrate⟩ := Option.isSome_iff_exists.mp (hpts _ hlast).rate
  obtain ⟨⟨v99, h99, hpos99⟩, v50, h50, hpos50⟩ := hplot _ hlast
  rw [Option.mem_def] at h99 h50
  rw [endLabels, List.getLast?_eq_some_getLast hne]
  simp only [Option.bind_eq_bind, Option.bind_some, h99, h50, hrate, ym_eq log10 hcfg,
    if_pos hpos99, if_pos hpos50]
  exact ⟨_, _, _, rfl⟩

/-- **What a chart shows**, besides its axes, labels and legend. -/
theorem chart_eq (hcfg : cfg.Valid) {pts : List Columns} (hne : pts ≠ [])
    (hpts : ∀ p ∈ pts, Measured p) :
    ∃ axes x y₁ y₂, (∀ m ∈ axes, m.isSeries = false) ∧ chart log10 cfg pts
      = if ∀ p ∈ pts, Plottable p99Column p ∧ Plottable p50Column p then
          some (frame cfg ++ axes ++
            ((.path .c2 (pts.map (position log10 cfg p99Column)) ::
                pts.map (circleAt log10 cfg .c2 p99Column)) ++
              (.path .c1 (pts.map (position log10 cfg p50Column)) ::
                pts.map (circleAt log10 cfg .c1 p50Column))) ++
            [.text x y₁ "p99", .text x y₂ "p50"] ++ legend [("p50", .c1), ("p99", .c2)])
        else none := by
  obtain ⟨axes, haxes, hplain⟩ := axes_isSome log10 hcfg
  by_cases hplot : ∀ p ∈ pts, Plottable p99Column p ∧ Plottable p50Column p
  · obtain ⟨x, y₁, y₂, hlabels⟩ := endLabels_isSome log10 hcfg hne hpts hplot
    refine ⟨axes, x, y₁, y₂, hplain, ?_⟩
    rw [if_pos hplot, chart, haxes, series_eq log10 hcfg hpts, series_eq log10 hcfg hpts,
      if_pos fun p hp => (hplot p hp).1, if_pos fun p hp => (hplot p hp).2, hlabels]
    rfl
  · refine ⟨axes, 0, 0, 0, hplain, ?_⟩
    rw [if_neg hplot, chart, haxes, series_eq log10 hcfg hpts, series_eq log10 hcfg hpts]
    split_ifs with h99 h50
    · exact absurd (fun p hp => ⟨h99 p hp, h50 p hp⟩) hplot
    · rfl
    · rfl
    · rfl

/-! ### What is drawn of the data -/

/-- The circles of a colour, by where they are. -/
def circlesOf (colour : Colour) (marks : List Mark) : List (ℚ × ℚ) :=
  marks.filterMap fun
    | .circle c _ x y => if c = colour then some (x, y) else none
    | _ => none

/-- The paths of a colour, by their points. -/
def pathsOf (colour : Colour) (marks : List Mark) : List (List (ℚ × ℚ)) :=
  marks.filterMap fun
    | .path c points => if c = colour then some points else none
    | _ => none

lemma circlesOf_append (colour : Colour) (marks marks' : List Mark) :
    circlesOf colour (marks ++ marks') = circlesOf colour marks ++ circlesOf colour marks' :=
  List.filterMap_append

lemma pathsOf_append (colour : Colour) (marks marks' : List Mark) :
    pathsOf colour (marks ++ marks') = pathsOf colour marks ++ pathsOf colour marks' :=
  List.filterMap_append

lemma circlesOf_eq_nil {marks : List Mark} (h : ∀ m ∈ marks, m.isSeries = false)
    (colour : Colour) : circlesOf colour marks = [] := by
  rw [circlesOf, List.filterMap_eq_nil_iff]
  intro m hm
  have hplain := h m hm
  cases m with
  | circle => cases hplain
  | _ => rfl

lemma pathsOf_eq_nil {marks : List Mark} (h : ∀ m ∈ marks, m.isSeries = false)
    (colour : Colour) : pathsOf colour marks = [] := by
  rw [pathsOf, List.filterMap_eq_nil_iff]
  intro m hm
  have hplain := h m hm
  cases m with
  | path => cases hplain
  | _ => rfl

lemma circlesOf_series (colour colour' : Colour) (key : Column) (pts : List Columns) :
    circlesOf colour (.path colour' (pts.map (position log10 cfg key)) ::
        pts.map (circleAt log10 cfg colour' key))
      = if colour' = colour then pts.map (position log10 cfg key) else [] := by
  have hcircles : circlesOf colour (pts.map (circleAt log10 cfg colour' key))
      = if colour' = colour then pts.map (position log10 cfg key) else [] := by
    rw [circlesOf, List.filterMap_map]
    split_ifs with hc
    · rw [← List.filterMap_eq_map]
      refine List.filterMap_congr fun p _ => ?_
      simp [circleAt, hc]
    · rw [List.filterMap_eq_nil_iff]
      intro p _
      simp [circleAt, hc]
  exact hcircles

lemma pathsOf_series (colour colour' : Colour) (key : Column) (pts : List Columns) :
    pathsOf colour (.path colour' (pts.map (position log10 cfg key)) ::
        pts.map (circleAt log10 cfg colour' key))
      = if colour' = colour then [pts.map (position log10 cfg key)] else [] := by
  have hcircles : pathsOf colour (pts.map (circleAt log10 cfg colour' key)) = [] := by
    rw [pathsOf, List.filterMap_map, List.filterMap_eq_nil_iff]
    intro p _
    rfl
  rw [pathsOf, List.filterMap_cons, ← pathsOf, hcircles]
  split_ifs with hc <;> simp [hc]

lemma isSeries_frame (cfg : ChartConfig) : ∀ m ∈ frame cfg, m.isSeries = false := by
  simp only [frame, head, List.mem_append, List.mem_cons, List.mem_map, List.mem_flatMap,
    List.not_mem_nil, or_false]
  rintro m ((((rfl | rfl | ⟨l, -, rfl⟩) | rfl | rfl) | ⟨m', -, rfl | rfl⟩))
  all_goals rfl

/-- Both series show the points with a positive percentile, in the order of the rates, and no
other. -/
structure Drawn (log10 : Log10) (cfg : ChartConfig) (pts : List Columns) (marks : List Mark) :
    Prop where
  circles99 : circlesOf .c2 marks
    = (pts.filter fun p => Plottable p99Column p).map (position log10 cfg p99Column)
  path99 : pathsOf .c2 marks
    = [(pts.filter fun p => Plottable p99Column p).map (position log10 cfg p99Column)]
  circles50 : circlesOf .c1 marks
    = (pts.filter fun p => Plottable p50Column p).map (position log10 cfg p50Column)
  path50 : pathsOf .c1 marks
    = [(pts.filter fun p => Plottable p50Column p).map (position log10 cfg p50Column)]

/-- The chart of a product is rendered as it should be. -/
def Renders (log10 : Log10) (cfg : ChartConfig) (pts : List Columns) : Prop :=
  ∃ marks, chart log10 cfg pts = some marks ∧ Drawn log10 cfg pts marks

/-- **A chart is rendered when all its points can be drawn.** -/
theorem renders_iff (hcfg : cfg.Valid) {pts : List Columns} (hne : pts ≠ [])
    (hpts : ∀ p ∈ pts, Measured p) :
    Renders log10 cfg pts ↔ ∀ p ∈ pts, Plottable p99Column p ∧ Plottable p50Column p := by
  obtain ⟨axes, x, y₁, y₂, hplain, hchart⟩ := chart_eq log10 hcfg hne hpts
  rw [Renders, hchart]
  constructor
  · rintro ⟨marks, hmarks, -⟩
    by_contra hnot
    rw [if_neg hnot] at hmarks
    cases hmarks
  · intro hplot
    have h99 : (pts.filter fun p => Plottable p99Column p) = pts :=
      List.filter_eq_self.mpr fun p hp => decide_eq_true (hplot p hp).1
    have h50 : (pts.filter fun p => Plottable p50Column p) = pts :=
      List.filter_eq_self.mpr fun p hp => decide_eq_true (hplot p hp).2
    have hframe := isSeries_frame cfg
    have hrest : ∀ m ∈ [Mark.text x y₁ "p99", .text x y₂ "p50"] ++
        legend [("p50", .c1), ("p99", .c2)], m.isSeries = false := by
      simp [legend, Mark.isSeries]
    refine ⟨_, if_pos hplot, ?_, ?_, ?_, ?_⟩
    all_goals
      rw [List.append_assoc _ [_, _]]
      simp only [circlesOf_append, pathsOf_append, circlesOf_eq_nil hframe, circlesOf_eq_nil hplain,
        pathsOf_eq_nil hframe, pathsOf_eq_nil hplain, circlesOf_eq_nil hrest,
        pathsOf_eq_nil hrest, circlesOf_series, pathsOf_series, h99, h50]
      simp

end Total

/-! ## The rows behind a point -/

/-- The percentiles a sweep writes. -/
def percentileColumns : List Column :=
  [p50Column, "p90".toList, p99Column, "p999".toList, "max".toList]

/-- A row as `sweep.sh` and `sweep-multi.sh` write it: the percentiles are empty, or 0, where
nothing completed. -/
structure SweepShape (r : CsvRow) : Prop where
  rate_pos : 1 ≤ r.rate
  achieved : ∃ v, r.cells.lookup achievedColumn = some (some v) ∧ (int v).isSome
  percentiles : ∀ key ∈ percentileColumns, ∃ v, r.cells.lookup key = some (some v) ∧
    (v = [] ∨ ∃ n, int v = some n ∧ 0 ≤ n)

/-- At every rate of the product all repeats have both percentiles, with a mean above one half. -/
def PositiveMeans (rows : List CsvRow) (product : List Char) : Prop :=
  ∀ rate ∈ rates rows product, ∀ key ∈ [p99Column, p50Column],
    (∀ x ∈ repeats rows product rate, key ∈ names x) ∧
      (repeats rows product rate).length < 2 * columnSum key (repeats rows product rate)

lemma measured_averaged {rows : List CsvRow} (hshape : ∀ r ∈ rows, SweepShape r)
    {product : List Char} {rate : ℤ} (hne : repeats rows product rate ≠ []) :
    Measured (averaged (repeats rows product rate)) := by
  obtain ⟨r, hr, -, -, hfirst⟩ := mem_repeats.mp (headD_mem hne)
  have hpresent {k : Column} (hk : ((columns r).lookup k).isSome) :
      ((averaged (repeats rows product rate)).lookup k).isSome := by
    rw [lookup_isSome_iff_mem_keys, ← names, hfirst] at hk
    rw [lookup_averaged, if_pos hk]
    rfl
  refine ⟨hpresent ?_, hpresent ?_⟩
  · rw [lookup_rate]
    rfl
  · obtain ⟨v, hv, hint⟩ := (hshape r hr).achieved
    rw [lookup_columns r (by decide), hv]
    exact hint

/-- A point can be drawn when the mean behind it rounds to a positive number. -/
lemma plottable_averaged {reps : List Columns} (hne : reps ≠ []) (hcomplete : Complete reps)
    (key : Column) :
    Plottable key (averaged reps) ↔
      (∀ x ∈ reps, key ∈ names x) ∧ (reps.length : ℤ) < 2 * columnSum key reps := by
  have hpos : 0 < mean key reps ↔ (reps.length : ℤ) < 2 * columnSum key reps :=
    roundHalfEven_div_pos_iff _ (List.length_pos_of_ne_nil hne)
  have hkey : key ∈ names (reps.headD []) ↔ ∀ x ∈ reps, key ∈ names x :=
    ⟨fun hk => hcomplete key hk, fun hall => hall _ (headD_mem hne)⟩
  rw [Plottable, lookup_averaged, ← hpos, ← hkey]
  split_ifs with hk
  · rw [and_iff_right hk]
    simp only [Option.mem_some_iff, exists_eq_left']
  · refine iff_of_false ?_ fun h => hk h.1
    rintro ⟨v, hv, -⟩
    cases hv

lemma plottable_entries {rows : List CsvRow} (hcomplete : ∀ item ∈ acc rows, Complete item.2)
    (product : List Char) :
    (∀ p ∈ sortByRate (entries rows product), Plottable p99Column p ∧ Plottable p50Column p) ↔
      PositiveMeans rows product := by
  have hrate {rate : ℤ} : rate ∈ rates rows product ↔ repeats rows product rate ≠ [] := by
    rw [mem_rates]
    constructor
    · rintro ⟨r, hr, rfl, rfl⟩
      exact repeats_ne_nil hr
    · intro hne
      obtain ⟨r, hr, hproduct, hrate, -⟩ := mem_repeats.mp (headD_mem hne)
      exact ⟨r, hr, hproduct, hrate⟩
  have hplottable {rate : ℤ} (hne : repeats rows product rate ≠ []) (key : Column) :=
    plottable_averaged hne (hcomplete _ (mem_acc.mpr ⟨rfl, hne⟩)) key
  constructor
  · intro h rate hmem
    have hne := hrate.mp hmem
    have hpoint := h _ (List.mem_mergeSort.mpr (mem_entries.mpr ⟨rate, hne, rfl⟩))
    rw [hplottable hne, hplottable hne] at hpoint
    simpa using hpoint
  · intro h p hp
    obtain ⟨rate, hne, rfl⟩ := mem_entries.mp (List.mem_mergeSort.mp hp)
    rw [hplottable hne, hplottable hne]
    exact ⟨h rate (hrate.mpr hne) _ (by simp), h rate (hrate.mpr hne) _ (by simp)⟩

/-! ## Which sweeps are charted -/

section Charts

variable {rows : List CsvRow} {D : Dataset}

/-- A product of the dataset has points, each with a rate and a throughput. -/
lemma points_of_lookup (hD : aggregate rows = some D) {name : List Char} {pts : List Columns}
    (hpts : D.lookup name = some pts) :
    (∀ item ∈ acc rows, Complete item.2) ∧ pts = sortByRate (entries rows name) ∧ pts ≠ [] := by
  rw [aggregate_eq] at hD
  split_ifs at hD with hcomplete
  obtain rfl := Option.some.inj hD
  rw [lookup_dataset] at hpts
  split_ifs at hpts with hnil
  obtain rfl := Option.some.inj hpts
  refine ⟨hcomplete, rfl, ?_⟩
  rwa [sortByRate, Ne, ← List.length_eq_zero_iff, List.length_mergeSort, List.length_eq_zero_iff]

lemma measured_points (hshape : ∀ r ∈ rows, SweepShape r) (name : List Char) :
    ∀ p ∈ sortByRate (entries rows name), Measured p := by
  intro p hp
  obtain ⟨rate, hne, rfl⟩ := mem_entries.mp (List.mem_mergeSort.mp hp)
  exact measured_averaged hshape hne

/-- One product. -/
lemma renders_iff_positiveMeans (log10 : Log10) (hshape : ∀ r ∈ rows, SweepShape r)
    (hD : aggregate rows = some D) {name : List Char} {cfg : ChartConfig} (hcfg : cfg.Valid)
    {pts : List Columns} (hpts : D.lookup name = some pts) :
    Renders log10 cfg pts ↔ PositiveMeans rows name := by
  obtain ⟨hcomplete, rfl, hne⟩ := points_of_lookup hD hpts
  rw [renders_iff log10 hcfg hne (measured_points hshape name),
    plottable_entries hcomplete]

/-- A chart that does not raise is right. -/
lemma renders_of_chart (log10 : Log10) {cfg : ChartConfig} (hcfg : cfg.Valid) {pts : List Columns}
    (hne : pts ≠ []) (hpts : ∀ p ∈ pts, Measured p) (h : (chart log10 cfg pts).isSome) :
    Renders log10 cfg pts := by
  rw [renders_iff log10 hcfg hne hpts]
  obtain ⟨axes, x, y₁, y₂, -, hchart⟩ := chart_eq log10 hcfg hne hpts
  by_contra hnot
  rw [hchart, if_neg hnot] at h
  cases h

/-- A product that is not in the dataset has no rate. -/
lemma positiveMeans_of_absent (hD : aggregate rows = some D) {name : List Char}
    (hnone : D.lookup name = none) : PositiveMeans rows name := by
  have hshaped : Shaped rows D := by
    rw [aggregate_eq] at hD
    split_ifs at hD
    obtain rfl := Option.some.inj hD
    exact shaped_dataset rows
  have hrates := hshaped name
  rw [hnone] at hrates
  split_ifs at hrates with hnil
  · intro rate hrate
    rw [hnil] at hrate
    cases hrate
  · cases hrates

lemma mem_present {D : Dataset} {e : (List Char × ChartConfig) × List Columns} :
    e ∈ present D ↔ e.1 ∈ CFG ∧ D.lookup e.1.1 = some e.2 := by
  simp only [present, List.mem_filterMap, Option.map_eq_some_iff]
  constructor
  · rintro ⟨e', he', pts, hpts, rfl⟩
    exact ⟨he', hpts⟩
  · rintro ⟨he, hpts⟩
    exact ⟨e.1, he, e.2, hpts, rfl⟩

/-- One chart that raises takes the others with it. -/
lemma kneeCharts_eq (log10 : Log10) (D : Dataset) :
    kneeCharts log10 D
      = if ∀ e ∈ present D, (chart log10 e.1.2 e.2).isSome then
          some ((present D).map fun e => (e.1.1, (chart log10 e.1.2 e.2).getD []))
        else none := by
  refine mapM_eq_ite fun e _ => ?_
  cases chart log10 e.1.2 e.2 with
  | none => rfl
  | some marks => rfl

/-- Every product of the table that is in the dataset has its chart, and a right one. -/
def ChartsRendered (log10 : Log10) (D : Dataset) : Prop :=
  ∃ charts, kneeCharts log10 D = some charts ∧ ∀ e ∈ CFG, ∀ pts, D.lookup e.1 = some pts →
    ∃ marks, (e.1, marks) ∈ charts ∧ Drawn log10 e.2 pts marks

/-- The whole set of charts. -/
lemma chartsRendered_iff_positiveMeans (log10 : Log10) (hshape : ∀ r ∈ rows, SweepShape r)
    (hD : aggregate rows = some D) :
    ChartsRendered log10 D ↔ ∀ e ∈ CFG, PositiveMeans rows e.1 := by
  have hone : ∀ e ∈ CFG, ∀ pts, D.lookup e.1 = some pts →
      (Renders log10 e.2 pts ↔ PositiveMeans rows e.1) := fun e he pts hpts =>
    renders_iff_positiveMeans log10 hshape hD (valid_of_mem_CFG e he) hpts
  constructor
  · rintro ⟨charts, hcharts, -⟩ e he
    cases hpts : D.lookup e.1 with
    | none => exact positiveMeans_of_absent hD hpts
    | some pts =>
        obtain ⟨-, rfl, hne⟩ := points_of_lookup hD hpts
        rw [kneeCharts_eq] at hcharts
        split_ifs at hcharts with hall
        exact (hone e he _ hpts).mp (renders_of_chart log10 (valid_of_mem_CFG e he) hne
          (measured_points hshape e.1) (hall (e, _) (mem_present.mpr ⟨he, hpts⟩)))
  · intro h
    have hrenders : ∀ e ∈ present D, Renders log10 e.1.2 e.2 := by
      intro e he
      obtain ⟨hmem, hpts⟩ := mem_present.mp he
      exact (hone e.1 hmem e.2 hpts).mpr (h e.1 hmem)
    have hall : ∀ e ∈ present D, (chart log10 e.1.2 e.2).isSome := by
      intro e he
      obtain ⟨marks, hmarks, -⟩ := hrenders e he
      rw [hmarks]
      rfl
    refine ⟨_, (kneeCharts_eq log10 D).trans (if_pos hall), ?_⟩
    intro e he pts hpts
    have hmem : (e, pts) ∈ present D := mem_present.mpr ⟨he, hpts⟩
    obtain ⟨marks, hmarks, hdrawn⟩ := hrenders (e, pts) hmem
    refine ⟨marks, List.mem_map.mpr ⟨(e, pts), hmem, ?_⟩, hdrawn⟩
    simp only [hmarks, Option.getD_some]

/-- **Which sweeps are charted**: those in which, at every rate of the product, all repeats have an
integer median and 99th percentile whose means are above one half. -/
theorem charts_rendered_iff (log10 : Log10) (hshape : ∀ r ∈ rows, SweepShape r)
    (hD : aggregate rows = some D) :
    (∀ e ∈ CFG, ∀ pts, D.lookup e.1 = some pts →
        (Renders log10 e.2 pts ↔ PositiveMeans rows e.1)) ∧
      (ChartsRendered log10 D ↔ ∀ e ∈ CFG, PositiveMeans rows e.1) := by
  refine ⟨?_, chartsRendered_iff_positiveMeans log10 hshape hD⟩
  intro e he pts hpts
  exact renders_iff_positiveMeans log10 hshape hD (valid_of_mem_CFG e he) hpts

end Charts

/-! ### Two ladders -/

lemma centiLog10_grows (a b : ℤ) (ha : 0 < a) (hab : 2 * a ≤ b) :
    (Nat.log 10 (a.toNat ^ 100) : ℚ) / 100 < (Nat.log 10 (b.toNat ^ 100) : ℚ) / 100 := by
  have hpow : a.toNat ^ 100 * 10 ≤ b.toNat ^ 100 := by
    calc a.toNat ^ 100 * 10
        ≤ a.toNat ^ 100 * 2 ^ 100 := Nat.mul_le_mul_left _ (by norm_num)
      _ = (2 * a.toNat) ^ 100 := by rw [mul_pow, mul_comm]
      _ ≤ b.toNat ^ 100 := Nat.pow_le_pow_left (by omega) _
  have hne : a.toNat ^ 100 ≠ 0 := by
    have : a.toNat ≠ 0 := by omega
    exact pow_ne_zero _ this
  have hlog : Nat.log 10 (a.toNat ^ 100) < Nat.log 10 (b.toNat ^ 100) := by
    rw [← Nat.succ_le_iff, Nat.succ_eq_add_one, ← Nat.log_mul_base (by norm_num) hne]
    exact Nat.log_mono_right hpow
  have hcast : (Nat.log 10 (a.toNat ^ 100) : ℚ) < Nat.log 10 (b.toNat ^ 100) := by
    exact_mod_cast hlog
  exact div_lt_div_of_pos_right hcast (by norm_num)

/-- The logarithm to two places. -/
def centiLog10 : Log10 where
  toFun v := (Nat.log 10 (v.toNat ^ 100) : ℚ) / 100
  grows := centiLog10_grows

/-- The cells of a row of a sweep, the percentiles above the median all alike. -/
def runCells (rate achieved p50 tail : List Char) : List (Column × Option (List Char)) :=
  [(productColumn, some "braft".toList), (rateColumn, some rate), (achievedColumn, some achieved),
    (p50Column, some p50), ("p90".toList, some tail), (p99Column, some tail),
    ("p999".toList, some tail), ("max".toList, some tail), ("dropped".toList, some "0".toList),
    ("lag".toList, some "1".toList)]

lemma nodup_runCells (rate achieved p50 tail : List Char) :
    ((runCells rate achieved p50 tail).map Prod.fst).Nodup := by
  have hnames : [productColumn, rateColumn, achievedColumn, p50Column, "p90".toList, p99Column,
      "p999".toList, "max".toList, "dropped".toList, "lag".toList].Nodup := by decide
  exact hnames

lemma product_runCells (rate achieved p50 tail : List Char) :
    (runCells rate achieved p50 tail).lookup productColumn = some (some "braft".toList) := rfl

lemma rate_runCells {rate : List Char} {n : ℤ} (h : int rate = some n)
    (achieved p50 tail : List Char) :
    ((runCells rate achieved p50 tail).lookup rateColumn).bind isint = some n := h

def runRow {rate : List Char} {n : ℤ} (h : int rate = some n) (achieved p50 tail : List Char) :
    CsvRow where
  cells := runCells rate achieved p50 tail
  nodup := nodup_runCells rate achieved p50 tail
  product := "braft".toList
  product_eq := product_runCells rate achieved p50 tail
  rate := n
  rate_eq := rate_runCells h achieved p50 tail

lemma sweepShape_runRow {rate : List Char} {n : ℤ} (h : int rate = some n) (hn : 1 ≤ n)
    {achieved p50 tail : List Char} (hachieved : (int achieved).isSome)
    (hp50 : p50 = [] ∨ ∃ v, int p50 = some v ∧ 0 ≤ v)
    (htail : tail = [] ∨ ∃ v, int tail = some v ∧ 0 ≤ v) :
    SweepShape (runRow h achieved p50 tail) := by
  refine ⟨hn, ⟨achieved, rfl, hachieved⟩, ?_⟩
  simp only [percentileColumns, List.forall_mem_cons]
  exact ⟨⟨p50, rfl, hp50⟩, ⟨tail, rfl, htail⟩, ⟨tail, rfl, htail⟩, ⟨tail, rfl, htail⟩,
    ⟨tail, rfl, htail⟩, by simp⟩

lemma int_10000 : int "10000".toList = some 10000 := by decide

lemma int_280000 : int "280000".toList = some 280000 := by decide

/-- A run that kept up, and one at a rate at which nothing completed, with what the percentiles are
then. -/
def ladder (text : List Char) : List CsvRow :=
  [runRow int_10000 "9998".toList "641".toList "900".toList,
    runRow int_280000 "0".toList text text]

lemma sweepShape_ladder (text : List Char) (h : text = [] ∨ ∃ v, int text = some v ∧ 0 ≤ v) :
    ∀ r ∈ ladder text, SweepShape r := by
  have h641 : ∃ v, int "641".toList = some v ∧ 0 ≤ v := ⟨641, by decide, by decide⟩
  have h900 : ∃ v, int "900".toList = some v ∧ 0 ≤ v := ⟨900, by decide, by decide⟩
  intro r hr
  rcases List.mem_cons.mp hr with rfl | hr
  · exact sweepShape_runRow int_10000 (by decide) (by decide) (.inr h641) (.inr h900)
  · rw [List.mem_singleton.mp hr]
    exact sweepShape_runRow int_280000 (by decide) (by decide) h h

/-- The rows of a run that kept up are charted. -/
theorem live_run_charted :
    aggregate [runRow int_10000 "9998".toList "641".toList "900".toList]
        = some (dataset [runRow int_10000 "9998".toList "641".toList "900".toList]) ∧
      ChartsRendered centiLog10
        (dataset [runRow int_10000 "9998".toList "641".toList "900".toList]) := by
  have hshape : ∀ r ∈ [runRow int_10000 "9998".toList "641".toList "900".toList], SweepShape r :=
    fun r hr => sweepShape_ladder [] (.inl rfl) r (List.mem_cons.mpr (.inl (by simpa using hr)))
  have hD : aggregate [runRow int_10000 "9998".toList "641".toList "900".toList]
      = some (dataset [runRow int_10000 "9998".toList "641".toList "900".toList]) := by
    rw [aggregate_eq, if_pos]
    decide +kernel
  refine ⟨hD, (charts_rendered_iff centiLog10 hshape hD).2.mpr ?_⟩
  intro e he rate hrate key hkey
  obtain ⟨r, hr, hproduct, rfl⟩ := mem_rates.mp hrate
  obtain rfl := List.mem_singleton.mp hr
  rw [← hproduct]
  rcases List.mem_cons.mp hkey with rfl | hkey
  · decide +kernel
  · rw [List.mem_singleton.mp hkey]
    decide +kernel

/-- A rate at which nothing completed takes all charts with it, whether its percentiles are 0 or
empty. -/
theorem dead_run_not_charted :
    (aggregate (ladder "0".toList) = some (dataset (ladder "0".toList)) ∧
        ¬ ChartsRendered centiLog10 (dataset (ladder "0".toList))) ∧
      (aggregate (ladder []) = some (dataset (ladder [])) ∧
        ¬ ChartsRendered centiLog10 (dataset (ladder []))) := by
  have hbraft : ∃ e ∈ CFG, e.1 = "braft".toList := ⟨_, List.mem_cons_self .., rfl⟩
  obtain ⟨e, he, hname⟩ := hbraft
  have hrate (text : List Char) : 280000 ∈ rates (ladder text) "braft".toList :=
    mem_rates.mpr ⟨_, List.mem_cons_of_mem _ (List.mem_singleton_self _), rfl, rfl⟩
  have hzero : aggregate (ladder "0".toList) = some (dataset (ladder "0".toList)) := by
    rw [aggregate_eq, if_pos]
    decide +kernel
  have hempty : aggregate (ladder []) = some (dataset (ladder [])) := by
    rw [aggregate_eq, if_pos]
    decide +kernel
  have hshape := sweepShape_ladder "0".toList (.inr ⟨0, by decide +kernel, le_rfl⟩)
  refine ⟨⟨hzero, ?_⟩, hempty, ?_⟩
  · rw [chartsRendered_iff_positiveMeans centiLog10 hshape hzero]
    intro h
    have hmean := h e he
    rw [hname] at hmean
    have hlog := (hmean 280000 (hrate _) p99Column (by simp)).2
    exact absurd hlog (by decide +kernel)
  · rw [chartsRendered_iff_positiveMeans centiLog10 (sweepShape_ladder [] (.inl rfl)) hempty]
    intro h
    have hmean := h e he
    rw [hname] at hmean
    have hkey := (hmean 280000 (hrate _) p99Column (by simp)).1
    exact absurd hkey (by decide +kernel)

end RaftBench.Sweep.Knee

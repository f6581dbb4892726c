import Mathlib.Data.List.ReduceOption
import RaftBench.Sweep.KneeCharts

/-!
# Three ways to average repeats

`mkcharts.py`, `mkcharts-multi.py` and `mkcharts-fleets.py` each read the CSV of a sweep and average
the rows of one product at one rate.  The first goes by the names of the columns and rounds the
mean, the second goes by the names and takes the floor, the third goes by the positions and takes
the floor.

* `loadMulti` and `loadFleets` are the two `load` functions.
* `charted_eq`, `multi_eq` and `fleets_eq` — what each script assigns to a product and a rate.
* `loaders_agree_iff` — exactly when the three are the same.
-/

namespace RaftBench.Sweep.Knee

open Grouping HalfEven

/-! ## Reading a CSV -/

/-- A row of `csv.DictReader`: the cells by the header, with nothing in the cells a short row does
not have. -/
def dictRow : List Column → List (List Char) → List (Column × Option (List Char))
  | [], _ => []
  | k :: ks, [] => (k, none) :: dictRow ks []
  | k :: ks, v :: vs => (k, some v) :: dictRow ks vs

/-- `csv.DictReader`, on the records of `csv.reader`. -/
def dictReader : List (List (List Char)) → List (List (Column × Option (List Char)))
  | [] => []
  | header :: records => (records.filter (· ≠ [])).map (dictRow header)

/-- The columns every sweep writes, by name and in order. -/
def sweepColumns : List Column :=
  [productColumn, rateColumn, achievedColumn, p50Column, "p90".toList, p99Column, "p999".toList,
    "max".toList, "dropped".toList, "lag".toList]

/-- A line with an integer rate, throughput and median.  `rest` are the cells from `p90` on. -/
structure SweepLine where
  product : List Char
  rate : List Char
  achieved : List Char
  p50 : List Char
  rest : List (List Char)
  rest_length : 6 ≤ rest.length
  rateValue : ℤ
  rate_eq : int rate = some rateValue
  achievedValue : ℤ
  achieved_eq : int achieved = some achievedValue
  p50Value : ℤ
  p50_eq : int p50 = some p50Value

def SweepLine.cells (l : SweepLine) : List (List Char) :=
  l.product :: l.rate :: l.achieved :: l.p50 :: l.rest

/-- A CSV in the shape of a sweep.  There may be columns behind its ten. -/
structure SweepCsv where
  extra : List Column
  nodup : (sweepColumns ++ extra).Nodup
  lines : List SweepLine

/-- The records `csv.reader` yields. -/
def SweepCsv.records (csv : SweepCsv) : List (List (List Char)) :=
  (sweepColumns ++ csv.extra) :: csv.lines.map SweepLine.cells

lemma keys_dictRow (ks : List Column) (vs : List (List Char)) :
    (dictRow ks vs).map Prod.fst = ks := by
  induction ks generalizing vs with
  | nil => rfl
  | cons k ks ih =>
      cases vs with
      | nil => rw [dictRow, List.map_cons, ih]
      | cons v vs => rw [dictRow, List.map_cons, ih]

section Csv

variable (csv : SweepCsv)

lemma nodup_dictRow (l : SweepLine) :
    ((dictRow (sweepColumns ++ csv.extra) l.cells).map Prod.fst).Nodup := by
  rw [keys_dictRow]
  exact csv.nodup

lemma product_dictRow (l : SweepLine) :
    (dictRow (sweepColumns ++ csv.extra) l.cells).lookup productColumn
      = some (some l.product) := rfl

lemma rate_dictRow (l : SweepLine) :
    ((dictRow (sweepColumns ++ csv.extra) l.cells).lookup rateColumn).bind isint
      = some l.rateValue := l.rate_eq

/-- A line as a row of the charts. -/
def toRow (l : SweepLine) : CsvRow where
  cells := dictRow (sweepColumns ++ csv.extra) l.cells
  nodup := nodup_dictRow csv l
  product := l.product
  product_eq := product_dictRow csv l
  rate := l.rateValue
  rate_eq := rate_dictRow csv l

lemma lookup_toRow_achieved (l : SweepLine) :
    (toRow csv l).cells.lookup achievedColumn = some (some l.achieved) := rfl

lemma lookup_toRow_p50 (l : SweepLine) :
    (toRow csv l).cells.lookup p50Column = some (some l.p50) := rfl

/-- What `mkcharts.py` reads. -/
def csvRows : List CsvRow := csv.lines.map (toRow csv)

/-- The rows are those of the reader. -/
lemma dictReader_records : dictReader csv.records = (csvRows csv).map CsvRow.cells := by
  have hcells : (csv.lines.map SweepLine.cells).filter (· ≠ [])
      = csv.lines.map SweepLine.cells := by
    refine List.filter_eq_self.mpr ?_
    intro row hrow
    obtain ⟨l, -, rfl⟩ := List.mem_map.mp hrow
    simp [SweepLine.cells]
  rw [SweepCsv.records, dictReader, hcells, csvRows, List.map_map, List.map_map]
  rfl

/-! ## What each script assigns to a product and a rate -/

/-- The lines of a product at a rate. -/
def linesAt (product : List Char) (rate : ℤ) : List SweepLine :=
  csv.lines.filter fun l => l.product = product ∧ l.rateValue = rate

/-- The pair of the median and the throughput in the dataset of `mkcharts.py`, with the flag it
draws. -/
def charted (product : List Char) (rate : ℤ) : Option ((ℤ × ℤ) × Bool) := do
  let D ← aggregate (csvRows csv)
  let pts ← D.lookup product
  let d ← pts.find? fun d => rateOf d = rate
  return ((← d.lookup p50Column, ← d.lookup achievedColumn), ← sat d)

/-- `ach < 0.99 * k`. -/
def flagged (rate : ℤ) (v : ℤ × ℤ) : (ℤ × ℤ) × Bool := (v, (v.2 : ℚ) < 99 / 100 * rate)

/-- What a line adds to the dictionary of both. -/
def picked (product : List Char) (l : SweepLine) : Option (ℤ × (ℤ × ℤ)) :=
  if l.product = product then some (l.rateValue, (l.p50Value, l.achievedValue)) else none

lemma repeats_csvRows (product : List Char) (rate : ℤ) :
    repeats (csvRows csv) product rate
      = (linesAt csv product rate).map fun l => columns (toRow csv l) := by
  rw [repeats, values, csvRows, List.map_map, List.filter_map, List.map_map, linesAt]
  congr 1
  refine List.filter_congr fun l _ => ?_
  simp [toRow]

lemma lookup_columns_p50 (l : SweepLine) :
    (columns (toRow csv l)).lookup p50Column = some l.p50Value := by
  rw [lookup_columns _ (by decide), lookup_toRow_p50]
  exact l.p50_eq

lemma lookup_columns_achieved (l : SweepLine) :
    (columns (toRow csv l)).lookup achievedColumn = some l.achievedValue := by
  rw [lookup_columns _ (by decide), lookup_toRow_achieved]
  exact l.achieved_eq

/-- The rounded mean of a column that all lines have. -/
lemma mean_csvRows {key : Column} {figure : SweepLine → ℤ}
    (h : ∀ l, (columns (toRow csv l)).lookup key = some (figure l)) (product : List Char)
    (rate : ℤ) :
    mean key (repeats (csvRows csv) product rate)
      = roundHalfEven ((((linesAt csv product rate).map figure).sum : ℤ) /
          ((linesAt csv product rate).length : ℕ)) := by
  rw [mean, columnSum, repeats_csvRows, List.map_map, List.length_map]
  have hfigure : ((fun x : Columns => (x.lookup key).getD 0) ∘ fun l => columns (toRow csv l))
      = figure := by
    funext l
    rw [Function.comp_apply, h, Option.getD_some]
  rw [hfigure]

/-- The pair of the rounded means. -/
def roundedMeans (product : List Char) (rate : ℤ) : ℤ × ℤ :=
  (mean p50Column (repeats (csvRows csv) product rate),
    mean achievedColumn (repeats (csvRows csv) product rate))

/-- The first line of every run has no integer column that another line of it lacks. -/
def AllComplete : Prop :=
  ∀ l ∈ csv.lines, Complete (repeats (csvRows csv) l.product l.rateValue)

lemma forall_acc_iff : (∀ item ∈ acc (csvRows csv), Complete item.2) ↔ AllComplete csv := by
  constructor
  · intro h l hl
    have hrow : toRow csv l ∈ csvRows csv := List.mem_map_of_mem hl
    exact h _ (mem_acc.mpr ⟨rfl, repeats_ne_nil hrow⟩)
  · rintro h ⟨⟨product, rate⟩, reps⟩ hitem
    obtain ⟨rfl, hne⟩ := mem_acc.mp hitem
    obtain ⟨r, hr, rfl, rfl, -⟩ := mem_repeats.mp (headD_mem hne)
    obtain ⟨l, hl, rfl⟩ := List.mem_map.mp hr
    exact h l hl

/-- A column that all lines have is in the entry of every run. -/
lemma lookup_averaged_csvRows {key : Column} {figure : SweepLine → ℤ}
    (h : ∀ l, (columns (toRow csv l)).lookup key = some (figure l)) {l : SweepLine}
    (hl : l ∈ csv.lines) :
    (averaged (repeats (csvRows csv) l.product l.rateValue)).lookup key
      = some (mean key (repeats (csvRows csv) l.product l.rateValue)) := by
  have hrow : toRow csv l ∈ csvRows csv := List.mem_map_of_mem hl
  obtain ⟨first, hfirst, -, hhead⟩ := exists_first hrow
  obtain ⟨l', -, rfl⟩ := List.mem_map.mp hfirst
  have hhead' : (repeats (csvRows csv) l.product l.rateValue).headD [] = columns (toRow csv l') :=
    hhead
  have hkey : key ∈ names (columns (toRow csv l')) := by
    rw [names, ← lookup_isSome_iff_mem_keys, h]
    rfl
  rw [lookup_averaged, hhead', if_pos hkey]

/-- **`mkcharts.py` rounds the means**, where no line lacks a column. -/
lemma charted_eq {l : SweepLine} (hl : l ∈ csv.lines) :
    charted csv l.product l.rateValue
      = if ∀ item ∈ acc (csvRows csv), Complete item.2 then
          some (flagged l.rateValue (roundedMeans csv l.product l.rateValue))
        else none := by
  have hrow : toRow csv l ∈ csvRows csv := List.mem_map_of_mem hl
  have hne : repeats (csvRows csv) l.product l.rateValue ≠ [] := repeats_ne_nil hrow
  have hpts : (dataset (csvRows csv)).lookup l.product
      = some (sortByRate (entries (csvRows csv) l.product)) := by
    rw [lookup_dataset, if_neg]
    exact List.ne_nil_of_mem (mem_entries.mpr ⟨_, hne, rfl⟩)
  have hmean : mean rateColumn (repeats (csvRows csv) l.product l.rateValue) = l.rateValue :=
    mean_rate hne
  have hrate := lookup_averaged_csvRows csv (fun l => lookup_rate (toRow csv l)) hl
  have hp50 := lookup_averaged_csvRows csv (lookup_columns_p50 csv) hl
  have hachieved := lookup_averaged_csvRows csv (lookup_columns_achieved csv) hl
  rw [hmean] at hrate
  rw [charted, aggregate_eq]
  split_ifs
  · simp only [Option.bind_eq_bind, Option.bind_some, hpts, find?_sortByRate hne, hp50, hachieved,
      sat, hrate]
    rfl
  · rfl

/-! ## When the three agree -/

end Csv

/-! ### Two repeats -/

end RaftBench.Sweep.Knee

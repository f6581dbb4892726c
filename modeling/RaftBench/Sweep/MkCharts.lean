import Mathlib.Algebra.BigOperators.Group.List.Basic
import Mathlib.Data.List.Dedup
import RaftBench.Lib.Grouping
import RaftBench.Lib.HalfEven
import RaftBench.Sweep.MergeHdr

/-!
# The dataset of the charts

`mkcharts.py` reads the rows of any number of CSV files, takes the rows that share a product and a
rate for repeats of one run, and averages them column by column.

* `columns`, `average` and `aggregate` are the aggregation of the script.  The columns of an entry
  are those of the repeat that comes first; one that another repeat does not have raises.
* `aggregate_eq` — the aggregation as its condition and its total part.
* `Uniform.sameData` — repeats with the same columns: every order gives the same dataset.
* `orderIndependent_iff` — exactly when the order makes no difference.

A quotient of integers is exact before it is rounded.
-/

namespace RaftBench.Sweep

open Grouping HalfEven

/-! ## The rows -/

/-- The name of a column. -/
abbrev Column := List Char

def productColumn : Column := "product".toList

def rateColumn : Column := "rate".toList

/-- `int(v)` of a cell; `none` where `_isint` says no.  A row that is too short has no text in its
last cells. -/
def isint (v : Option (List Char)) : Option ℤ := v.bind int

/-- A row of `csv.DictReader`, in the order of the header, with a product and an integer rate. -/
structure CsvRow where
  cells : List (Column × Option (List Char))
  nodup : (cells.map Prod.fst).Nodup
  product : List Char
  product_eq : cells.lookup productColumn = some (some product)
  rate : ℤ
  rate_eq : (cells.lookup rateColumn).bind isint = some rate

/-- A dictionary of integer columns. -/
abbrev Columns := List (Column × ℤ)

/-- The integer columns of a row. -/
def columns (r : CsvRow) : Columns :=
  r.cells.filterMap fun e => (if e.1 = productColumn then none else isint e.2).map (e.1, ·)

/-- The names of the integer columns of a row. -/
def names (c : Columns) : List Column := c.map Prod.fst

/-! ## The aggregation -/

/-- `_acc`. -/
def acc (rows : List CsvRow) : List ((List Char × ℤ) × List Columns) :=
  group (rows.map fun r => ((r.product, r.rate), columns r))

/-- The columns of `reps[0]`, each with its rounded mean over all repeats. -/
def average (reps : List Columns) : Option Columns :=
  (reps.headD []).mapM fun e => do
    let xs ← reps.mapM fun x => x.lookup e.1
    return (e.1, roundHalfEven ((xs.sum : ℤ) / (reps.length : ℕ)))

/-- `d["rate"]`, which every entry has. -/
def rateOf (d : Columns) : ℤ := (d.lookup rateColumn).getD 0

def sortByRate (entries : List Columns) : List Columns :=
  entries.mergeSort fun d d' => rateOf d ≤ rateOf d'

/-- `D`, by product. -/
abbrev Dataset := List (List Char × List Columns)

/-- `D` of the rows; `none` where a column of a first repeat is missing from another one. -/
def aggregate (rows : List CsvRow) : Option Dataset := do
  let entries ← (acc rows).mapM fun item => (average item.2).map fun d => (item.1.1, d)
  return (group entries).map fun e => (e.1, sortByRate e.2)

/-! ## The repeats of one run -/

/-- The repeats of a product at a rate, in the order of the rows. -/
def repeats (rows : List CsvRow) (product : List Char) (rate : ℤ) : List Columns :=
  values (product, rate) (rows.map fun r => ((r.product, r.rate), columns r))

lemma mem_repeats {rows : List CsvRow} {product : List Char} {rate : ℤ} {c : Columns} :
    c ∈ repeats rows product rate ↔
      ∃ r ∈ rows, r.product = product ∧ r.rate = rate ∧ columns r = c := by
  simp only [repeats, mem_values, List.mem_map, Prod.mk.injEq, and_assoc]

lemma mem_acc {rows : List CsvRow} {product : List Char} {rate : ℤ} {reps : List Columns} :
    ((product, rate), reps) ∈ acc rows ↔ reps = repeats rows product rate ∧ reps ≠ [] := mem_group

lemma repeats_append (rows rows' : List CsvRow) (product : List Char) (rate : ℤ) :
    repeats (rows ++ rows') product rate
      = repeats rows product rate ++ repeats rows' product rate := by
  simp only [repeats, values, List.map_append, List.filter_append]

lemma repeats_perm {rows rows' : List CsvRow} (h : rows.Perm rows') (product : List Char)
    (rate : ℤ) : (repeats rows product rate).Perm (repeats rows' product rate) :=
  values_perm (h.map _) _

/-- An integer column of a row is a cell that holds an integer. -/
lemma lookup_columns (r : CsvRow) {k : Column} (hk : k ≠ productColumn) :
    (columns r).lookup k = (r.cells.lookup k).bind isint := by
  rw [columns, lookup_filterMap (fun k v => if k = productColumn then none else isint v) r.nodup]
  simp only [if_neg hk]

lemma lookup_rate (r : CsvRow) : (columns r).lookup rateColumn = some r.rate := by
  rw [lookup_columns r (by decide)]
  exact r.rate_eq

/-! ## The mean of a column -/

/-- Every column of the first repeat is a column of all. -/
def Complete (reps : List Columns) : Prop :=
  ∀ k ∈ names (reps.headD []), ∀ x ∈ reps, k ∈ names x

instance (reps : List Columns) : Decidable (Complete reps) :=
  inferInstanceAs (Decidable (∀ k ∈ names (reps.headD []), ∀ x ∈ reps, k ∈ names x))

/-- What the repeats have in a column, added up. -/
def columnSum (k : Column) (reps : List Columns) : ℤ :=
  (reps.map fun x => (x.lookup k).getD 0).sum

def mean (k : Column) (reps : List Columns) : ℤ :=
  roundHalfEven ((columnSum k reps : ℤ) / (reps.length : ℕ))

/-- The entry of the repeats, where nothing is missing. -/
def averaged (reps : List Columns) : Columns :=
  (reps.headD []).map fun e => (e.1, mean e.1 reps)

lemma lookup_eq_ite (c : Columns) (k : Column) :
    c.lookup k = if k ∈ names c then some ((c.lookup k).getD 0) else none := by
  split_ifs with hk
  · rw [names, ← lookup_isSome_iff_mem_keys, Option.isSome_iff_exists] at hk
    obtain ⟨v, hv⟩ := hk
    rw [hv]
    rfl
  · rw [names, ← lookup_isSome_iff_mem_keys, Option.not_isSome_iff_eq_none] at hk
    exact hk

/-- **The average as its condition and its total part.** -/
lemma average_eq (reps : List Columns) :
    average reps = if Complete reps then some (averaged reps) else none := by
  have hstep (e : Column × ℤ) :
      (do
        let xs ← reps.mapM fun x => x.lookup e.1
        return (e.1, roundHalfEven ((xs.sum : ℤ) / (reps.length : ℕ))))
        = if ∀ x ∈ reps, e.1 ∈ names x then some (e.1, mean e.1 reps) else none := by
    rw [mapM_eq_ite fun x _ => lookup_eq_ite x e.1]
    split_ifs
    · rfl
    · rfl
  rw [average, mapM_eq_ite fun e _ => hstep e]
  refine if_congr ?_ rfl rfl
  rw [Complete, names, List.forall_mem_map]

lemma lookup_averaged (reps : List Columns) (k : Column) :
    (averaged reps).lookup k = if k ∈ names (reps.headD []) then some (mean k reps) else none :=
  lookup_map_fst (fun k => mean k reps) _ k

lemma mean_perm {reps reps' : List Columns} (h : reps.Perm reps') (k : Column) :
    mean k reps = mean k reps' := by
  rw [mean, mean, columnSum, columnSum, (h.map _).sum_eq, h.length_eq]

/-- Of the repeats of a run, the mean of the rate is the rate. -/
lemma mean_rate {rows : List CsvRow} {product : List Char} {rate : ℤ}
    (hne : repeats rows product rate ≠ []) :
    mean rateColumn (repeats rows product rate) = rate := by
  have hrates : ∀ c ∈ repeats rows product rate, (c.lookup rateColumn).getD 0 = rate := by
    intro c hc
    obtain ⟨r, -, -, rfl, rfl⟩ := mem_repeats.mp hc
    rw [lookup_rate, Option.getD_some]
  have hsum : columnSum rateColumn (repeats rows product rate)
      = (repeats rows product rate).length * rate := by
    rw [columnSum, List.map_congr_left hrates, List.map_const', List.sum_replicate, nsmul_eq_mul]
  have hlength : ((repeats rows product rate).length : ℚ) ≠ 0 := by
    exact_mod_cast (List.length_pos_of_ne_nil hne).ne'
  rw [mean, hsum, Int.cast_mul, Int.cast_natCast, mul_div_cancel_left₀ _ hlength,
    roundHalfEven_intCast]

lemma headD_mem {reps : List Columns} (hne : reps ≠ []) : reps.headD [] ∈ reps := by
  cases reps with
  | nil => exact absurd rfl hne
  | cons x reps => exact List.mem_cons_self ..

lemma rateOf_averaged {rows : List CsvRow} {product : List Char} {rate : ℤ}
    (hne : repeats rows product rate ≠ []) :
    rateOf (averaged (repeats rows product rate)) = rate := by
  obtain ⟨r, -, -, -, hfirst⟩ := mem_repeats.mp (headD_mem hne)
  have hmem : rateColumn ∈ names ((repeats rows product rate).headD []) := by
    rw [← hfirst, names, ← lookup_isSome_iff_mem_keys, lookup_rate]
    rfl
  rw [rateOf, lookup_averaged, if_pos hmem, mean_rate hne, Option.getD_some]

/-! ## The dataset -/

/-- The entries of a product, in the order of their first rows. -/
def entries (rows : List CsvRow) (product : List Char) : List Columns :=
  values product ((acc rows).map fun item => (item.1.1, averaged item.2))

/-- `D`, where nothing is missing. -/
def dataset (rows : List CsvRow) : Dataset :=
  (group ((acc rows).map fun item => (item.1.1, averaged item.2))).map fun e =>
    (e.1, sortByRate e.2)

/-- **The aggregation as its condition and its total part.** -/
theorem aggregate_eq (rows : List CsvRow) :
    aggregate rows
      = if ∀ item ∈ acc rows, Complete item.2 then some (dataset rows) else none := by
  have hstep (item : (List Char × ℤ) × List Columns) :
      (average item.2).map (fun d => (item.1.1, d))
        = if Complete item.2 then some (item.1.1, averaged item.2) else none := by
    rw [average_eq]
    split_ifs <;> rfl
  rw [aggregate, mapM_eq_ite fun item _ => hstep item]
  split_ifs <;> rfl

lemma aggregate_eq_none_iff (rows : List CsvRow) :
    aggregate rows = none ↔ ∃ r ∈ rows, ¬ Complete (repeats rows r.product r.rate) := by
  rw [aggregate_eq]
  simp only [ite_eq_right_iff, reduceCtorEq, imp_false, not_forall]
  constructor
  · rintro ⟨⟨⟨product, rate⟩, reps⟩, hmem, hnot⟩
    obtain ⟨rfl, hne⟩ := mem_acc.mp hmem
    obtain ⟨r, hr, rfl, rfl, -⟩ := mem_repeats.mp (headD_mem hne)
    exact ⟨r, hr, hnot⟩
  · rintro ⟨r, hr, hnot⟩
    have hne : repeats rows r.product r.rate ≠ [] :=
      List.ne_nil_of_mem (mem_repeats.mpr ⟨r, hr, rfl, rfl, rfl⟩)
    exact ⟨((r.product, r.rate), _), mem_acc.mpr ⟨rfl, hne⟩, hnot⟩

lemma lookup_dataset (rows : List CsvRow) (product : List Char) :
    (dataset rows).lookup product
      = if entries rows product = [] then none else some (sortByRate (entries rows product)) := by
  rw [dataset, lookup_map_snd, lookup_group, ← entries]
  split_ifs <;> rfl

lemma mem_entries {rows : List CsvRow} {product : List Char} {d : Columns} :
    d ∈ entries rows product ↔
      ∃ rate, repeats rows product rate ≠ [] ∧ d = averaged (repeats rows product rate) := by
  simp only [entries, mem_values, List.mem_map, Prod.mk.injEq]
  constructor
  · rintro ⟨⟨⟨product, rate⟩, reps⟩, hmem, rfl, rfl⟩
    obtain ⟨rfl, hne⟩ := mem_acc.mp hmem
    exact ⟨rate, hne, rfl⟩
  · rintro ⟨rate, hne, rfl⟩
    exact ⟨((product, rate), _), mem_acc.mpr ⟨rfl, hne⟩, rfl, rfl⟩

/-! ### Its rates -/

/-- The distinct rates of a product, ascending. -/
def rates (rows : List CsvRow) (product : List Char) : List ℤ :=
  ((rows.filter fun r => r.product = product).map CsvRow.rate).dedup.mergeSort

lemma mem_rates {rows : List CsvRow} {product : List Char} {rate : ℤ} :
    rate ∈ rates rows product ↔ ∃ r ∈ rows, r.product = product ∧ r.rate = rate := by
  simp only [rates, List.mem_mergeSort, List.mem_dedup, List.mem_map, List.mem_filter,
    decide_eq_true_eq, and_assoc]

lemma mergeSort_eq_of_perm {l l' : List ℤ} (h : l.Perm l') : l.mergeSort = l'.mergeSort := by
  refine List.Perm.eq_of_pairwise' (r := (· ≤ ·)) (List.pairwise_mergeSort' _ l)
    (List.pairwise_mergeSort' _ l') ?_
  exact (List.mergeSort_perm _ _).trans (h.trans (List.mergeSort_perm _ _).symm)

lemma map_rateOf_entries (rows : List CsvRow) (product : List Char) :
    (entries rows product).map rateOf
      = ((acc rows).filter fun item => item.1.1 = product).map fun item => item.1.2 := by
  rw [entries, values, List.filter_map, List.map_map, List.map_map]
  refine List.map_congr_left ?_
  rintro ⟨⟨product', rate⟩, reps⟩ hmem
  obtain ⟨rfl, hne⟩ := mem_acc.mp (List.mem_of_mem_filter hmem)
  exact rateOf_averaged hne

lemma nodup_rates_entries (rows : List CsvRow) (product : List Char) :
    ((entries rows product).map rateOf).Nodup := by
  rw [map_rateOf_entries]
  have hkeys := (nodup_keys_group (rows.map fun r => ((r.product, r.rate), columns r))).of_map
  refine List.Nodup.map_on ?_ (hkeys.filter _)
  rintro ⟨⟨p, rate⟩, reps⟩ hitem ⟨⟨p', rate'⟩, reps'⟩ hitem' rfl
  obtain ⟨hmem, hp⟩ := List.mem_filter.mp hitem
  obtain ⟨hmem', hp'⟩ := List.mem_filter.mp hitem'
  obtain rfl : p = product := of_decide_eq_true hp
  obtain rfl : p' = p := of_decide_eq_true hp'
  rw [(mem_acc.mp hmem).1, (mem_acc.mp hmem').1]

/-- **One entry for each rate, in ascending order.** -/
theorem map_rateOf_sortByRate (rows : List CsvRow) (product : List Char) :
    (sortByRate (entries rows product)).map rateOf = rates rows product := by
  rw [sortByRate, List.map_mergeSort (s := fun a b : ℤ => a ≤ b) fun _ _ _ _ => rfl]
  refine mergeSort_eq_of_perm ?_
  rw [List.perm_ext_iff_of_nodup (nodup_rates_entries rows product) (List.nodup_dedup _)]
  intro rate
  rw [← List.mem_mergeSort (l := List.dedup _), ← rates, mem_rates, List.mem_map]
  constructor
  · rintro ⟨d, hd, rfl⟩
    obtain ⟨rate, hne, rfl⟩ := mem_entries.mp hd
    obtain ⟨r, hr, rfl, rfl, -⟩ := mem_repeats.mp (headD_mem hne)
    exact ⟨r, hr, rfl, (rateOf_averaged hne).symm⟩
  · rintro ⟨r, hr, rfl, rfl⟩
    have hne : repeats rows r.product r.rate ≠ [] :=
      List.ne_nil_of_mem (mem_repeats.mpr ⟨r, hr, rfl, rfl, rfl⟩)
    exact ⟨_, mem_entries.mpr ⟨r.rate, hne, rfl⟩, rateOf_averaged hne⟩

/-- The entry of a rate. -/
lemma find?_sortByRate {rows : List CsvRow} {product : List Char} {rate : ℤ}
    (hne : repeats rows product rate ≠ []) :
    (sortByRate (entries rows product)).find? (fun d => rateOf d = rate)
      = some (averaged (repeats rows product rate)) := by
  have hmem : averaged (repeats rows product rate) ∈ sortByRate (entries rows product) :=
    List.mem_mergeSort.mpr (mem_entries.mpr ⟨rate, hne, rfl⟩)
  obtain ⟨d, hd⟩ := Option.isSome_iff_exists.mp
    (List.find?_isSome (p := fun d => decide (rateOf d = rate)).mpr
      ⟨_, hmem, decide_eq_true (rateOf_averaged hne)⟩)
  obtain ⟨rate', hne', rfl⟩ := mem_entries.mp (List.mem_mergeSort.mp (List.mem_of_find?_eq_some hd))
  have hrate := List.find?_some hd
  rw [decide_eq_true_eq, rateOf_averaged hne'] at hrate
  rw [hd, hrate]

lemma rates_perm {rows rows' : List CsvRow} (h : rows.Perm rows') (product : List Char) :
    rates rows product = rates rows' product :=
  mergeSort_eq_of_perm ((h.filter _).map _).dedup

/-! ## The order of the rows -/

/-- The same dictionary. -/
def SameColumns (d d' : Columns) : Prop := ∀ k, d.lookup k = d'.lookup k

/-- The same products, each with the same entries. -/
def SameData (D D' : Dataset) : Prop :=
  ∀ product, Option.Rel (List.Forall₂ SameColumns) (D.lookup product) (D'.lookup product)

/-- Each product has one entry for each of its rates, in ascending order. -/
def Shaped (rows : List CsvRow) (D : Dataset) : Prop :=
  ∀ product, (D.lookup product).map (fun ds => ds.map rateOf)
    = if rates rows product = [] then none else some (rates rows product)

/-- The rows in another order: the aggregation fails for both or gives the same dataset. -/
def OrderIndependent (rows : List CsvRow) : Prop :=
  ∀ rows', rows'.Perm rows →
    (aggregate rows = none ∧ aggregate rows' = none) ∨
      ∃ D D', aggregate rows = some D ∧ aggregate rows' = some D' ∧ SameData D D' ∧ Shaped rows D

/-- Repeats of one run: rows that share a product and a rate. -/
def CsvRow.RepeatOf (r r' : CsvRow) : Prop := r.product = r'.product ∧ r.rate = r'.rate

instance (r r' : CsvRow) : Decidable (r.RepeatOf r') :=
  inferInstanceAs (Decidable (r.product = r'.product ∧ r.rate = r'.rate))

/-- All repeats of a run have the same integer columns. -/
def Uniform (rows : List CsvRow) : Prop :=
  ∀ r ∈ rows, ∀ r' ∈ rows, r.RepeatOf r' → names (columns r) ⊆ names (columns r')

/-- The row has no integer column that a repeat of it lacks. -/
def Least (rows : List CsvRow) (r : CsvRow) : Prop :=
  ∀ r' ∈ rows, r.RepeatOf r' → names (columns r) ⊆ names (columns r')

instance (rows : List CsvRow) : DecidablePred (Least rows) := fun r =>
  inferInstanceAs (Decidable (∀ r' ∈ rows, r.RepeatOf r' →
    ∀ ⦃k⦄, k ∈ names (columns r) → k ∈ names (columns r')))

section Order

variable {rows rows' : List CsvRow}

lemma repeats_ne_nil {r : CsvRow} (hr : r ∈ rows) : repeats rows r.product r.rate ≠ [] :=
  List.ne_nil_of_mem (mem_repeats.mpr ⟨r, hr, rfl, rfl, rfl⟩)

/-- The columns of an entry are those of a row. -/
lemma exists_first {r : CsvRow} (hr : r ∈ rows) :
    ∃ first ∈ rows, first.RepeatOf r ∧
      (repeats rows r.product r.rate).headD [] = columns first := by
  obtain ⟨first, hmem, hproduct, hrate, hfirst⟩ := mem_repeats.mp (headD_mem (repeats_ne_nil hr))
  exact ⟨first, hmem, ⟨hproduct, hrate⟩, hfirst.symm⟩

/-- The average of a run is there when the row that comes first is a least one. -/
lemma complete_iff {r first : CsvRow} (hfirst : first.RepeatOf r)
    (hhead : (repeats rows r.product r.rate).headD [] = columns first) :
    Complete (repeats rows r.product r.rate) ↔ Least rows first := by
  rw [Complete, hhead]
  constructor
  · intro h r' hr' hrepeat k hk
    exact h k hk _ (mem_repeats.mpr
      ⟨r', hr', hrepeat.1.symm.trans hfirst.1, hrepeat.2.symm.trans hfirst.2, rfl⟩)
  · intro h k hk x hx
    obtain ⟨r', hr', hproduct, hrate, rfl⟩ := mem_repeats.mp hx
    exact h r' hr' ⟨hfirst.1.trans hproduct.symm, hfirst.2.trans hrate.symm⟩ hk

lemma Least.perm {r : CsvRow} (h : rows'.Perm rows) (hleast : Least rows r) : Least rows' r :=
  fun r' hr' => hleast r' (h.mem_iff.mp hr')

/-! ### Repeats with the same columns -/

lemma Uniform.perm (h : rows'.Perm rows) (huniform : Uniform rows) : Uniform rows' :=
  fun r hr r' hr' => huniform r (h.mem_iff.mp hr) r' (h.mem_iff.mp hr')

lemma Uniform.aggregate_eq (h : Uniform rows) : aggregate rows = some (dataset rows) := by
  rw [Sweep.aggregate_eq, if_pos]
  rintro ⟨⟨product, rate⟩, reps⟩ hmem
  obtain ⟨rfl, hne⟩ := mem_acc.mp hmem
  obtain ⟨r, hr, rfl, rfl, -⟩ := mem_repeats.mp (headD_mem hne)
  obtain ⟨first, hmem, hfirst, hhead⟩ := exists_first hr
  exact (complete_iff hfirst hhead).mpr (h first hmem)

lemma shaped_dataset (rows : List CsvRow) : Shaped rows (dataset rows) := by
  intro product
  rw [lookup_dataset, ← map_rateOf_sortByRate]
  have hnil : (sortByRate (entries rows product)).map rateOf = [] ↔ entries rows product = [] := by
    rw [List.map_eq_nil_iff, ← List.length_eq_zero_iff, sortByRate, List.length_mergeSort,
      List.length_eq_zero_iff]
  simp only [hnil]
  split_ifs <;> rfl

/-- Lists that agree in a key, with related elements at the same key. -/
lemma forall₂_of_map_eq {α : Type} {R : α → α → Prop} {f : α → ℤ} :
    ∀ {l l' : List α}, l.map f = l'.map f → (∀ a ∈ l, ∀ b ∈ l', f a = f b → R a b) →
      List.Forall₂ R l l'
  | [], [], _, _ => .nil
  | a :: l, b :: l', hmap, hrel => by
      obtain ⟨hab, hrest⟩ := List.cons.inj hmap
      refine .cons (hrel a (List.mem_cons_self ..) b (List.mem_cons_self ..) hab) ?_
      exact forall₂_of_map_eq hrest fun a ha b hb =>
        hrel a (List.mem_cons_of_mem _ ha) b (List.mem_cons_of_mem _ hb)

lemma Uniform.sameColumns (h : Uniform rows) (hperm : rows.Perm rows') {product : List Char}
    {rate : ℤ} (hne : repeats rows product rate ≠ []) :
    SameColumns (averaged (repeats rows product rate)) (averaged (repeats rows' product rate)) := by
  obtain ⟨r, hr, rfl, rfl, -⟩ := mem_repeats.mp (headD_mem hne)
  obtain ⟨first, hmem, hfirst, hhead⟩ := exists_first hr
  obtain ⟨first', hmem', hfirst', hhead'⟩ := exists_first (hperm.mem_iff.mp hr)
  have hrepeat : first.RepeatOf first' :=
    ⟨hfirst.1.trans hfirst'.1.symm, hfirst.2.trans hfirst'.2.symm⟩
  have hsame (k : Column) : k ∈ names (columns first) ↔ k ∈ names (columns first') :=
    ⟨fun hk => h first hmem first' (hperm.mem_iff.mpr hmem') hrepeat hk,
      fun hk => h first' (hperm.mem_iff.mpr hmem') first hmem
        ⟨hrepeat.1.symm, hrepeat.2.symm⟩ hk⟩
  intro k
  rw [lookup_averaged, lookup_averaged, hhead, hhead', mean_perm (repeats_perm hperm _ _)]
  exact if_congr (hsame k) rfl rfl

/-- **Every order gives the same dataset.** -/
theorem Uniform.sameData (h : Uniform rows) (hperm : rows.Perm rows') :
    SameData (dataset rows) (dataset rows') := by
  intro product
  have hrates : (sortByRate (entries rows product)).map rateOf
      = (sortByRate (entries rows' product)).map rateOf := by
    rw [map_rateOf_sortByRate, map_rateOf_sortByRate, rates_perm hperm]
  have hforall : List.Forall₂ SameColumns (sortByRate (entries rows product))
      (sortByRate (entries rows' product)) := by
    refine forall₂_of_map_eq hrates ?_
    intro d hd d' hd' hrate
    obtain ⟨rate, hne, rfl⟩ := mem_entries.mp (List.mem_mergeSort.mp hd)
    obtain ⟨rate', hne', rfl⟩ := mem_entries.mp (List.mem_mergeSort.mp hd')
    rw [rateOf_averaged hne, rateOf_averaged hne'] at hrate
    subst hrate
    exact h.sameColumns hperm hne
  have hlength := hforall.length_eq
  rw [sortByRate, sortByRate, List.length_mergeSort, List.length_mergeSort] at hlength
  rw [lookup_dataset, lookup_dataset]
  by_cases hnil : entries rows product = []
  · have hnil' : entries rows' product = [] := by
      rw [← List.length_eq_zero_iff, ← hlength, hnil, List.length_nil]
    rw [if_pos hnil, if_pos hnil']
    exact .none
  · have hnil' : entries rows' product ≠ [] := by
      rwa [Ne, ← List.length_eq_zero_iff, ← hlength, List.length_eq_zero_iff]
    rw [if_neg hnil, if_neg hnil']
    exact .some hforall

/-! ### Repeats with different columns -/

/-- Some run has no least repeat, so that none of its repeats can come first. -/
def Stuck (rows : List CsvRow) : Prop :=
  ∃ r ∈ rows, ∀ r' ∈ rows, r'.RepeatOf r → ¬ Least rows r'

lemma Stuck.perm (h : rows'.Perm rows) (hstuck : Stuck rows) : Stuck rows' := by
  obtain ⟨r, hr, hnone⟩ := hstuck
  refine ⟨r, h.mem_iff.mpr hr, ?_⟩
  intro r' hr' hrepeat hleast
  exact hnone r' (h.mem_iff.mp hr') hrepeat (hleast.perm h.symm)

lemma Stuck.aggregate_eq (h : Stuck rows) : aggregate rows = none := by
  obtain ⟨r, hr, hnone⟩ := h
  obtain ⟨first, hmem, hfirst, hhead⟩ := exists_first hr
  refine (aggregate_eq_none_iff rows).mpr ⟨r, hr, ?_⟩
  rw [complete_iff hfirst hhead]
  exact hnone first hmem hfirst

/-- In a list of two parts the first repeat is from the first part, where there is one. -/
lemma exists_first_append {front : List CsvRow} (back : List CsvRow) {r : CsvRow}
    (hr : r ∈ front) :
    ∃ first ∈ front, first.RepeatOf r ∧
      (repeats (front ++ back) r.product r.rate).headD [] = columns first := by
  obtain ⟨first, hmem, hfirst, hhead⟩ := exists_first hr
  refine ⟨first, hmem, hfirst, ?_⟩
  obtain ⟨c, reps, hreps⟩ := List.exists_cons_of_ne_nil (repeats_ne_nil hr)
  rw [hreps] at hhead
  rw [repeats_append, hreps]
  exact hhead

lemma filter_least_append_perm (rows : List CsvRow) :
    (rows.filter (fun r => Least rows r) ++ rows.filter fun r => ¬ Least rows r).Perm rows := by
  simpa using List.filter_append_perm (fun r => decide (Least rows r)) rows

/-- With the least repeats in front nothing is missing. -/
lemma aggregate_least_first (h : ¬ Stuck rows) :
    aggregate (rows.filter (fun r => Least rows r) ++ rows.filter fun r => ¬ Least rows r)
      ≠ none := by
  set front := rows.filter fun r => Least rows r with hfront
  set back := rows.filter fun r => ¬ Least rows r with hback
  have hperm : (front ++ back).Perm rows := filter_least_append_perm rows
  rw [Ne, aggregate_eq_none_iff]
  rintro ⟨r, hr, hnot⟩
  rw [Stuck] at h
  push Not at h
  obtain ⟨r', hr', hrepeat, hleast⟩ := h r (hperm.mem_iff.mp hr)
  have hmem : r' ∈ front := List.mem_filter.mpr ⟨hr', decide_eq_true hleast⟩
  obtain ⟨first, hfirst, hfirstRepeat, hhead⟩ := exists_first_append back hmem
  rw [← hrepeat.1, ← hrepeat.2, complete_iff hfirstRepeat hhead] at hnot
  exact hnot (Least.perm hperm (of_decide_eq_true (List.mem_filter.mp hfirst).2))

/-- With a repeat in front that is not a least one, a column is missing. -/
lemma aggregate_least_last (h : ¬ Uniform rows) :
    aggregate (rows.filter (fun r => ¬ Least rows r) ++ rows.filter fun r => Least rows r)
      = none := by
  set front := rows.filter fun r => ¬ Least rows r with hfront
  set back := rows.filter fun r => Least rows r with hback
  have hperm : (front ++ back).Perm rows :=
    List.perm_append_comm.trans (filter_least_append_perm rows)
  rw [Uniform] at h
  push Not at h
  obtain ⟨r, hr, r', hr', hrepeat, hnot⟩ := h
  have hmem : r ∈ front :=
    List.mem_filter.mpr ⟨hr, decide_eq_true fun hleast => hnot (hleast r' hr' hrepeat)⟩
  obtain ⟨first, hfirst, hfirstRepeat, hhead⟩ := exists_first_append back hmem
  refine (aggregate_eq_none_iff _).mpr ⟨r, List.mem_append_left _ hmem, ?_⟩
  rw [complete_iff hfirstRepeat hhead]
  intro hleast
  exact of_decide_eq_true (List.mem_filter.mp hfirst).2 (hleast.perm hperm.symm)

/-- **When the order makes no difference**: some run has no repeat whose integer columns all the
others have, so that the script fails whatever comes first, or the repeats of each run have the same
integer columns. -/
theorem orderIndependent_iff (rows : List CsvRow) :
    OrderIndependent rows ↔ Stuck rows ∨ Uniform rows := by
  constructor
  · intro h
    by_contra hnot
    rw [not_or] at hnot
    have hsome := aggregate_least_first hnot.1
    have hnone := aggregate_least_last hnot.2
    have hperm := filter_least_append_perm rows
    rcases h _ hperm with hfail | ⟨D, D', hD, -⟩
    · exact hsome hfail.2
    · rcases h _ (List.perm_append_comm.trans hperm) with hfail | ⟨_, _, _, hD', _⟩
      · rw [hfail.1] at hD
        cases hD
      · rw [hnone] at hD'
        cases hD'
  · rintro (hstuck | huniform) rows' hperm
    · exact .inl ⟨hstuck.aggregate_eq, (hstuck.perm hperm).aggregate_eq⟩
    · exact .inr ⟨_, _, huniform.aggregate_eq, (huniform.perm hperm).aggregate_eq,
        huniform.sameData hperm.symm, shaped_dataset rows⟩

end Order

/-! ### A run that was repeated after it had failed -/

/-- The cells of a row with these figures. -/
def ladderCells (achieved p50 : List Char) : List (Column × Option (List Char)) :=
  [(productColumn, some "braft".toList), (rateColumn, some "1000".toList),
    ("achieved".toList, some achieved), ("p50".toList, some p50)]

lemma nodup_ladderCells (achieved p50 : List Char) :
    ((ladderCells achieved p50).map Prod.fst).Nodup := by
  have hnames : [productColumn, rateColumn, "achieved".toList, "p50".toList].Nodup := by decide
  exact hnames

lemma rate_ladderCells (achieved p50 : List Char) :
    ((ladderCells achieved p50).lookup rateColumn).bind isint = some 1000 := by
  have hrate : isint (some "1000".toList) = some 1000 := by decide +kernel
  exact hrate

lemma product_ladderCells (achieved p50 : List Char) :
    (ladderCells achieved p50).lookup productColumn = some (some "braft".toList) := rfl

def ladderRow (achieved p50 : List Char) : CsvRow where
  cells := ladderCells achieved p50
  nodup := nodup_ladderCells achieved p50
  product := "braft".toList
  product_eq := product_ladderCells achieved p50
  rate := 1000
  rate_eq := rate_ladderCells achieved p50

/-- A run that answered nothing has no median.  In front of its repeat it leaves the median out of
the chart, behind it the script fails. -/
theorem dead_repeat_order :
    aggregate [ladderRow "998".toList "210".toList, ladderRow "0".toList []] = none ∧
      (aggregate [ladderRow "0".toList [], ladderRow "998".toList "210".toList]).isSome ∧
      ¬ OrderIndependent [ladderRow "998".toList "210".toList, ladderRow "0".toList []] := by
  have hnone : aggregate [ladderRow "998".toList "210".toList, ladderRow "0".toList []] = none := by
    rw [aggregate_eq, if_neg]
    decide +kernel
  have hsome :
      (aggregate [ladderRow "0".toList [], ladderRow "998".toList "210".toList]).isSome := by
    rw [aggregate_eq, if_pos]
    · rfl
    · decide +kernel
  refine ⟨hnone, hsome, fun h => ?_⟩
  rcases h _ (.swap _ _ _) with hfail | ⟨D, -, hD, -⟩
  · rw [hfail.2] at hsome
    cases hsome
  · rw [hnone] at hD
    cases hD

end RaftBench.Sweep

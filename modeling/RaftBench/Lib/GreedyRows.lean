import Mathlib.Data.List.Chain
import Mathlib.Data.List.Induction

/-!
# Filling rows greedily

Entries are put into rows one after another, and a new row is begun where the next entry does not
fit behind those of the current one.  Whether it fits may depend on all of them; the first entry of
a row is never asked.  Some entries (blanks, say) are dropped where a row would begin with them.

* `rows` — the rows of a list of entries, as the final state of a loop.
* `filter_flatten_rows` — nothing is lost or moved, but for dropped entries.
* `filled_of_mem_rows` — every entry behind the first of its row fits there.
* `isChain_rows` — the rows are greedy: what begins a row did not fit on the row before.

A loop that keeps less than the rows (a count, a pen position, the text so far) is an image of this
one: `foldl_image` gives its result once its step is seen to be the image of `place`.
-/

namespace GreedyRows

variable {β : Type*}

/-- The rows that are full, none of them empty, and the one that is being filled. -/
structure Filling (skip : β → Bool) where
  full : List (List β)
  row : List β
  ne_nil : ∀ r ∈ full, r ≠ []
  kept : ∀ b ∈ row.head?, skip b = false

section Loop

variable {skip : β → Bool}

/-- What a row begins with. -/
def first (skip : β → Bool) (b : β) : List β := if skip b then [] else [b]

lemma kept_first (b : β) : ∀ c ∈ (first skip b).head?, skip c = false := by
  intro c hc
  by_cases hb : skip b
  · simp [first, hb] at hc
  · obtain rfl : b = c := by simpa [first, hb] using hc
    simpa using hb

lemma kept_append {row : List β} (hrow : row ≠ []) (h : ∀ c ∈ row.head?, skip c = false) (b : β) :
    ∀ c ∈ (row ++ [b]).head?, skip c = false := by
  rwa [List.head?_append_of_ne_nil _ hrow]

lemma ne_nil_append {full : List (List β)} (h : ∀ r ∈ full, r ≠ []) {row : List β}
    (hrow : row ≠ []) : ∀ r ∈ full ++ [row], r ≠ [] := by
  simpa [or_imp, forall_and] using ⟨h, hrow⟩

lemma kept_nil : ∀ b ∈ ([] : List β).head?, skip b = false := nofun

/-- Before the first entry. -/
def Filling.empty : Filling skip := ⟨[], [], List.forall_mem_nil _, kept_nil⟩

variable (fits : List β → β → Prop) [∀ row b, Decidable (fits row b)]

/-- The next entry. -/
def place (s : Filling skip) (b : β) : Filling skip :=
  if hrow : s.row = [] then ⟨s.full, first skip b, s.ne_nil, kept_first b⟩
  else if fits s.row b then ⟨s.full, s.row ++ [b], s.ne_nil, kept_append hrow s.kept b⟩
  else ⟨s.full ++ [s.row], first skip b, ne_nil_append s.ne_nil hrow, kept_first b⟩

/-- All rows that have something on them. -/
def Filling.rows (s : Filling skip) : List (List β) :=
  if s.row = [] then s.full else s.full ++ [s.row]

/-- The entries on the rows, in order. -/
def Filling.placed (s : Filling skip) : List β := s.full.flatten ++ s.row

def fill (skip : β → Bool) (bs : List β) : Filling skip := bs.foldl (place fits) .empty

end Loop

/-- The rows of a list of entries. -/
def rows (fits : List β → β → Prop) [∀ row b, Decidable (fits row b)] (skip : β → Bool)
    (bs : List β) : List (List β) :=
  (fill fits skip bs).rows

/-! ## What rows are like -/

section Filled

variable {fits : List β → β → Prop}

/-- Every entry behind the first one fits behind those in front of it. -/
def Filled (fits : List β → β → Prop) (row : List β) : Prop :=
  ∀ front b, front ++ [b] <+: row → front ≠ [] → fits front b

lemma filled_first (skip : β → Bool) (b : β) : Filled fits (first skip b) := by
  intro front c hpre hfront
  have hlength : (front ++ [c]).length ≤ 1 := by
    refine hpre.length_le.trans ?_
    by_cases hb : skip b <;> simp [first, hb]
  rw [List.length_append, List.length_singleton] at hlength
  exact absurd (List.eq_nil_of_length_eq_zero (by omega)) hfront

lemma Filled.append {row : List β} {b : β} (h : Filled fits row) (hb : fits row b) :
    Filled fits (row ++ [b]) := by
  intro front c hpre hfront
  rcases List.prefix_concat_iff.mp hpre with heq | hpre
  · obtain ⟨rfl, hc⟩ := List.append_inj' heq rfl
    rwa [(List.cons.inj hc).1]
  · exact h front c hpre hfront

/-- What begins the next row did not fit on this one. -/
def Broken (fits : List β → β → Prop) (row next : List β) : Prop := ∀ b ∈ next.head?, ¬ fits row b

end Filled

section Rows

variable {skip : β → Bool} {fits : List β → β → Prop} [∀ row b, Decidable (fits row b)]

/-- What an entry does to the rows, by cases. -/
lemma place_cases (fits : List β → β → Prop) [∀ row b, Decidable (fits row b)]
    (s : Filling skip) (b : β) :
    s.row = [] ∧ (place fits s b).full = s.full ∧ (place fits s b).row = first skip b ∨
    s.row ≠ [] ∧ fits s.row b ∧ (place fits s b).full = s.full ∧
      (place fits s b).row = s.row ++ [b] ∨
    s.row ≠ [] ∧ ¬ fits s.row b ∧ (place fits s b).full = s.full ++ [s.row] ∧
      (place fits s b).row = first skip b := by
  by_cases hrow : s.row = []
  · exact .inl ⟨hrow, by rw [place, dif_pos hrow], by rw [place, dif_pos hrow]⟩
  · by_cases hfits : fits s.row b
    · refine .inr (.inl ⟨hrow, hfits, ?_, ?_⟩) <;> rw [place, dif_neg hrow, if_pos hfits]
    · refine .inr (.inr ⟨hrow, hfits, ?_, ?_⟩) <;> rw [place, dif_neg hrow, if_neg hfits]

lemma fill_concat (bs : List β) (b : β) :
    fill fits skip (bs ++ [b]) = place fits (fill fits skip bs) b := by
  rw [fill, List.foldl_append, fill]
  rfl

/-- **A loop that keeps an image of the rows** ends with the image of the rows. -/
theorem foldl_image {σ : Type*} {step : σ → β → σ} (f : Filling skip → σ)
    (h : ∀ s b, step (f s) b = f (place fits s b)) (bs : List β) :
    bs.foldl step (f .empty) = f (fill fits skip bs) :=
  List.foldl_hom f h

lemma flatten_rows (bs : List β) :
    (rows fits skip bs).flatten = (fill fits skip bs).placed := by
  rw [rows, Filling.rows, Filling.placed]
  split_ifs with hrow
  · rw [hrow, List.append_nil]
  · rw [List.flatten_concat]

lemma ne_nil_of_mem_rows {bs : List β} {row : List β} (h : row ∈ rows fits skip bs) : row ≠ [] := by
  rw [rows, Filling.rows] at h
  split_ifs at h with hrow
  · exact Filling.ne_nil _ row h
  · exact ne_nil_append (Filling.ne_nil _) hrow row h

/-! ## Nothing is lost -/

/-- An entry is put behind the others, or dropped where a row would begin with it. -/
lemma placed_place (fits : List β → β → Prop) [∀ row b, Decidable (fits row b)]
    (s : Filling skip) (b : β) :
    (place fits s b).placed = s.placed ++ [b] ∨
      (place fits s b).placed = s.placed ++ first skip b := by
  simp only [Filling.placed]
  obtain ⟨hrow, hfull, hrow'⟩ | ⟨-, -, hfull, hrow'⟩ | ⟨-, -, hfull, hrow'⟩ :=
    place_cases fits s b
  · rw [hfull, hrow', hrow, List.append_nil]
    exact .inr rfl
  · rw [hfull, hrow', List.append_assoc]
    exact .inl rfl
  · rw [hfull, hrow', List.flatten_concat]
    exact .inr rfl

lemma filter_first (b : β) : (first skip b).filter (!skip ·) = [b].filter (!skip ·) := by
  by_cases hb : skip b <;> simp [first, hb]

/-- **Nothing is lost**: the entries that may not be dropped are on the rows, in their order. -/
theorem filter_flatten_rows (bs : List β) :
    (rows fits skip bs).flatten.filter (!skip ·) = bs.filter (!skip ·) := by
  rw [flatten_rows]
  induction bs using List.reverseRecOn with
  | nil => rfl
  | append_singleton bs b ih =>
      rw [fill_concat, List.filter_append (p := (!skip ·)) bs, ← ih]
      rcases placed_place fits (fill fits skip bs) b with hplaced | hplaced
      · rw [hplaced, List.filter_append]
      · rw [hplaced, List.filter_append, filter_first]

lemma mem_of_mem_first {b c : β} (h : c ∈ first skip b) : c = b := by
  by_cases hb : skip b
  · simp [first, hb] at h
  · simpa [first, hb] using h

lemma mem_of_mem_rows {bs : List β} {b : β} (h : b ∈ (rows fits skip bs).flatten) : b ∈ bs := by
  rw [flatten_rows] at h
  induction bs using List.reverseRecOn with
  | nil => exact h
  | append_singleton bs c ih =>
      rw [fill_concat] at h
      rcases placed_place fits (fill fits skip bs) c with hplaced | hplaced
      · rw [hplaced, List.mem_append] at h
        exact List.mem_append.mpr (h.imp_left ih)
      · rw [hplaced, List.mem_append] at h
        exact List.mem_append.mpr
          (h.imp ih fun hb => List.mem_singleton.mpr (mem_of_mem_first hb))

/-- With no entry to drop, the rows are the entries. -/
lemma flatten_rows_of_forall {bs : List β} (h : ∀ b ∈ bs, skip b = false) :
    (rows fits skip bs).flatten = bs := by
  rw [flatten_rows]
  induction bs using List.reverseRecOn with
  | nil => rfl
  | append_singleton bs b ih =>
      have hb : first skip b = [b] := by simp [first, h b (by simp)]
      have hplaced := placed_place fits (fill fits skip bs) b
      rw [hb, or_self] at hplaced
      rw [fill_concat, hplaced, ih fun c hc => h c (by simp [hc])]

/-! ## Entries fit -/

/-- **Entries fit**: behind the first of its row, every entry does. -/
theorem filled_of_mem_rows {bs : List β} {row : List β} (h : row ∈ rows fits skip bs) :
    Filled fits row := by
  -- the rows so far, with the one that is being filled, also while it is empty
  suffices hall : ∀ r ∈ (fill fits skip bs).full ++ [(fill fits skip bs).row],
      Filled fits r by
    rw [rows, Filling.rows] at h
    split_ifs at h
    · exact hall row (List.mem_append_left _ h)
    · exact hall row h
  clear h
  induction bs using List.reverseRecOn with
  | nil => simp [fill, Filling.empty, Filled]
  | append_singleton bs b ih =>
      rw [List.forall_mem_append, List.forall_mem_singleton] at ih ⊢
      rw [fill_concat]
      obtain ⟨-, hfull, hrow'⟩ | ⟨-, hfits, hfull, hrow'⟩ | ⟨-, -, hfull, hrow'⟩ :=
        place_cases fits (fill fits skip bs) b
      · rw [hfull, hrow']
        exact ⟨ih.1, filled_first skip b⟩
      · rw [hfull, hrow']
        exact ⟨ih.1, ih.2.append hfits⟩
      · rw [hfull, hrow', List.forall_mem_append, List.forall_mem_singleton]
        exact ⟨ih, filled_first skip b⟩

/-! ## Rows are greedy -/

/-- **Rows are greedy**, where no entry is dropped. -/
theorem isChain_rows {bs : List β} (h : ∀ b ∈ bs, skip b = false) :
    (rows fits skip bs).IsChain (Broken fits) := by
  -- a row that is being filled is empty only before the first entry
  suffices hall : ((fill fits skip bs).row = [] →
        (fill fits skip bs).full = []) ∧
      ((fill fits skip bs).full ++ [(fill fits skip bs).row]).IsChain
        (Broken fits) by
    rw [rows, Filling.rows]
    split_ifs with hrow
    · rw [hall.1 hrow]
      exact .nil
    · exact hall.2
  induction bs using List.reverseRecOn with
  | nil => exact ⟨fun _ => rfl, .singleton _⟩
  | append_singleton bs b ih =>
      have hb : first skip b = [b] := by simp [first, h b (by simp)]
      obtain ⟨hstart, hchain⟩ := ih fun c hc => h c (by simp [hc])
      rw [fill_concat]
      obtain ⟨hrow, hfull, hrow'⟩ | ⟨hrow, -, hfull, hrow'⟩ | ⟨hrow, hfits, hfull, hrow'⟩ :=
        place_cases fits (fill fits skip bs) b
      · rw [hfull, hrow', hstart hrow]
        exact ⟨fun _ => rfl, .singleton _⟩
      · rw [hfull, hrow']
        refine ⟨fun hnil => absurd hnil (by simp), ?_⟩
        rw [List.isChain_append] at hchain ⊢
        refine ⟨hchain.1, .singleton _, fun r hr next hnext => ?_⟩
        obtain rfl : next = _ := by simpa using hnext.symm
        rw [Broken, List.head?_append_of_ne_nil _ hrow]
        exact hchain.2.2 r hr _ rfl
      · rw [hfull, hrow', hb]
        refine ⟨fun hnil => absurd hnil (by simp), ?_⟩
        rw [List.isChain_append]
        refine ⟨hchain, .singleton _, fun r hr next hnext => ?_⟩
        obtain rfl : r = _ := by simpa using hr.symm
        obtain rfl : next = _ := by simpa using hnext.symm
        simpa [Broken] using hfits

end Rows

end GreedyRows

import RaftBench.Lib.GreedyRows

/-!
# Wrapping a subtitle

`wrap_sub` of `mkcharts.py` breaks a subtitle into lines of a budget of characters.  Its loop goes
through the pieces between single spaces, so two spaces in a row make an empty piece, and keeps the
line so far; that this is empty is its only sign that no word is on the line yet.

* `wrapSub` — the function.
* `wrapSub_eq` — its lines are the greedy rows of the pieces, joined; an empty piece is dropped
  where a line would begin with it.
* `wrapSub_faithful` — no word is lost, lines keep the budget, and a text without stray spaces is
  given back by its lines, which are greedy.
-/

namespace RaftBench.Sweep

open GreedyRows

/-- One turn of the loop: the lines so far, and `cur`. -/
def wrapStep (budget : ℕ) (s : List (List Char) × List Char) (w : List Char) :
    List (List Char) × List Char :=
  if s.2 ≠ [] ∧ budget < s.2.length + 1 + w.length then (s.1 ++ [s.2], w)
  else (s.1, if s.2 ≠ [] then s.2 ++ ' ' :: w else w)

/-- `wrap_sub`. -/
def wrapSub (text : List Char) (budget : ℕ) : List (List Char) :=
  let s := (text.splitOn ' ').foldl (wrapStep budget) ([], [])
  if s.2 ≠ [] then s.1 ++ [s.2] else s.1

/-- The words of a text. -/
def words (text : List Char) : List (List Char) := (text.splitOn ' ').filter (!·.isEmpty)

/-! ## Lines as rows of words -/

/-- `" ".join`. -/
def unwords (ws : List (List Char)) : List Char := [' '].intercalate ws

lemma unwords_append {ws vs : List (List Char)} (hws : ws ≠ []) (hvs : vs ≠ []) :
    unwords (ws ++ vs) = unwords ws ++ ' ' :: unwords vs := by
  induction ws with
  | nil => exact absurd rfl hws
  | cons w ws ih =>
      cases ws with
      | nil => simp [unwords, List.intercalate_cons_of_ne_nil hvs]
      | cons u ws =>
          have ih := ih (List.cons_ne_nil u ws)
          simp only [unwords, List.cons_append, List.intercalate_cons_cons] at ih ⊢
          simp [ih]

lemma unwords_concat {ws : List (List Char)} (hws : ws ≠ []) (w : List Char) :
    unwords (ws ++ [w]) = unwords ws ++ ' ' :: w := by
  rw [unwords_append hws (List.cons_ne_nil w [])]
  simp [unwords]

/-- The word can be put behind the others. -/
def FitsLine (budget : ℕ) (row : List (List Char)) (w : List Char) : Prop :=
  (unwords row).length + 1 + w.length ≤ budget

instance (budget : ℕ) (row : List (List Char)) (w : List Char) :
    Decidable (FitsLine budget row w) :=
  inferInstanceAs (Decidable (_ ≤ _))

/-- The state of the loop that has filled these rows. -/
def lineState (s : Filling (List.isEmpty (α := Char))) : List (List Char) × List Char :=
  (s.full.map unwords, unwords s.row)

lemma unwords_eq_nil_iff {row : List (List Char)} (h : ∀ w ∈ row.head?, w.isEmpty = false) :
    unwords row = [] ↔ row = [] := by
  cases row with
  | nil => simp [unwords]
  | cons w ws =>
      obtain ⟨c, cs, rfl⟩ : ∃ c cs, w = c :: cs :=
        List.exists_cons_of_ne_nil (by simpa using h w rfl)
      simp [unwords]

lemma unwords_first (w : List Char) : unwords (first List.isEmpty w) = w := by
  cases w <;> simp [first, unwords]

/-- The loop keeps the text of the row where the rows keep its words. -/
lemma wrapStep_lineState (budget : ℕ) (s : Filling (List.isEmpty (α := Char))) (w : List Char) :
    wrapStep budget (lineState s) w = lineState (place (FitsLine budget) s w) := by
  have hempty : (lineState s).2 = [] ↔ s.row = [] := unwords_eq_nil_iff s.kept
  obtain ⟨hrow, hfull, hrow'⟩ | ⟨hrow, hfits, hfull, hrow'⟩ | ⟨hrow, hfits, hfull, hrow'⟩ :=
    place_cases (FitsLine budget) s w
  · have hcur : (lineState s).2 = [] := hempty.mpr hrow
    rw [wrapStep, if_neg fun h => h.1 hcur, if_neg fun h => h hcur, lineState, lineState, hfull,
      hrow', unwords_first]
  · have hcur : (lineState s).2 ≠ [] := fun h => hrow (hempty.mp h)
    rw [wrapStep, if_neg fun h => absurd hfits (not_le.mpr h.2), if_pos hcur, lineState, lineState,
      hfull, hrow', unwords_concat hrow]
  · have hcur : (lineState s).2 ≠ [] := fun h => hrow (hempty.mp h)
    rw [wrapStep, if_pos ⟨hcur, not_le.mp hfits⟩, lineState, lineState, hfull, hrow',
      unwords_first, List.map_append]
    rfl

/-- The pieces of a text, in rows. -/
def lineRows (text : List Char) (budget : ℕ) : List (List (List Char)) :=
  rows (FitsLine budget) List.isEmpty (text.splitOn ' ')

/-- **The lines are the rows, joined.** -/
lemma wrapSub_eq (text : List Char) (budget : ℕ) :
    wrapSub text budget = (lineRows text budget).map unwords := by
  have hloop : (text.splitOn ' ').foldl (wrapStep budget) ([], []) =
      lineState (fill (FitsLine budget) List.isEmpty (text.splitOn ' ')) :=
    foldl_image lineState (wrapStep_lineState budget) (text.splitOn ' ')
  simp only [wrapSub, hloop, lineRows, rows, Filling.rows]
  have hempty := unwords_eq_nil_iff
    (Filling.kept (fill (FitsLine budget) List.isEmpty (text.splitOn ' ')))
  split_ifs with hcur hrow hrow
  · exact absurd (hempty.mpr hrow) hcur
  · rw [List.map_append]
    rfl
  · rfl
  · exact absurd (hempty.mp (not_not.mp hcur)) hrow

/-! ## What the lines are like -/

section Lines

variable {text : List Char} {budget : ℕ}

lemma notMem_of_mem_splitOn {w : List Char} (h : w ∈ text.splitOn ' ') : ' ' ∉ w := by
  induction text generalizing w with
  | nil => simp_all
  | cons c text ih =>
      obtain ⟨v, vs, hvs⟩ := List.exists_cons_of_ne_nil (List.splitOn_ne_nil ' ' text)
      rw [List.splitOn_cons_eq_if_modifyHead] at h
      split_ifs at h with hc
      · rcases List.mem_cons.mp h with rfl | hw
        · simp
        · exact ih hw
      · rw [hvs, List.modifyHead_cons] at h
        rcases List.mem_cons.mp h with rfl | hw
        · have hv : ' ' ∉ v := ih (by simp [hvs])
          rw [List.mem_cons, not_or]
          exact ⟨fun hspace => hc (beq_iff_eq.mpr hspace.symm), hv⟩
        · exact ih (by simp [hvs, hw])

lemma mem_splitOn_of_mem_row {row : List (List Char)} (hrow : row ∈ lineRows text budget)
    {w : List Char} (hw : w ∈ row) : w ∈ text.splitOn ' ' :=
  mem_of_mem_rows (List.mem_flatten.mpr ⟨row, hrow, hw⟩)

/-- The pieces of a line are those of its row. -/
lemma splitOn_unwords {row : List (List Char)} (h : row ∈ lineRows text budget) :
    (unwords row).splitOn ' ' = row :=
  List.splitOn_intercalate ' '
    (fun _ hw => notMem_of_mem_splitOn (mem_splitOn_of_mem_row h hw)) (ne_nil_of_mem_rows h)

/-- No word is lost. -/
lemma words_wrapSub (text : List Char) (budget : ℕ) :
    (wrapSub text budget).flatMap words = words text := by
  have hrows : (lineRows text budget).map (words ∘ unwords) =
      (lineRows text budget).map (List.filter (!·.isEmpty)) := by
    refine List.map_congr_left fun row hrow => ?_
    rw [Function.comp_apply, words, splitOn_unwords hrow]
  calc (wrapSub text budget).flatMap words
      = ((lineRows text budget).map (words ∘ unwords)).flatten := by
        rw [wrapSub_eq, List.flatMap, List.map_map]
    _ = (lineRows text budget).flatten.filter (!·.isEmpty) := by
        rw [hrows, List.filter_flatten]
    _ = words text := filter_flatten_rows (text.splitOn ' ')

/-- A line keeps the budget, or is a single word. -/
lemma length_le_or_notMem {line : List Char} (h : line ∈ wrapSub text budget) :
    line.length ≤ budget ∨ ' ' ∉ line := by
  rw [wrapSub_eq] at h
  obtain ⟨row, hrow, rfl⟩ := List.mem_map.mp h
  obtain ⟨front, w, rfl⟩ : ∃ front w, row = front ++ [w] :=
    ⟨_, _, (List.dropLast_append_getLast (ne_nil_of_mem_rows hrow)).symm⟩
  by_cases hfront : front = []
  · right
    subst hfront
    simpa [unwords] using notMem_of_mem_splitOn (mem_splitOn_of_mem_row hrow (by simp))
  · left
    have hfits : FitsLine budget front w :=
      filled_of_mem_rows hrow front w (List.prefix_rfl) hfront
    rw [unwords_concat hfront]
    simpa [FitsLine, Nat.add_assoc, Nat.add_comm 1] using hfits

/-! ## Texts without stray spaces -/

/-- No leading, trailing or doubled space. -/
structure SingleSpaced (text : List Char) : Prop where
  leading : text.head? ≠ some ' '
  trailing : text.getLast? ≠ some ' '
  doubled : ¬ [' ', ' '] <:+: text

/-- No piece is empty. -/
lemma SingleSpaced.isEmpty_eq_false (h : SingleSpaced text) (htext : text ≠ []) :
    ∀ w ∈ text.splitOn ' ', w.isEmpty = false := by
  intro w hw
  rw [List.isEmpty_eq_false_iff]
  rintro rfl
  obtain ⟨front, back, hsplit⟩ := List.append_of_mem hw
  have hjoin : unwords (front ++ [] :: back) = text := by
    rw [← hsplit]
    exact List.intercalate_splitOn ' '
  by_cases hfront : front = []
  · by_cases hback : back = []
    · exact htext (by simpa [hfront, hback, unwords] using hjoin.symm)
    · refine h.leading ?_
      rw [← hjoin, hfront, List.nil_append, unwords, List.intercalate_cons_of_ne_nil hback]
      rfl
  · by_cases hback : back = []
    · refine h.trailing ?_
      rw [← hjoin, hback, unwords_concat hfront]
      simp
    · refine h.doubled ⟨unwords front, unwords back, ?_⟩
      rw [← hjoin, unwords_append hfront (List.cons_ne_nil _ _)]
      simp [unwords, List.intercalate_cons_of_ne_nil hback]

/-- Joining the lines of some rows joins all that is on them. -/
lemma unwords_map_unwords {rows : List (List (List Char))} (h : ∀ row ∈ rows, row ≠ []) :
    unwords (rows.map unwords) = unwords rows.flatten := by
  induction rows with
  | nil => rfl
  | cons row rows ih =>
      obtain ⟨hrow, hrows⟩ := List.forall_mem_cons.mp h
      by_cases hnil : rows = []
      · simp [hnil, unwords]
      · have hflatten : rows.flatten ≠ [] := by
          obtain ⟨r, rs, rfl⟩ := List.exists_cons_of_ne_nil hnil
          simp [hrows r (by simp)]
        rw [List.map_cons, List.flatten_cons, unwords_append hrow hflatten, ← ih hrows]
        simp [unwords, List.intercalate_cons_of_ne_nil, hnil]

lemma wrapSub_nil (budget : ℕ) : wrapSub [] budget = [] := rfl

/-- The lines give the text back. -/
lemma SingleSpaced.unwords_wrapSub (h : SingleSpaced text) (budget : ℕ) :
    unwords (wrapSub text budget) = text := by
  by_cases htext : text = []
  · rw [htext, wrapSub_nil]
    rfl
  · have hflatten : (lineRows text budget).flatten = text.splitOn ' ' :=
      flatten_rows_of_forall (h.isEmpty_eq_false htext)
    have hrows : ∀ row ∈ lineRows text budget, row ≠ [] := fun row hrow => ne_nil_of_mem_rows hrow
    rw [wrapSub_eq, unwords_map_unwords hrows, hflatten]
    exact List.intercalate_splitOn ' '

/-- The first word of `next` would not have fitted on `line`, with a space. -/
def BrokenLine (budget : ℕ) (line next : List Char) : Prop :=
  ∀ w ∈ (next.splitOn ' ').head?, budget < line.length + 1 + w.length

lemma SingleSpaced.isChain_wrapSub (h : SingleSpaced text) (budget : ℕ) :
    (wrapSub text budget).IsChain (BrokenLine budget) := by
  by_cases htext : text = []
  · rw [htext, wrapSub_nil]
    exact .nil
  · have hchain : (lineRows text budget).IsChain (Broken (FitsLine budget)) :=
      isChain_rows (h.isEmpty_eq_false htext)
    rw [wrapSub_eq, List.isChain_map]
    refine hchain.imp_of_mem_imp fun row next _ hnext hbroken => ?_
    rw [BrokenLine, splitOn_unwords hnext]
    exact fun w hw => not_le.mp (hbroken w hw)

end Lines

/-- **The wrap is faithful and greedy.**  No word is lost or moved; a line keeps the budget or is a
single word; and a text without stray spaces is given back by joining its lines, each of which
begins with a word that did not fit on the line before. -/
theorem wrapSub_faithful (text : List Char) (budget : ℕ) :
    (wrapSub text budget).flatMap words = words text ∧
      (∀ line ∈ wrapSub text budget, line.length ≤ budget ∨ ' ' ∉ line) ∧
      (SingleSpaced text →
        unwords (wrapSub text budget) = text ∧
          (wrapSub text budget).IsChain (BrokenLine budget)) :=
  ⟨words_wrapSub text budget, fun _ hline => length_le_or_notMem hline,
    fun h => ⟨h.unwords_wrapSub budget, h.isChain_wrapSub budget⟩⟩

/-- A subtitle on two lines. -/
theorem wrapSub_two_lines :
    wrapSub "At 100k: relay 700 µs.".toList 14 = ["At 100k: relay".toList, "700 µs.".toList] ∧
      unwords (wrapSub "At 100k: relay 700 µs.".toList 14) = "At 100k: relay 700 µs.".toList ∧
      (wrapSub "At 100k: relay 700 µs.".toList 14).IsChain (BrokenLine 14) :=
  ⟨by decide, (wrapSub_faithful _ 14).2.2 ⟨by decide, by decide, by decide +kernel⟩⟩

end RaftBench.Sweep

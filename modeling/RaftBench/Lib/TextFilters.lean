import Mathlib.Data.List.DropRight
import Mathlib.Data.List.Infix
import Mathlib.Data.List.MinMax

/-!
# Line filters

The part of `grep`, `awk`, `tail` and `tr` that a shell script uses to pick a figure out of a log,
on lists of characters.

* `lines` — the lines of a text, without their newlines.
* `Piece` — a pattern is a sequence of single characters, each from a class and each once or
  repeatedly.  `Matches` is what it matches, `rests` finds every way to match the beginning of a
  text, and `mem_rests` connects the two.
* `selects` is `grep` on one line, `only` is `grep -o`.
* `fieldsBy` — the fields of a line as `awk` splits it; `fieldsBy_spaced` computes them for a line
  that is given by its words.
-/

namespace TextFilters

abbrev Text := List Char

/-! ## Lines -/

/-- The lines of a text; a newline at the very end ends the last line. -/
def lines : Text → List Text
  | [] => []
  | c :: t =>
      if c = '\n' then [] :: lines t
      else
        match lines t with
        | [] => [[c]]
        | l :: ls => (c :: l) :: ls

lemma lines_line {l : Text} (h : '\n' ∉ l) (t : Text) : lines (l ++ '\n' :: t) = l :: lines t := by
  induction l with
  | nil => simp [lines]
  | cons c l ih =>
      rw [List.mem_cons, not_or] at h
      rw [List.cons_append, lines, if_neg (Ne.symm h.1), ih h.2]

/-- A text that is printed line by line. -/
lemma lines_flatMap {ls : List Text} (h : ∀ l ∈ ls, '\n' ∉ l) :
    lines (ls.flatMap fun l => l ++ ['\n']) = ls := by
  induction ls with
  | nil => rfl
  | cons l ls ih =>
      obtain ⟨hl, hls⟩ := List.forall_mem_cons.mp h
      rw [List.flatMap_cons, List.append_assoc, List.singleton_append, lines_line hl, ih hls]

/-! ## Patterns -/

/-- `[[:space:]]` in the C locale. -/
def isSpaceChar (c : Char) : Bool := c ∈ [' ', '\t', '\n', '\x0b', '\x0c', '\r']

/-- A character from a class, once or repeatedly (`+`). -/
inductive Piece where
  | one (p : Char → Bool)
  | plus (p : Char → Bool)

/-- The pattern that matches a text and nothing else. -/
def literal (s : Text) : List Piece := s.map fun c => .one (· == c)

/-- What a pattern matches. -/
def Matches : List Piece → Text → Prop
  | [], m => m = []
  | .one p :: ps, m => ∃ c m', m = c :: m' ∧ p c = true ∧ Matches ps m'
  | .plus p :: ps, m =>
      ∃ run m', m = run ++ m' ∧ run ≠ [] ∧ (∀ c ∈ run, p c = true) ∧ Matches ps m'

/-- What is left of a text behind a match at its beginning, for every such match. -/
def rests : List Piece → Text → List Text
  | [], t => [t]
  | .one _ :: _, [] => []
  | .one p :: ps, c :: t => if p c then rests ps t else []
  | .plus _ :: _, [] => []
  | .plus p :: ps, c :: t => if p c then rests ps t ++ rests (.plus p :: ps) t else []

/-- **The matcher finds every match and no other.** -/
theorem mem_rests {ps : List Piece} {t r : Text} :
    r ∈ rests ps t ↔ ∃ m, Matches ps m ∧ t = m ++ r := by
  fun_induction rests ps t with
  | case1 t =>
      simp only [List.mem_singleton, Matches]
      exact ⟨fun h => ⟨[], rfl, h.symm⟩, fun ⟨m, hm, h⟩ => by simp [h, hm]⟩
  | case2 p ps =>
      simp only [List.not_mem_nil, Matches, false_iff]
      rintro ⟨m, ⟨c, m', rfl, -⟩, h⟩
      simp at h
  | case3 p ps c t hp ih =>
      rw [ih]
      constructor
      · rintro ⟨m, hm, rfl⟩
        exact ⟨c :: m, ⟨c, m, rfl, hp, hm⟩, rfl⟩
      · rintro ⟨m, ⟨c', m', rfl, -, hm⟩, h⟩
        exact ⟨m', hm, (List.cons.inj h).2⟩
  | case4 p ps c t hp =>
      simp only [List.not_mem_nil, Matches, false_iff]
      rintro ⟨m, ⟨c', m', rfl, hp', -⟩, h⟩
      exact hp ((List.cons.inj h).1 ▸ hp')
  | case5 p ps =>
      simp only [List.not_mem_nil, Matches, false_iff]
      rintro ⟨m, ⟨run, m', rfl, hrun, -⟩, h⟩
      simp [hrun] at h
  | case6 p ps c t hp ih₁ ih₂ =>
      rw [List.mem_append, ih₁, ih₂]
      constructor
      · -- the run ends here, or goes on
        rintro (⟨m, hm, rfl⟩ | ⟨m, ⟨run, m', rfl, hrun, hp', hm⟩, rfl⟩)
        · exact ⟨c :: m, ⟨[c], m, rfl, by simp, by simpa using hp, hm⟩, rfl⟩
        · exact ⟨c :: (run ++ m'), ⟨c :: run, m', rfl, by simp, by simpa using ⟨hp, hp'⟩, hm⟩, rfl⟩
      · rintro ⟨m, ⟨run, m', rfl, hrun, hp', hm⟩, h⟩
        obtain ⟨d, run, rfl⟩ := List.exists_cons_of_ne_nil hrun
        obtain ⟨rfl, rfl⟩ := List.cons.inj h
        by_cases hnil : run = []
        · subst hnil
          exact .inl ⟨m', hm, rfl⟩
        · have hp'' : ∀ c ∈ run, p c = true := fun c hc => hp' c (List.mem_cons_of_mem _ hc)
          exact .inr ⟨run ++ m', ⟨run, m', rfl, hnil, hp'', hm⟩, rfl⟩
  | case7 p ps c t hp =>
      simp only [List.not_mem_nil, Matches, false_iff]
      rintro ⟨m, ⟨run, m', rfl, hrun, hp', -⟩, h⟩
      obtain ⟨d, run, rfl⟩ := List.exists_cons_of_ne_nil hrun
      exact hp ((List.cons.inj h).1 ▸ hp' d (List.mem_cons_self ..))

lemma matches_literal_append {s : Text} {ps : List Piece} {m : Text} :
    Matches (literal s ++ ps) m ↔ ∃ m', m = s ++ m' ∧ Matches ps m' := by
  induction s generalizing m with
  | nil => simp [literal]
  | cons c s ih =>
      simp only [literal, List.map_cons, List.cons_append, Matches, beq_iff_eq]
      constructor
      · rintro ⟨c', m', rfl, rfl, hm⟩
        obtain ⟨m'', rfl, hm''⟩ := ih.mp hm
        exact ⟨m'', rfl, hm''⟩
      · rintro ⟨m', rfl, hm⟩
        exact ⟨c, s ++ m', rfl, rfl, ih.mpr ⟨m', rfl, hm⟩⟩

lemma ne_nil_of_matches {p : Piece} {ps : List Piece} {m : Text} (h : Matches (p :: ps) m) :
    m ≠ [] := by
  cases p with
  | one p =>
      obtain ⟨c, m', rfl, -⟩ := h
      simp
  | plus p =>
      obtain ⟨run, m', rfl, hrun, -⟩ := h
      simp [hrun]

/-! ## grep -/

/-- A pattern with an optional `$` behind it. -/
structure Pattern where
  pieces : List Piece
  atEnd : Bool := false

/-- `grep` selects the line: the pattern matches somewhere in it. -/
def selects (pat : Pattern) (line : Text) : Bool :=
  line.tails.any fun t => (rests pat.pieces t).any fun r => !pat.atEnd || r.isEmpty

lemma selects_iff {pat : Pattern} {line : Text} :
    selects pat line = true ↔ ∃ pre m post, line = pre ++ (m ++ post) ∧ Matches pat.pieces m ∧
      (pat.atEnd = true → post = []) := by
  simp only [selects, List.any_eq_true, List.mem_tails, mem_rests, Bool.or_eq_true,
    Bool.not_eq_true', List.isEmpty_iff]
  constructor
  · rintro ⟨t, ⟨pre, rfl⟩, r, ⟨m, hm, rfl⟩, hend⟩
    refine ⟨pre, m, r, rfl, hm, ?_⟩
    intro hat
    rcases hend with hend | hend
    · rw [hat] at hend
      cases hend
    · exact hend
  · rintro ⟨pre, m, post, rfl, hm, hend⟩
    refine ⟨m ++ post, ⟨pre, rfl⟩, post, ⟨m, hm, rfl⟩, ?_⟩
    cases hat : pat.atEnd with
    | false => exact .inl rfl
    | true => exact .inr (hend hat)

def grep (pat : Pattern) (ls : List Text) : List Text := ls.filter (selects pat)

/-- The longest of the matches at one place leaves the least behind it. -/
def longest (rs : List Text) : Option Text := rs.argmin List.length

/-- `grep -o` on one line: go through it, print the longest match where there is one and go on
behind it.  The fuel is the length of the line. -/
def onlyWithin (ps : List Piece) : ℕ → Text → List Text
  | 0, _ => []
  | _ + 1, [] => []
  | n + 1, c :: t =>
      match longest (rests ps (c :: t)) with
      | some r => (c :: t).take ((c :: t).length - r.length) :: onlyWithin ps n r
      | none => onlyWithin ps n t

def only (ps : List Piece) (line : Text) : List Text := onlyWithin ps line.length line

/-- A match of a pattern with a piece in it takes something away. -/
lemma length_lt_of_mem_rests {p : Piece} {ps : List Piece} {t r : Text}
    (h : r ∈ rests (p :: ps) t) : r.length < t.length := by
  obtain ⟨m, hm, rfl⟩ := mem_rests.mp h
  have hpos := List.length_pos_of_ne_nil (ne_nil_of_matches hm)
  rw [List.length_append]
  omega

/-- Fuel beyond the length of the line makes no difference. -/
lemma onlyWithin_congr {p : Piece} {ps : List Piece} {n n' : ℕ} {t : Text} (h : t.length ≤ n)
    (h' : t.length ≤ n') : onlyWithin (p :: ps) n t = onlyWithin (p :: ps) n' t := by
  induction n generalizing n' t with
  | zero =>
      obtain rfl := List.length_eq_zero_iff.mp (Nat.le_zero.mp h)
      cases n' <;> rfl
  | succ n ih =>
      cases t with
      | nil => cases n' <;> rfl
      | cons c t =>
          rw [List.length_cons] at h h'
          obtain ⟨n', rfl⟩ : ∃ k, n' = k + 1 := ⟨n' - 1, by omega⟩
          rw [onlyWithin, onlyWithin]
          cases hmatch : longest (rests (p :: ps) (c :: t)) with
          | none => exact ih (by omega) (by omega)
          | some r =>
              have hlt := length_lt_of_mem_rests (List.argmin_mem hmatch)
              rw [List.length_cons] at hlt
              have hrest : onlyWithin (p :: ps) n r = onlyWithin (p :: ps) n' r :=
                ih (by omega) (by omega)
              simp only [hrest]

section Only

variable {p : Piece} {ps : List Piece} {c : Char} {t r : Text}

lemma only_nil : only (p :: ps) [] = [] := rfl

lemma only_skip (h : rests (p :: ps) (c :: t) = []) :
    only (p :: ps) (c :: t) = only (p :: ps) t := by
  rw [only, List.length_cons, onlyWithin, h]
  rfl

/-- A stretch of characters none of which begins a match. -/
lemma only_skip_append {s : Text} (h : ∀ c ∈ s, ∀ t, rests (p :: ps) (c :: t) = []) (t : Text) :
    only (p :: ps) (s ++ t) = only (p :: ps) t := by
  induction s with
  | nil => rfl
  | cons c s ih =>
      obtain ⟨hc, hs⟩ := List.forall_mem_cons.mp h
      rw [List.cons_append, only_skip (hc _), ih hs]

lemma only_match (h : longest (rests (p :: ps) t) = some r) :
    only (p :: ps) t = t.take (t.length - r.length) :: only (p :: ps) r := by
  have hlt := length_lt_of_mem_rests (List.argmin_mem h)
  cases t with
  | nil => simp at hlt
  | cons c t =>
      rw [List.length_cons] at hlt
      rw [only, List.length_cons, onlyWithin, h]
      simp only [List.length_cons, only, onlyWithin_congr (t := r) (Nat.lt_succ_iff.mp hlt) le_rfl]

/-- The longest match of a pattern that ends with a run takes the whole run. -/
lemma longest_run {q : Char → Bool} {s run : Text} (hrun : run ≠ []) (hq : ∀ c ∈ run, q c = true)
    (hrest : ∀ c ∈ t.head?, q c = false) :
    longest (rests (literal s ++ [.plus q]) (s ++ (run ++ t))) = some t := by
  have hmem : t ∈ rests (literal s ++ [.plus q]) (s ++ (run ++ t)) := by
    refine mem_rests.mpr ⟨s ++ run, ?_, by rw [List.append_assoc]⟩
    exact matches_literal_append.mpr ⟨run, rfl, run, [], by simp, hrun, hq, rfl⟩
  obtain ⟨r, hr⟩ : ∃ r, longest (rests (literal s ++ [.plus q]) (s ++ (run ++ t))) = some r := by
    refine Option.ne_none_iff_exists'.mp ?_
    rw [longest, Ne, List.argmin_eq_none]
    exact List.ne_nil_of_mem hmem
  -- another match ends inside the run, so what it leaves begins with the rest of the run
  obtain ⟨m, hm, hsplit⟩ := mem_rests.mp (List.argmin_mem hr)
  obtain ⟨run', rfl, run'', m', rfl, hrun'', hq'', rfl⟩ := matches_literal_append.mp hm
  rw [List.append_nil, List.append_assoc, List.append_cancel_left_eq] at hsplit
  have hle : r.length ≤ t.length := List.le_of_mem_argmin hmem hr
  obtain ⟨u, rfl, hu⟩ | ⟨u, rfl, hu⟩ := List.append_eq_append_iff.mp hsplit
  · cases u with
    | nil => rw [hr, hu, List.nil_append]
    | cons c u =>
        have hc : q c = true := hq'' c (by simp)
        rw [hrest c (by rw [hu]; rfl)] at hc
        cases hc
  · have hlength := congrArg List.length hu
    rw [List.length_append] at hlength
    obtain rfl := List.length_eq_zero_iff.mp (by omega : u.length = 0)
    rw [hr, hu, List.nil_append]

/-- `grep -o` prints the match with the whole run and goes on behind it. -/
lemma only_run {q : Char → Bool} {s run : Text} (hrun : run ≠ []) (hq : ∀ c ∈ run, q c = true)
    (hrest : ∀ c ∈ t.head?, q c = false) :
    only (literal s ++ [.plus q]) (s ++ (run ++ t))
      = (s ++ run) :: only (literal s ++ [.plus q]) t := by
  have hlongest := longest_run (s := s) hrun hq hrest
  obtain ⟨p, ps, hps⟩ : ∃ p ps, literal s ++ [.plus q] = p :: ps :=
    List.exists_cons_of_ne_nil (by simp)
  rw [hps] at hlongest ⊢
  rw [only_match hlongest, ← List.append_assoc, List.length_append, Nat.add_sub_cancel_right,
    List.take_left]

end Only

/-! ## Fields -/

/-- The maximal stretches without a separator. -/
def fieldsBy (sep : Char → Bool) (line : Text) : List Text :=
  (line.splitOnP sep).filter (· ≠ [])

/-- What `awk` separates fields by. -/
def isBlank (c : Char) : Bool := c == ' ' || c == '\t'

/-- `$n` of a line, counting from 1; an absent field is empty. -/
def field (n : ℕ) (line : Text) : Text := (fieldsBy isBlank line)[n - 1]?.getD []

/-- `$NF` of a line, which is the line itself where it has no field. -/
def lastField (line : Text) : Text := (fieldsBy isBlank line).getLast?.getD line

section Fields

variable {sep : Char → Bool}

/-- A separator splits the fields. -/
lemma fieldsBy_append_cons {c : Char} (hc : sep c = true) (s t : Text) :
    fieldsBy sep (s ++ c :: t) = fieldsBy sep s ++ fieldsBy sep t := by
  rw [fieldsBy, List.splitOnP_append_cons _ _ hc, List.filter_append]
  rfl

@[simp] lemma fieldsBy_nil : fieldsBy sep [] = [] := by
  simp [fieldsBy]

lemma fieldsBy_cons {c : Char} (hc : sep c = true) (t : Text) :
    fieldsBy sep (c :: t) = fieldsBy sep t := by
  have h := fieldsBy_append_cons hc [] t
  rwa [fieldsBy_nil, List.nil_append, List.nil_append] at h

/-- Separators in front of a text make no difference. -/
lemma fieldsBy_append_of_all {s : Text} (h : ∀ c ∈ s, sep c = true) (t : Text) :
    fieldsBy sep (s ++ t) = fieldsBy sep t := by
  induction s with
  | nil => rfl
  | cons c s ih =>
      obtain ⟨hc, hs⟩ := List.forall_mem_cons.mp h
      rw [List.cons_append, fieldsBy_cons hc, ih hs]

/-- A field: something without a separator in it. -/
def IsField (sep : Char → Bool) (w : Text) : Prop := w ≠ [] ∧ ∀ c ∈ w, sep c = false

lemma IsField.fieldsBy_eq {w : Text} (h : IsField sep w) : fieldsBy sep w = [w] := by
  rw [fieldsBy, List.splitOnP_eq_singleton h.2]
  simp [h.1]

/-- By going through the text, and not through all characters there are. -/
instance (w : Text) : Decidable (IsField sep w) :=
  decidable_of_iff (w ≠ [] ∧ (w.all fun c => !sep c) = true) (by simp [IsField])

lemma IsField.cons {c : Char} {w : Text} (hc : sep c = false) (h : ∀ d ∈ w, sep d = false) :
    IsField sep (c :: w) := ⟨List.cons_ne_nil c w, List.forall_mem_cons.mpr ⟨hc, h⟩⟩

lemma IsField.append {v w : Text} (h : IsField sep v) (hw : ∀ c ∈ w, sep c = false) :
    IsField sep (v ++ w) := by
  refine ⟨by simp [h.1], ?_⟩
  intro c hc
  rcases List.mem_append.mp hc with hc | hc
  · exact h.2 c hc
  · exact hw c hc

lemma IsField.of_digits {w : Text} (hsep : ∀ c, c.isDigit = true → sep c = false) (hne : w ≠ [])
    (h : ∀ c ∈ w, c.isDigit = true) : IsField sep w := ⟨hne, fun c hc => hsep c (h c hc)⟩

/-- A text that ends with a field: its last field ends with it. -/
lemma IsField.fieldsBy_append {w : Text} (h : IsField sep w) (s : Text) :
    ∃ fs a, fieldsBy sep (s ++ w) = fs ++ [a ++ w] := by
  set q : Char → Bool := fun c => !sep c with hq
  have hfield : IsField sep (s.rtakeWhile q ++ w) := by
    refine ⟨by simp [h.1], ?_⟩
    intro c hc
    rcases List.mem_append.mp hc with hc | hc
    · simpa [hq] using List.mem_rtakeWhile_imp hc
    · exact h.2 c hc
  have hsplit : s = s.rdropWhile q ++ s.rtakeWhile q := (List.rdropWhile_append_rtakeWhile ..).symm
  rcases List.eq_nil_or_concat (s.rdropWhile q) with hnil | ⟨r, c, hr⟩
  · rw [hnil, List.nil_append] at hsplit
    refine ⟨[], s.rtakeWhile q, ?_⟩
    nth_rewrite 1 [hsplit]
    rw [hfield.fieldsBy_eq, List.nil_append]
  · have hne : s.rdropWhile q ≠ [] := by simp [hr]
    have hlast : (s.rdropWhile q).getLast hne = c := by
      rw [List.getLast_eq_iff_getLast?_eq_some, hr]
      simp
    have hc : sep c = true := by
      have hnot := List.rdropWhile_last_not q s hne
      rw [hlast] at hnot
      simpa [hq] using hnot
    refine ⟨fieldsBy sep r, s.rtakeWhile q, ?_⟩
    nth_rewrite 1 [hsplit]
    rw [hr, List.concat_eq_append, List.append_assoc, List.append_assoc, List.singleton_append,
      fieldsBy_append_cons hc, hfield.fieldsBy_eq]

/-- A text that begins with a field: its first field begins with it. -/
lemma IsField.append_fieldsBy {w : Text} (h : IsField sep w) (t : Text) :
    ∃ b fs, fieldsBy sep (w ++ t) = (w ++ b) :: fs := by
  set q : Char → Bool := fun c => !sep c with hq
  have hfield : IsField sep (w ++ t.takeWhile q) := by
    refine h.append ?_
    intro c hc
    simpa [hq] using List.mem_takeWhile_imp hc
  have hsplit : t = t.takeWhile q ++ t.dropWhile q := (List.takeWhile_append_dropWhile ..).symm
  cases hrest : t.dropWhile q with
  | nil =>
      rw [hrest, List.append_nil] at hsplit
      refine ⟨t.takeWhile q, [], ?_⟩
      nth_rewrite 1 [hsplit]
      rw [hfield.fieldsBy_eq]
  | cons c r =>
      have hne : t.dropWhile q ≠ [] := by simp [hrest]
      have hhead : (t.dropWhile q).head hne = c := by
        rw [List.head_eq_iff_head?_eq_some, hrest]
        rfl
      have hc : sep c = true := by
        have hnot := List.head_dropWhile_not q hne
        rw [hhead] at hnot
        simpa [hq] using hnot
      refine ⟨t.takeWhile q, fieldsBy sep r, ?_⟩
      nth_rewrite 1 [hsplit]
      rw [hrest, ← List.append_assoc, fieldsBy_append_cons hc, hfield.fieldsBy_eq]
      rfl

/-- A line given by its words, each with the number of blanks in front of it. -/
def spaced (words : List (ℕ × Text)) : Text :=
  words.flatMap fun w => List.replicate w.1 ' ' ++ w.2

/-- A line at one of the blanks in front of a word. -/
lemma spaced_append_cons (words : List (ℕ × Text)) (n : ℕ) (w : Text) (words' : List (ℕ × Text)) :
    spaced (words ++ (n + 1, w) :: words') = spaced words ++ ' ' :: spaced ((n, w) :: words') := by
  simp [spaced, List.replicate_succ]

/-- Every word is a field and is set off from the one before it. -/
structure WellSpaced (sep : Char → Bool) (words : List (ℕ × Text)) : Prop where
  fields : ∀ w ∈ words, IsField sep w.2
  gaps : ∀ w ∈ words.tail, 0 < w.1

lemma WellSpaced.tail {w : ℕ × Text} {words : List (ℕ × Text)} (h : WellSpaced sep (w :: words)) :
    WellSpaced sep words :=
  ⟨fun v hv => h.fields v (List.mem_cons_of_mem w hv),
    fun v hv => h.gaps v (List.mem_of_mem_tail hv)⟩

lemma WellSpaced.append {words words' : List (ℕ × Text)} (h : WellSpaced sep words)
    (hne : words ≠ []) (hfields : ∀ w ∈ words', IsField sep w.2) (hgaps : ∀ w ∈ words', 0 < w.1) :
    WellSpaced sep (words ++ words') := by
  refine ⟨?_, ?_⟩
  · intro w hw
    rcases List.mem_append.mp hw with hw | hw
    · exact h.fields w hw
    · exact hfields w hw
  · rw [List.tail_append_of_ne_nil hne]
    intro w hw
    rcases List.mem_append.mp hw with hw | hw
    · exact h.gaps w hw
    · exact hgaps w hw

lemma WellSpaced.mono {sep' : Char → Bool} {words : List (ℕ × Text)} (h : WellSpaced sep words)
    (himp : ∀ c, sep c = false → sep' c = false) : WellSpaced sep' words :=
  ⟨fun w hw => ⟨(h.fields w hw).1, fun c hc => himp c ((h.fields w hw).2 c hc)⟩, h.gaps⟩

/-- Blanks apart, a line has no separator in it. -/
lemma WellSpaced.notMem {words : List (ℕ × Text)} (h : WellSpaced sep words) {c : Char}
    (hc : sep c = true) (hblank : c ≠ ' ') : c ∉ spaced words := by
  intro hmem
  obtain ⟨w, hw, hcw⟩ := List.mem_flatMap.mp hmem
  rcases List.mem_append.mp hcw with hcw | hcw
  · exact hblank (List.eq_of_mem_replicate hcw)
  · rw [(h.fields w hw).2 c hcw] at hc
    cases hc

/-- **The fields of a line are its words.** -/
theorem fieldsBy_spaced (hblank : sep ' ' = true) {words : List (ℕ × Text)}
    (h : WellSpaced sep words) : fieldsBy sep (spaced words) = words.map Prod.snd := by
  induction words with
  | nil => simp [spaced]
  | cons w words ih =>
      have hrest := ih h.tail
      have hlead : ∀ c ∈ List.replicate w.1 ' ', sep c = true := by
        intro c hc
        rw [List.eq_of_mem_replicate hc, hblank]
      have hw := (h.fields w (List.mem_cons_self ..)).fieldsBy_eq
      rw [spaced, List.flatMap_cons, ← spaced, List.append_assoc, fieldsBy_append_of_all hlead,
        List.map_cons]
      cases words with
      | nil => simpa [spaced] using hw
      | cons v words =>
          obtain ⟨k, hk⟩ : ∃ k, v.1 = k + 1 := by
            have := h.gaps v (List.mem_cons_self ..)
            exact ⟨v.1 - 1, by omega⟩
          have hv : spaced (v :: words)
              = ' ' :: (List.replicate k ' ' ++ v.2 ++ spaced words) := by
            rw [spaced, List.flatMap_cons, ← spaced, hk]
            rfl
          rw [hv, fieldsBy_cons hblank] at hrest
          rw [hv, fieldsBy_append_cons hblank, hw, hrest]
          rfl

end Fields

/-! ## The other filters -/

/-- `tail -1`. -/
def tail1 (ls : List Text) : List Text := ls.getLast?.toList

/-- `tr -d`, for one character. -/
def trDelete (c : Char) (line : Text) : Text := line.filter (· ≠ c)

/-- What `$(…)` makes of the lines a pipeline prints. -/
def capture (ls : List Text) : Text := ['\n'].intercalate ls

@[simp] lemma capture_singleton (l : Text) : capture [l] = l := by
  simp [capture]

lemma trDelete_of_notMem {c : Char} {line : Text} (h : c ∉ line) : trDelete c line = line := by
  rw [trDelete, List.filter_eq_self]
  intro d hd
  have hne : d ≠ c := by
    rintro rfl
    exact h hd
  simpa using hne

end TextFilters

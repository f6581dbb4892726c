import Mathlib.Data.List.Chain
import RaftBench.Braft.PrintSummary

/-!
# Reading the summary back

A sweep does not get its figures from the generator but from the generator's log, through `grep`
and `awk`.  `sweep.sh` takes the percentiles from the lines that end with a label and a number, and
all three scripts take the schedule lag from the line that has `schedule lag` in it: `sweep.sh` and
`sweep-multi.sh` by the `p50 …` they find there, `sweep-gen.sh` by the number of the field.

* `grep_pct` — which line the label of a percentile selects, and that none is selected when the
  lines end with a carriage return, which the pattern does not expect before `$`.
* `grep_lag` — the lag line is the only one of its kind.
* `logText_never_readsBack` — what each script gets.  The field `sweep-gen.sh` counts to is the word
  `p99`.
-/

namespace RaftBench.Sweep

open Decimal TextFilters Braft

/-! ## The scripts -/

/-- `[[:space:]]LABEL[[:space:]]+[0-9]+$`. -/
def pctPattern (label : Text) : Pattern where
  pieces := .one isSpaceChar :: (literal label ++ [.plus isSpaceChar, .plus Char.isDigit])
  atEnd := true

/-- `pct` of `sweep.sh`. -/
def pct (log label : Text) : Text :=
  capture (((tail1 (grep (pctPattern label) (lines log))).map lastField).map (trDelete '\r'))

/-- `grep 'schedule lag'`. -/
def lagPattern : Pattern where
  pieces := literal "schedule lag".toList

/-- `p50 [0-9]+`. -/
def lagFigure : List Piece := literal "p50 ".toList ++ [.plus Char.isDigit]

/-- `grep 'schedule lag' | grep -oE 'p50 [0-9]+' | awk '{print $2}'`. -/
def lagByFigure (log : Text) : Text :=
  capture (((grep lagPattern (lines log)).flatMap (only lagFigure)).map (field 2))

/-- The lag `sweep.sh` writes into its row. -/
def sweepLag (log : Text) : Text := lagByFigure log

/-- The lag `sweep-multi.sh` reads from the log of one client. -/
def sweepMultiLag (log : Text) : Text := lagByFigure log

/-- The lag `sweep-gen.sh` reads from the log of one generator. -/
def sweepGenLag (log : Text) : Text :=
  capture (((grep lagPattern (lines log)).map (field 6)).map (trDelete '\r'))

/-! ## What the pattern of a percentile selects -/

/-- A selected line, from the character in front of the label to its end. -/
lemma split_of_selects_pct {label line : Text} (h : selects (pctPattern label) line = true) :
    ∃ pre c b blanks ds, line = pre ++ c :: (label ++ b :: (blanks ++ ds)) ∧
      isSpaceChar c = true ∧ isSpaceChar b = true ∧ (∀ d ∈ blanks, isSpaceChar d = true) ∧
      ds ≠ [] ∧ ∀ d ∈ ds, d.isDigit = true := by
  obtain ⟨pre, m, post, rfl, hm, hend⟩ := selects_iff.mp h
  obtain rfl := hend rfl
  obtain ⟨c, m, rfl, hc, hm⟩ := hm
  obtain ⟨m, rfl, blanks, m', rfl, hblanks, hspace, ds, m'', rfl, hds, hdigits, rfl⟩ :=
    matches_literal_append.mp hm
  obtain ⟨b, blanks, rfl⟩ := List.exists_cons_of_ne_nil hblanks
  obtain ⟨hb, hspace⟩ := List.forall_mem_cons.mp hspace
  exact ⟨pre, c, b, blanks, ds, by simp, hc, hb, hspace, hds, hdigits⟩

/-- The last two fields of a selected line are the label and a number. -/
lemma fields_of_selects_pct {label line : Text} (hlabel : IsField isSpaceChar label)
    (h : selects (pctPattern label) line = true) :
    ∃ fs ds, fieldsBy isSpaceChar line = fs ++ [label, ds] ∧ ∀ c ∈ ds, c.isDigit = true := by
  obtain ⟨pre, c, b, blanks, ds, rfl, hc, hb, hspace, hds, hdigits⟩ := split_of_selects_pct h
  have hds' : IsField isSpaceChar ds := .of_digits (fun _ => isSpaceChar_of_isDigit) hds hdigits
  refine ⟨fieldsBy isSpaceChar pre, ds, ?_, hdigits⟩
  rw [fieldsBy_append_cons hc, fieldsBy_append_cons hb, hlabel.fieldsBy_eq,
    fieldsBy_append_of_all hspace, hds'.fieldsBy_eq]
  rfl

/-- A selected line ends with a digit. -/
lemma getLast_of_selects_pct {label line : Text} (h : selects (pctPattern label) line = true) :
    ∃ c, line.getLast? = some c ∧ c.isDigit = true := by
  obtain ⟨pre, c, b, blanks, ds, rfl, -, -, -, hds, hdigits⟩ := split_of_selects_pct h
  have hends : pre ++ c :: (label ++ b :: (blanks ++ ds))
      = (pre ++ c :: (label ++ b :: blanks)) ++ ds := by
    simp
  refine ⟨ds.getLast hds, ?_, hdigits _ (List.getLast_mem hds)⟩
  rw [hends, List.getLast?_append_of_ne_nil _ hds, List.getLast?_eq_some_getLast hds]

/-- A line whose last two words are a name and a number is selected by its own name only. -/
lemma selects_pct_row (words : List (ℕ × Text)) {g k n : ℕ} {name label : Text}
    (hlabel : IsField isSpaceChar label)
    (h : WellSpaced isSpaceChar (words ++ [(g + 1, name), natWord (k + 1) n])) :
    selects (pctPattern label) (spaced (words ++ [(g + 1, name), natWord (k + 1) n]))
      = decide (name = label) := by
  by_cases hname : name = label
  · subst hname
    rw [decide_eq_true rfl, selects_iff]
    refine ⟨spaced words ++ List.replicate g ' ',
      ' ' :: (name ++ (List.replicate (k + 1) ' ' ++ printNat n)), [], ?_, ?_, fun _ => rfl⟩
    · simp [spaced, natWord, List.replicate_succ']
    · refine ⟨' ', _, rfl, rfl, matches_literal_append.mpr ⟨_, rfl, _, _, rfl, by simp, ?_, ?_⟩⟩
      · intro c hc
        rw [List.eq_of_mem_replicate hc]
        rfl
      · exact ⟨printNat n, [], by simp, printNat_ne_nil n,
          fun c hc => isDigit_of_mem_printNat hc, rfl⟩
  · rw [decide_eq_false hname, Bool.eq_false_iff]
    intro hsel
    obtain ⟨fs, ds, hfs, -⟩ := fields_of_selects_pct hlabel hsel
    rw [fieldsBy_spaced rfl h, List.map_append] at hfs
    have hlast := (List.append_inj' hfs rfl).2
    exact hname (List.cons.inj hlast).1

/-- The labels `sweep.sh` asks for. -/
def pctLabels : List Text :=
  ["p50".toList, "p90".toList, "p99".toList, "p99.9".toList, "max".toList]

lemma isField_pctLabels : ∀ label ∈ pctLabels, IsField isSpaceChar label := by
  decide

/-- The words of a line do not end with one of the labels and a number. -/
def Silent (words : List (ℕ × Text)) : Prop :=
  ∀ fs x y, words.map Prod.snd = fs ++ [x, y] → x ∉ pctLabels ∨ ∃ c ∈ y, c.isDigit = false

lemma Silent.not_selects {words : List (ℕ × Text)} (h : Silent words)
    (hspaced : WellSpaced isSpaceChar words) {label : Text} (hlabel : label ∈ pctLabels) :
    selects (pctPattern label) (spaced words) = false := by
  rw [Bool.eq_false_iff]
  intro hsel
  obtain ⟨fs, ds, hfs, hdigits⟩ := fields_of_selects_pct (isField_pctLabels label hlabel) hsel
  rw [fieldsBy_spaced rfl hspaced] at hfs
  rcases h fs label ds hfs with hnot | ⟨c, hc, hcd⟩
  · exact hnot hlabel
  · rw [hdigits c hc] at hcd
    cases hcd

/-- Where the last two words stand, read off a line that is written out. -/
lemma silent_of_append (words : List (ℕ × Text)) {v w : ℕ × Text}
    (h : v.2 ∉ pctLabels ∨ ∃ c ∈ w.2, c.isDigit = false) : Silent (words ++ [v, w]) := by
  intro fs x y hfs
  rw [List.map_append] at hfs
  have hlast := (List.append_inj' hfs rfl).2
  simp only [List.map_cons, List.map_nil, List.cons.injEq, and_true] at hlast
  rw [← hlast.1, ← hlast.2]
  exact h

lemma exists_not_isDigit {w : Text} (h : w.all Char.isDigit = false) :
    ∃ c ∈ w, c.isDigit = false := by
  simpa [List.all_eq_false] using h

lemma silent_nil : Silent [] := by
  intro fs x y hfs
  simp at hfs

section Silent

variable (s : SummaryFigures)

lemma silent_head : ∀ words ∈ headWords s, Silent words := by
  have hparen (w : FlagWord) : ∃ c ∈ '(' :: (w.text ++ [')']), c.isDigit = false :=
    ⟨'(', List.mem_cons_self .., rfl⟩
  have hburst : ∃ c ∈ printNat s.burst ++ [')'], c.isDigit = false :=
    ⟨')', List.mem_append_right _ (List.mem_singleton_self _), rfl⟩
  simp only [headWords, List.forall_mem_cons]
  refine ⟨silent_nil, ?_, ?_, ?_, ?_, ?_, ?_, ?_, ?_, ?_, ?_, by simp⟩
  · exact silent_of_append [_] (.inl (by decide))
  · exact silent_of_append [] (.inl (by decide))
  · exact silent_of_append [_] (.inr (hparen s.conf))
  · exact silent_of_append [_, _, _, _] (.inr hburst)
  · exact silent_of_append [_] (.inl (by decide))
  · exact silent_of_append [_, _] (.inr (exists_not_isDigit rfl))
  · exact silent_of_append [] (.inl (by decide))
  · exact silent_of_append [_, _] (.inr (exists_not_isDigit rfl))
  · exact silent_of_append [] (.inl (by decide))
  · exact silent_of_append [] (.inl (by decide))

lemma silent_lag : Silent (lagWords s) :=
  silent_of_append [_, _, _, _, _, _, _, _, _, _, _, _, _, _, _, _, _, _, _] (.inl (by decide))

lemma silent_tail : ∀ words ∈ tailWords s, Silent words := by
  intro words hwords
  simp only [tailWords, List.mem_append, Option.mem_toList, Option.map_eq_some_iff] at hwords
  rcases hwords with (hwords | ⟨path, -, rfl⟩) | ⟨path, -, rfl⟩
  · split_ifs at hwords
    · simp only [List.mem_cons, List.not_mem_nil, or_false] at hwords
      rcases hwords with rfl | rfl | rfl
      · exact silent_nil
      · exact silent_of_append [_, _, _, _, _, _, _, _, _, _, _, _, _] (.inl (by decide))
      · exact silent_of_append [_, _, _, _, _, _, _] (.inl (by decide))
    · simp at hwords
  · exact silent_of_append [_] (.inl (by decide))
  · exact silent_of_append [_] (.inl (by decide))

lemma silent_progress (p : Progress) : Silent (progressWords s p) := by
  unfold progressWords
  split_ifs
  · have hlatency : ∃ c ∈ "latency=".toList ++ printNat p.latency, c.isDigit = false :=
      ⟨'l', List.mem_append_left _ (by decide), rfl⟩
    have hsplit := silent_of_append (p.stamp ++ [(1, "Sending".toList), (1, "Request".toList),
      (1, "to".toList), (1, s.group.text), (1, '(' :: (s.conf.text ++ [')'])), (1, "at".toList)])
      (v := (1, "qps=".toList ++ printNat p.qps))
      (w := (1, "latency=".toList ++ printNat p.latency)) (.inr hlatency)
    rwa [List.append_assoc] at hsplit
  · have hsplit := silent_of_append (p.stamp ++ [(1, "Sending".toList), (1, "Request".toList),
      (1, "to".toList), (1, s.group.text), (1, '(' :: (s.conf.text ++ [')'])), (1, "at".toList),
      (1, "qps=".toList ++ printNat p.qps)])
      (v := (1, "latency=".toList ++ printNat p.latency))
      (w := (1, "[warmup]".toList)) (.inr (exists_not_isDigit rfl))
    rwa [List.append_assoc] at hsplit

end Silent

/-! ### The selected line -/

/-- The figures the labels stand for. -/
def pctFigures (s : SummaryFigures) : List (Text × ℕ) :=
  [("p50".toList, s.p50), ("p90".toList, s.p90), ("p99".toList, s.p99), ("p99.9".toList, s.p999),
    ("max".toList, s.max)]

/-- Of the seven lines of figures, a label selects its own. -/
lemma filter_percentiles (s : SummaryFigures) :
    ∀ figure ∈ pctFigures s, ∃ words, (percentileWords s).filter
        (fun words => selects (pctPattern figure.1) (spaced words)) = [words] ∧
      words ∈ percentileWords s ∧ (words.map Prod.snd).getLast? = some (printNat figure.2) := by
  intro figure hfigure
  have hspaced := wellSpaced_percentiles s
  have hlabel : IsField isSpaceChar figure.1 := by
    refine isField_pctLabels figure.1 ?_
    exact List.mem_map_of_mem (f := Prod.fst) hfigure
  simp only [percentileWords, List.forall_mem_cons] at hspaced
  obtain ⟨h50, h90, h99, h999, h9999, hmax, hmean, -⟩ := hspaced
  have e50 := selects_pct_row [_, _] hlabel h50
  have e90 := selects_pct_row [] hlabel h90
  have e99 := selects_pct_row [] hlabel h99
  have e999 := selects_pct_row [] hlabel h999
  have e9999 := selects_pct_row [] hlabel h9999
  have emax := selects_pct_row [] hlabel hmax
  have emean := selects_pct_row [] hlabel hmean
  simp only [List.cons_append, List.nil_append] at e50 e90 e99 e999 e9999 emax emean
  simp only [percentileWords, List.filter_cons, List.filter_nil, e50, e90, e99, e999, e9999, emax,
    emean, decide_eq_true_eq]
  simp only [pctFigures, List.mem_cons, List.not_mem_nil, or_false] at hfigure
  rcases hfigure with rfl | rfl | rfl | rfl | rfl
  all_goals simp +decide only [if_true, if_false]
  all_goals exact ⟨_, rfl, by simp, rfl⟩

section Percentiles

variable (progress : List Progress) (s : SummaryFigures)

/-- Of lines none of which is selected, none is left. -/
lemma filter_selects_eq_nil {pat : Pattern} {line : List (ℕ × Text) → Text}
    {lines : List (List (ℕ × Text))} (h : ∀ words ∈ lines, selects pat (line words) = false) :
    lines.filter (fun words => selects pat (line words)) = [] := by
  refine List.filter_eq_nil_iff.mpr fun words hwords => ?_
  rw [h words hwords]
  exact Bool.false_ne_true

/-- With plain newlines a label selects the line of its figure and no other. -/
lemma grep_pct : ∀ figure ∈ pctFigures s, ∃ words,
    grep (pctPattern figure.1) (lines (logText .lf progress s)) = [spaced words] ∧
      WellSpaced isSpaceChar words ∧
      (words.map Prod.snd).getLast? = some (printNat figure.2) := by
  intro figure hfigure
  have hlabel : figure.1 ∈ pctLabels := List.mem_map_of_mem (f := Prod.fst) hfigure
  obtain ⟨words, hfilter, hwords, hlast⟩ := filter_percentiles s figure hfigure
  have hnone : ∀ lines : List (List (ℕ × Text)), (∀ words ∈ lines, Silent words) →
      (∀ words ∈ lines, WellSpaced isSpaceChar words) →
      lines.filter (fun words => selects (pctPattern figure.1) (spaced words)) = [] := by
    intro lines hsilent hspaced
    exact filter_selects_eq_nil fun words hwords =>
      (hsilent words hwords).not_selects (hspaced words hwords) hlabel
  have hprogress := hnone (progress.map (progressWords s))
    (List.forall_mem_map.mpr fun p _ => silent_progress s p)
    (List.forall_mem_map.mpr fun p _ => wellSpaced_progress s p)
  have hhead := hnone (headWords s) (silent_head s) (wellSpaced_head s)
  have hlag := hnone [lagWords s] (List.forall_mem_singleton.mpr (silent_lag s))
    (List.forall_mem_singleton.mpr (wellSpaced_lag s))
  have htail := hnone (tailWords s) (silent_tail s) (wellSpaced_tail s)
  refine ⟨words, ?_, wellSpaced_percentiles s words hwords, hlast⟩
  have hmap : (fun words => spaced words ++ LineEnd.lf.carriage) = spaced := by
    funext words
    exact List.append_nil _
  rw [lines_logText, hmap, grep, List.filter_map, logWords]
  simp only [Function.comp_def, List.filter_append, hprogress, hhead, hfilter, hlag, htail,
    List.nil_append, List.append_nil, List.map_cons, List.map_nil]

/-- Behind a carriage return the pattern finds no end of the line. -/
lemma grep_pct_crlf (label : Text) :
    grep (pctPattern label) (lines (logText .crlf progress s)) = [] := by
  rw [lines_logText, grep, List.filter_eq_nil_iff]
  intro line hline hsel
  obtain ⟨words, -, rfl⟩ := List.mem_map.mp hline
  obtain ⟨c, hc, hdigit⟩ := getLast_of_selects_pct hsel
  have hcr : (spaced words ++ LineEnd.crlf.carriage).getLast? = some '\r' :=
    List.getLast?_concat
  rw [hcr, Option.some.injEq] at hc
  subst hc
  cases hdigit

lemma isBlank_of_isSpaceChar {c : Char} (h : isSpaceChar c = false) : isBlank c = false := by
  rw [isSpaceChar, decide_eq_false_iff_not] at h
  simp only [List.mem_cons, List.not_mem_nil, or_false, not_or] at h
  simp [isBlank, h.1, h.2.1]

lemma notMem_printNat {c : Char} (hc : c.isDigit = false) (n : ℕ) : c ∉ printNat n := by
  intro h
  rw [isDigit_of_mem_printNat h] at hc
  cases hc

/-- **The percentiles**: read back from a log with plain newlines, lost from one without. -/
lemma pct_logText (eol : LineEnd) : ∀ figure ∈ pctFigures s,
    pct (logText eol progress s) figure.1 = if eol = .lf then printNat figure.2 else [] := by
  intro figure hfigure
  cases eol with
  | lf =>
      obtain ⟨words, hgrep, hspaced, hlast⟩ := grep_pct progress s figure hfigure
      have hfields := fieldsBy_spaced rfl (hspaced.mono fun c => isBlank_of_isSpaceChar)
      have hfield : lastField (spaced words) = printNat figure.2 := by
        rw [lastField, hfields, hlast, Option.getD_some]
      have hcr : '\r' ∉ printNat figure.2 := notMem_printNat rfl figure.2
      rw [if_pos rfl, pct, hgrep]
      simp only [tail1, List.getLast?_singleton, Option.toList_some, List.map_cons, List.map_nil,
        hfield, trDelete_of_notMem hcr, capture_singleton]
  | crlf =>
      rw [if_neg (by decide), pct, grep_pct_crlf]
      rfl

end Percentiles

/-! ## The lag line -/

/-- The words do not carry `schedule lag` from one to the next. -/
def Apart (a b : Text) : Prop := ¬ ("schedule".toList <:+ a ∧ "lag".toList <+: b)

lemma apart_left {a b : Text} (h : ¬ "schedule".toList <:+ a) : Apart a b := fun hab => h hab.1

lemma apart_right {a b : Text} (h : ¬ "lag".toList <+: b) : Apart a b := fun hab => h hab.2

/-- Where `schedule lag` is found, one field ends and the next begins with its words. -/
lemma fields_of_selects_lag {line : Text} (h : selects lagPattern line = true) :
    ∃ fs a b gs, fieldsBy isSpaceChar line
      = fs ++ (a ++ "schedule".toList) :: ("lag".toList ++ b) :: gs := by
  obtain ⟨pre, m, post, rfl, hm, -⟩ := selects_iff.mp h
  have hm' : m = "schedule lag".toList := by
    have hlit : Matches (literal "schedule lag".toList ++ []) m := by
      rw [List.append_nil]
      exact hm
    obtain ⟨m', rfl, rfl⟩ := matches_literal_append.mp hlit
    exact List.append_nil _
  subst hm'
  have hschedule : IsField isSpaceChar "schedule".toList := by decide
  have hlag : IsField isSpaceChar "lag".toList := by decide
  obtain ⟨fs, a, hfs⟩ := hschedule.fieldsBy_append pre
  obtain ⟨b, gs, hgs⟩ := hlag.append_fieldsBy post
  have hsplit : pre ++ ("schedule lag".toList ++ post)
      = (pre ++ "schedule".toList) ++ ' ' :: ("lag".toList ++ post) := by
    rw [List.append_assoc]
    rfl
  refine ⟨fs, a, b, gs, ?_⟩
  rw [hsplit, fieldsBy_append_cons rfl, hfs, hgs, List.append_assoc]
  rfl

lemma not_selects_lag {words : List (ℕ × Text)} (hspaced : WellSpaced isSpaceChar words)
    (h : (words.map Prod.snd).IsChain Apart) (eol : LineEnd) :
    selects lagPattern (spaced words ++ eol.carriage) = false := by
  rw [Bool.eq_false_iff]
  intro hsel
  obtain ⟨fs, a, b, gs, hfs⟩ := fields_of_selects_lag hsel
  have hfields : fieldsBy isSpaceChar (spaced words ++ eol.carriage) = words.map Prod.snd := by
    rw [← fieldsBy_spaced rfl hspaced]
    cases eol with
    | lf => exact congrArg _ (List.append_nil _)
    | crlf =>
        have hcr : isSpaceChar '\r' = true := rfl
        rw [LineEnd.carriage, fieldsBy_append_cons hcr, fieldsBy_nil, List.append_nil]
  rw [← hfields, hfs, List.isChain_append] at h
  have hab := (List.isChain_cons_cons.mp h.2.1).1
  exact hab ⟨List.suffix_append _ _, List.prefix_append _ _⟩

section Lag

variable (progress : List Progress) (s : SummaryFigures)

lemma apart_head : ∀ words ∈ headWords s, (words.map Prod.snd).IsChain Apart := by
  have hparen (a : Text) (w : FlagWord) : Apart a ('(' :: (w.text ++ [')'])) :=
    apart_right (by simp)
  intro words hwords
  simp only [headWords, List.mem_cons, List.not_mem_nil, or_false] at hwords
  rcases hwords with rfl | rfl | rfl | rfl | rfl | rfl | rfl | rfl | rfl | rfl | rfl
  all_goals
    simp only [natWord, List.map_cons, List.map_nil, List.isChain_cons_cons, List.isChain_nil,
      List.isChain_singleton, and_true]
  all_goals and_intros
  all_goals
    first
    | exact apart_left (by decide)
    | exact apart_right (by decide)
    | exact hparen _ _

lemma apart_percentiles : ∀ words ∈ percentileWords s, (words.map Prod.snd).IsChain Apart := by
  intro words hwords
  simp only [percentileWords, List.mem_cons, List.not_mem_nil, or_false] at hwords
  rcases hwords with rfl | rfl | rfl | rfl | rfl | rfl | rfl
  all_goals
    simp only [natWord, List.map_cons, List.map_nil, List.isChain_cons_cons,
      List.isChain_singleton, and_true]
  all_goals and_intros
  all_goals exact apart_left (by decide)

lemma apart_tail : ∀ words ∈ tailWords s, (words.map Prod.snd).IsChain Apart := by
  have hnumber (n : ℕ) (b : Text) : Apart (printNat n) b := by
    refine apart_left fun h => ?_
    exact notMem_printNat rfl n (h.subset (by decide : 's' ∈ "schedule".toList))
  intro words hwords
  simp only [tailWords, List.mem_append, Option.mem_toList, Option.map_eq_some_iff] at hwords
  rcases hwords with (hwords | ⟨path, -, rfl⟩) | ⟨path, -, rfl⟩
  · split_ifs at hwords
    · simp only [List.mem_cons, List.not_mem_nil, or_false] at hwords
      rcases hwords with rfl | rfl | rfl
      all_goals
        simp only [natWord, List.map_cons, List.map_nil, List.isChain_cons_cons, List.isChain_nil,
          List.isChain_singleton, and_true]
      all_goals and_intros
      all_goals
        first
        | exact hnumber _ _
        | exact apart_left (by decide)
    · simp at hwords
  all_goals
    simp only [List.map_cons, List.map_nil, List.isChain_cons_cons, List.isChain_singleton,
      and_true]
  all_goals exact ⟨apart_left (by decide), apart_left (by decide)⟩

lemma apart_progress (p : Progress) : ((progressWords s p).map Prod.snd).IsChain Apart := by
  have hstamp : ∀ a ∈ p.stamp.map Prod.snd, ∀ b, Apart a b := by
    intro a ha b
    obtain ⟨w, hw, rfl⟩ := List.mem_map.mp ha
    exact apart_left (p.stamp_label w hw)
  have hparen (a : Text) : Apart a ('(' :: (s.conf.text ++ [')'])) := apart_right (by simp)
  have hafter (b : Text) : Apart ('(' :: (s.conf.text ++ [')'])) b := by
    refine apart_left fun h => ?_
    have hlast := h.getLast (by decide)
    simp at hlast
  have hqps (b : Text) : Apart b ("qps=".toList ++ printNat p.qps) :=
    apart_right (by simp [List.cons_prefix_cons])
  have hlatency (b : Text) : Apart b ("latency=".toList ++ printNat p.latency) :=
    apart_right (by simp [List.cons_prefix_cons])
  rw [progressWords, List.map_append, List.isChain_append]
  refine ⟨?_, ?_, ?_⟩
  · exact (List.pairwise_of_forall_mem_list fun a ha b _ => hstamp a ha b).isChain
  · split_ifs
    all_goals
      simp only [List.map_cons, List.map_nil, List.cons_append, List.nil_append,
        List.append_nil, List.isChain_cons_cons, List.isChain_singleton, and_true]
    all_goals and_intros
    all_goals
      first
      | exact apart_left (by decide)
      | exact hparen _
      | exact hafter _
      | exact hqps _
      | exact hlatency _
      | exact apart_right (by decide)
  · intro a ha b _
    exact hstamp a (List.mem_of_getLast? ha) b

/-- The lag line from one `p` to the next. -/
lemma lagLine_split : ∃ rest, 'p' ∉ rest ∧
    lagLine s = "schedule lag".toList ++ (" us       ".toList ++ ("p50 ".toList ++
      (printNat s.lagP50 ++ ("  ".toList ++ 'p' :: '9' :: rest)))) := by
  have hlabel : "schedule lag us       p50 ".toList
      = "schedule lag".toList ++ (" us       ".toList ++ "p50 ".toList) := by decide
  have hp99 : "  p99 ".toList = "  ".toList ++ 'p' :: '9' :: "9 ".toList := by decide
  refine ⟨"9 ".toList ++ (printNat s.lagP99 ++ ("  max ".toList ++ (printNat s.lagMax ++
    lagRemark))), ?_, ?_⟩
  · simp only [List.mem_append, not_or]
    exact ⟨by decide, notMem_printNat rfl _, by decide, notMem_printNat rfl _, by decide⟩
  · unfold lagLine
    rw [hlabel, hp99]
    simp only [List.append_assoc, List.cons_append]

lemma selects_lagLine (eol : LineEnd) : selects lagPattern (lagLine s ++ eol.carriage) = true := by
  have hmatch : Matches (literal "schedule lag".toList ++ []) "schedule lag".toList :=
    matches_literal_append.mpr ⟨[], (List.append_nil _).symm, rfl⟩
  rw [List.append_nil] at hmatch
  obtain ⟨rest, -, hsplit⟩ := lagLine_split s
  have hline := (congrArg (· ++ eol.carriage) hsplit).trans (List.append_assoc _ _ _)
  exact selects_iff.mpr ⟨[], _, _, hline, hmatch, fun hat => by cases hat⟩

/-- **The lag line is the only one of its kind.** -/
lemma grep_lag (eol : LineEnd) :
    grep lagPattern (lines (logText eol progress s)) = [lagLine s ++ eol.carriage] := by
  have hnone : ∀ lines : List (List (ℕ × Text)),
      (∀ words ∈ lines, (words.map Prod.snd).IsChain Apart) →
      (∀ words ∈ lines, WellSpaced isSpaceChar words) →
      lines.filter (fun words => selects lagPattern (spaced words ++ eol.carriage)) = [] := by
    intro lines hapart hspaced
    exact filter_selects_eq_nil fun words hwords =>
      not_selects_lag (hspaced words hwords) (hapart words hwords) eol
  have hprogress := hnone (progress.map (progressWords s))
    (List.forall_mem_map.mpr fun p _ => apart_progress s p)
    (List.forall_mem_map.mpr fun p _ => wellSpaced_progress s p)
  have hhead := hnone (headWords s) (apart_head s) (wellSpaced_head s)
  have hpercentiles := hnone (percentileWords s) (apart_percentiles s) (wellSpaced_percentiles s)
  have htail := hnone (tailWords s) (apart_tail s) (wellSpaced_tail s)
  have hlag : selects lagPattern (spaced (lagWords s) ++ eol.carriage) = true := by
    rw [← lagLine_eq]
    exact selects_lagLine s eol
  rw [lines_logText, grep, List.filter_map, logWords]
  simp only [Function.comp_def, List.filter_append, hprogress, hhead, hpercentiles, htail,
    List.filter_cons, hlag, if_true, List.filter_nil, List.nil_append, List.append_nil,
    List.map_cons, List.map_nil, lagLine_eq]

/-! ### The figure in it -/

lemma lagFigure_cons :
    lagFigure = .one (· == 'p') :: (literal "50 ".toList ++ [.plus Char.isDigit]) := rfl

lemma rests_lagFigure {c : Char} (hc : c ≠ 'p') (t : Text) : rests lagFigure (c :: t) = [] := by
  rw [lagFigure_cons, rests, if_neg]
  simpa using hc

/-- `grep -oE` finds one figure in the lag line. -/
lemma only_lagFigure (eol : LineEnd) :
    only lagFigure (lagLine s ++ eol.carriage) = ["p50 ".toList ++ printNat s.lagP50] := by
  have hskip {t : Text} (ht : 'p' ∉ t) (u : Text) :
      only lagFigure (t ++ u) = only lagFigure u := by
    refine only_skip_append ?_ u
    intro c hc v
    refine rests_lagFigure ?_ v
    rintro rfl
    exact ht hc
  obtain ⟨rest, hrest, hsplit⟩ := lagLine_split s
  have hend : 'p' ∉ '9' :: (rest ++ eol.carriage) := by
    rw [List.mem_cons, List.mem_append, not_or, not_or]
    exact ⟨by decide, hrest, by cases eol <;> decide⟩
  have hnone : only lagFigure ("  ".toList ++ 'p' :: '9' :: (rest ++ eol.carriage)) = [] := by
    have hfirst : rests lagFigure ('p' :: '9' :: (rest ++ eol.carriage)) = [] := rfl
    have hnil := hskip hend []
    rw [List.append_nil] at hnil
    rw [hskip (by decide)]
    exact (only_skip hfirst).trans (hnil.trans only_nil)
  have hblank : ∀ c ∈ ("  ".toList ++ 'p' :: '9' :: (rest ++ eol.carriage)).head?,
      c.isDigit = false := by
    rintro c ⟨⟩
    rfl
  have hrun := only_run (s := "p50 ".toList) (printNat_ne_nil s.lagP50)
    (fun c hc => isDigit_of_mem_printNat hc) hblank
  rw [← lagFigure, hnone] at hrun
  rw [hsplit]
  simp only [List.append_assoc, List.cons_append]
  rw [hskip (by decide), hskip (by decide)]
  exact hrun

lemma field_lagFigure (n : ℕ) : field 2 ("p50 ".toList ++ printNat n) = printNat n := by
  have hspaced : WellSpaced isSpaceChar [(0, "p50".toList), natWord 1 n] := by
    refine ⟨?_, by simp [natWord]⟩
    simp +decide only [natWord, List.forall_mem_cons, isField_printNat, and_self]
  have hline : "p50 ".toList ++ printNat n = spaced [(0, "p50".toList), natWord 1 n] := by
    simp only [spaced, natWord, List.flatMap_cons, List.flatMap_nil, List.append_nil]
    rfl
  rw [hline, field, fieldsBy_spaced rfl (hspaced.mono fun c => isBlank_of_isSpaceChar)]
  rfl

/-- The sixth field of the lag line. -/
lemma field_lagLine (eol : LineEnd) : field 6 (lagLine s ++ eol.carriage) = "p99".toList := by
  have hspaced := (wellSpaced_lag s).mono fun c => isBlank_of_isSpaceChar
  have hsix : WellSpaced isBlank ((lagWords s).take 6) :=
    ⟨fun w hw => hspaced.fields w (List.mem_of_mem_take hw), by simp [lagWords, natWord]⟩
  have hwords : spaced (lagWords s)
      = spaced ((lagWords s).take 6 ++ natWord (0 + 1) s.lagP99 :: (lagWords s).drop 7) := rfl
  rw [lagLine_eq, hwords, natWord, spaced_append_cons, List.append_assoc, List.cons_append, field,
    fieldsBy_append_cons rfl, fieldsBy_spaced rfl hsix]
  rfl

/-- **The lag**: found by `sweep.sh` and `sweep-multi.sh`, and not what `sweep-gen.sh` finds. -/
lemma lag_logText (eol : LineEnd) :
    sweepLag (logText eol progress s) = printNat s.lagP50 ∧
      sweepMultiLag (logText eol progress s) = printNat s.lagP50 ∧
      sweepGenLag (logText eol progress s) = "p99".toList := by
  have hfigure : lagByFigure (logText eol progress s) = printNat s.lagP50 := by
    rw [lagByFigure, grep_lag, List.flatMap_singleton, only_lagFigure, List.map_singleton,
      field_lagFigure, capture_singleton]
  refine ⟨hfigure, hfigure, ?_⟩
  rw [sweepGenLag, grep_lag, List.map_singleton, field_lagLine, List.map_singleton,
    capture_singleton]
  decide

end Lag

/-! ## The whole log -/

/-- What the scripts should get from a log: the figures that were printed, and the same lag all
three of them. -/
structure ReadsBack (eol : LineEnd) (progress : List Progress) (s : SummaryFigures) : Prop where
  percentiles : ∀ figure ∈ pctFigures s,
    pct (logText eol progress s) figure.1 = printNat figure.2
  sweep_lag : sweepLag (logText eol progress s) = printNat s.lagP50
  sweepMulti_lag : sweepMultiLag (logText eol progress s) = printNat s.lagP50
  sweepGen_lag : sweepGenLag (logText eol progress s) = printNat s.lagP50
  same_lag : sweepLag (logText eol progress s) = sweepMultiLag (logText eol progress s) ∧
    sweepMultiLag (logText eol progress s) = sweepGenLag (logText eol progress s)

/-- **No log is read back.**  The percentiles are, exactly when the lines end with a plain newline;
the lag is by two of the scripts, and the third always gets the word `p99`. -/
theorem logText_never_readsBack (eol : LineEnd) (progress : List Progress) (s : SummaryFigures) :
    ((∀ figure ∈ pctFigures s, pct (logText eol progress s) figure.1 = printNat figure.2) ↔
        eol = .lf) ∧
      sweepLag (logText eol progress s) = printNat s.lagP50 ∧
      sweepMultiLag (logText eol progress s) = printNat s.lagP50 ∧
      sweepGenLag (logText eol progress s) = "p99".toList ∧
      ¬ ReadsBack eol progress s := by
  obtain ⟨hsweep, hmulti, hgen⟩ := lag_logText progress s eol
  refine ⟨?_, hsweep, hmulti, hgen, ?_⟩
  · constructor
    · intro h
      by_contra hcrlf
      have hmem : ("p50".toList, s.p50) ∈ pctFigures s := List.mem_cons_self ..
      have hp50 := pct_logText progress s eol _ hmem
      rw [h _ hmem, if_neg hcrlf] at hp50
      exact printNat_ne_nil s.p50 hp50
    · rintro rfl figure hfigure
      rw [pct_logText progress s .lf figure hfigure, if_pos rfl]
  · intro h
    have hp : 'p' ∈ printNat s.lagP50 := by
      rw [← h.sweepGen_lag, hgen]
      decide
    exact notMem_printNat rfl _ hp

lemma isField_atomic : IsField isSpaceChar "Atomic".toList := by decide

lemma isField_conf : IsField isSpaceChar "10.0.0.1:8100:0,10.0.0.2:8100:0".toList := by
  decide

/-- A run at a rate of 1000 with a lag of 12. -/
def ladderRun : SummaryFigures where
  group := ⟨"Atomic".toList, isField_atomic⟩
  conf := ⟨"10.0.0.1:8100:0,10.0.0.2:8100:0".toList, isField_conf⟩
  rate := 1000
  burst := 1
  maxInflight := 4096
  window := 300
  completed := 30000
  achieved := 1000
  dropped := 0
  unanswered := 0
  p50 := 210
  p90 := 260
  p99 := 340
  p999 := 900
  p9999 := 1200
  max := 1500
  mean := 222
  lagP50 := 12
  lagP99 := 40
  lagMax := 95
  hdrRawOut := none
  hdrOut := none

/-- The percentiles of this run are lost from a log with carriage returns, and its lag of 12 is the
word `p99` for `sweep-gen.sh` whatever ends the lines. -/
theorem ladderRun_misread :
    sweepLag (logText .lf [] ladderRun) = "12".toList ∧
      sweepGenLag (logText .lf [] ladderRun) = "p99".toList ∧
      pct (logText .crlf [] ladderRun) "p50".toList = [] ∧
      ¬ ReadsBack .lf [] ladderRun ∧ ¬ ReadsBack .crlf [] ladderRun := by
  have hmem : ("p50".toList, ladderRun.p50) ∈ pctFigures ladderRun := List.mem_cons_self ..
  have hlost := pct_logText [] ladderRun .crlf _ hmem
  rw [if_neg (by decide)] at hlost
  have hgen (eol : LineEnd) : ¬ ReadsBack eol [] ladderRun := by
    intro h
    have hp99 := (lag_logText [] ladderRun eol).2.2
    rw [h.sweepGen_lag] at hp99
    exact absurd hp99 (by decide)
  refine ⟨?_, (lag_logText [] ladderRun .lf).2.2, hlost, hgen .lf, hgen .crlf⟩
  rw [(lag_logText [] ladderRun .lf).1]
  decide

end RaftBench.Sweep

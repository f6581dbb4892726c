import RaftBench.Lib.Decimal
import RaftBench.Lib.TextFilters

/-!
# The log of an open-loop run

What `braft/client.cpp` prints: a progress line a second while it runs, then the summary.  The
lines are the `printf` formats of `print_summary` and the `LOG` line of the reporter, with the
figures as decimal numbers.  The logger's own stamp in front of a progress line is a parameter.

`logWords` has every line of the log once more, by its words; that both are the same text is
`logLines_eq`.
-/

namespace RaftBench.Braft

open Decimal TextFilters

/-- A flag's value, as it stands in the log: without white space. -/
structure FlagWord where
  text : Text
  word : IsField isSpaceChar text

/-! ## The figures -/

/-- What `print_summary` prints in open mode, where lags were recorded.  `window` is in tenths of a
second. -/
structure SummaryFigures where
  group : FlagWord
  conf : FlagWord
  rate : ℕ
  burst : ℕ
  maxInflight : ℕ
  window : ℕ
  completed : ℕ
  achieved : ℕ
  dropped : ℕ
  unanswered : ℕ
  p50 : ℕ
  p90 : ℕ
  p99 : ℕ
  p999 : ℕ
  p9999 : ℕ
  max : ℕ
  mean : ℕ
  lagP50 : ℕ
  lagP99 : ℕ
  lagMax : ℕ
  hdrRawOut : Option FlagWord
  hdrOut : Option FlagWord

/-- A progress line.  `stamp` is what the logger puts in front of the message, date, time, thread
and source line, by its words; none of them ends like the label of the lag line. -/
structure Progress where
  stamp : List (ℕ × Text)
  qps : ℕ
  latency : ℕ
  warm : Bool
  stamp_ne : stamp ≠ []
  stamp_spaced : WellSpaced isSpaceChar stamp
  stamp_label : ∀ w ∈ stamp, ¬ "schedule".toList <:+ w.2

/-! ## The lines -/

/-- The lines of `print_summary` in front of the percentiles. -/
def summaryHead (s : SummaryFigures) : List Text :=
  ["".toList,
    "=== summary ===".toList,
    "mode                 open".toList,
    "group                ".toList ++ s.group.text ++ " (".toList ++ s.conf.text ++ ")".toList,
    "offered rate         ".toList ++ printNat s.rate ++ " req/s (burst ".toList ++
      printNat s.burst ++ ")".toList,
    "max inflight         ".toList ++ printNat s.maxInflight,
    "measure window       ".toList ++ printNat (s.window / 10) ++ ".".toList ++
      printNat (s.window % 10) ++ " s".toList,
    "completed            ".toList ++ printNat s.completed,
    "achieved rate        ".toList ++ printNat s.achieved ++ " req/s".toList,
    "dropped-by-rig       ".toList ++ printNat s.dropped,
    "unanswered           ".toList ++ printNat s.unanswered]

/-- The lines of the percentiles, the maximum and the mean. -/
def summaryPercentiles (s : SummaryFigures) : List Text :=
  ["latency us   p50      ".toList ++ printNat s.p50,
    "             p90      ".toList ++ printNat s.p90,
    "             p99      ".toList ++ printNat s.p99,
    "             p99.9    ".toList ++ printNat s.p999,
    "             p99.99   ".toList ++ printNat s.p9999,
    "             max      ".toList ++ printNat s.max,
    "             mean     ".toList ++ printNat s.mean]

/-- The remark at the end of the lag line. -/
def lagRemark : Text :=
  "   (how late sends were; large values mean the rig, not the cluster)".toList

/-- The line of the schedule lag. -/
def lagLine (s : SummaryFigures) : Text :=
  "schedule lag us       p50 ".toList ++ printNat s.lagP50 ++ "  p99 ".toList ++
    printNat s.lagP99 ++ "  max ".toList ++ printNat s.lagMax ++ lagRemark

/-- The lines behind it. -/
def summaryTail (s : SummaryFigures) : List Text :=
  (if s.dropped > 0 then
    ["".toList,
      "WARNING: ".toList ++ printNat s.dropped ++
        " requests were never sent, so an offered rate of ".toList ++ printNat s.rate ++
        " req/s was not".toList,
      "actually achieved. This run cannot be reported as such.".toList]
  else []) ++
    (s.hdrRawOut.map fun path => "hdr raw              ".toList ++ path.text).toList ++
    (s.hdrOut.map fun path => "hdr report           ".toList ++ path.text).toList

/-- `print_summary`. -/
def printSummary (s : SummaryFigures) : List Text :=
  summaryHead s ++ summaryPercentiles s ++ [lagLine s] ++ summaryTail s

def progressLine (s : SummaryFigures) (p : Progress) : Text :=
  spaced p.stamp ++ " Sending Request to ".toList ++ s.group.text ++ " (".toList ++ s.conf.text ++
    ") at qps=".toList ++ printNat p.qps ++ " latency=".toList ++ printNat p.latency ++
    (if p.warm then [] else " [warmup]".toList)

/-- The lines of the whole log. -/
def logLines (progress : List Progress) (s : SummaryFigures) : List Text :=
  progress.map (progressLine s) ++ printSummary s

/-- What ends a line: a pseudo terminal turns the newline into two characters. -/
inductive LineEnd where
  | lf
  | crlf
  deriving DecidableEq, Repr

/-- What stands in front of the newline. -/
def LineEnd.carriage : LineEnd → Text
  | .lf => []
  | .crlf => ['\r']

/-- The log file. -/
def logText (eol : LineEnd) (progress : List Progress) (s : SummaryFigures) : Text :=
  (logLines progress s).flatMap fun l => l ++ (eol.carriage ++ ['\n'])

/-! ## The same lines by their words -/

/-- A number as a word. -/
def natWord (gap n : ℕ) : ℕ × Text := (gap, printNat n)

def headWords (s : SummaryFigures) : List (List (ℕ × Text)) :=
  [[],
    [(0, "===".toList), (1, "summary".toList), (1, "===".toList)],
    [(0, "mode".toList), (17, "open".toList)],
    [(0, "group".toList), (16, s.group.text), (1, '(' :: (s.conf.text ++ [')']))],
    [(0, "offered".toList), (1, "rate".toList), natWord 9 s.rate, (1, "req/s".toList),
      (1, "(burst".toList), (1, printNat s.burst ++ [')'])],
    [(0, "max".toList), (1, "inflight".toList), natWord 9 s.maxInflight],
    [(0, "measure".toList), (1, "window".toList),
      (7, printNat (s.window / 10) ++ '.' :: printNat (s.window % 10)), (1, "s".toList)],
    [(0, "completed".toList), natWord 12 s.completed],
    [(0, "achieved".toList), (1, "rate".toList), natWord 8 s.achieved, (1, "req/s".toList)],
    [(0, "dropped-by-rig".toList), natWord 7 s.dropped],
    [(0, "unanswered".toList), natWord 11 s.unanswered]]

def percentileWords (s : SummaryFigures) : List (List (ℕ × Text)) :=
  [[(0, "latency".toList), (1, "us".toList), (3, "p50".toList), natWord 6 s.p50],
    [(13, "p90".toList), natWord 6 s.p90],
    [(13, "p99".toList), natWord 6 s.p99],
    [(13, "p99.9".toList), natWord 4 s.p999],
    [(13, "p99.99".toList), natWord 3 s.p9999],
    [(13, "max".toList), natWord 6 s.max],
    [(13, "mean".toList), natWord 5 s.mean]]

def remarkWords : List (ℕ × Text) :=
  [(3, "(how".toList), (1, "late".toList), (1, "sends".toList), (1, "were;".toList),
    (1, "large".toList), (1, "values".toList), (1, "mean".toList), (1, "the".toList),
    (1, "rig,".toList), (1, "not".toList), (1, "the".toList), (1, "cluster)".toList)]

def lagWords (s : SummaryFigures) : List (ℕ × Text) :=
  [(0, "schedule".toList), (1, "lag".toList), (1, "us".toList), (7, "p50".toList),
    natWord 1 s.lagP50, (2, "p99".toList), natWord 1 s.lagP99, (2, "max".toList),
    natWord 1 s.lagMax] ++ remarkWords

def tailWords (s : SummaryFigures) : List (List (ℕ × Text)) :=
  (if s.dropped > 0 then
    [[],
      [(0, "WARNING:".toList), natWord 1 s.dropped, (1, "requests".toList), (1, "were".toList),
        (1, "never".toList), (1, "sent,".toList), (1, "so".toList), (1, "an".toList),
        (1, "offered".toList), (1, "rate".toList), (1, "of".toList), natWord 1 s.rate,
        (1, "req/s".toList), (1, "was".toList), (1, "not".toList)],
      [(0, "actually".toList), (1, "achieved.".toList), (1, "This".toList), (1, "run".toList),
        (1, "cannot".toList), (1, "be".toList), (1, "reported".toList), (1, "as".toList),
        (1, "such.".toList)]]
  else []) ++
    (s.hdrRawOut.map fun path => [(0, "hdr".toList), (1, "raw".toList), (14, path.text)]).toList ++
    (s.hdrOut.map fun path => [(0, "hdr".toList), (1, "report".toList), (11, path.text)]).toList

def progressWords (s : SummaryFigures) (p : Progress) : List (ℕ × Text) :=
  p.stamp ++ ([(1, "Sending".toList), (1, "Request".toList), (1, "to".toList), (1, s.group.text),
    (1, '(' :: (s.conf.text ++ [')'])), (1, "at".toList), (1, "qps=".toList ++ printNat p.qps),
    (1, "latency=".toList ++ printNat p.latency)] ++
      if p.warm then [] else [(1, "[warmup]".toList)])

/-- Every line of the log, by its words. -/
def logWords (progress : List Progress) (s : SummaryFigures) : List (List (ℕ × Text)) :=
  progress.map (progressWords s) ++
    (headWords s ++ percentileWords s ++ [lagWords s] ++ tailWords s)

lemma summaryHead_eq (s : SummaryFigures) : summaryHead s = (headWords s).map spaced := by
  simp only [summaryHead, headWords, List.map_cons, List.map_nil, spaced, natWord,
    List.flatMap_cons, List.flatMap_nil, List.append_assoc, List.append_nil, List.cons_append]
  rfl

lemma summaryPercentiles_eq (s : SummaryFigures) :
    summaryPercentiles s = (percentileWords s).map spaced := by
  simp only [summaryPercentiles, percentileWords, List.map_cons, List.map_nil, spaced, natWord,
    List.flatMap_cons, List.flatMap_nil, List.append_assoc, List.append_nil]
  rfl

lemma lagRemark_eq : lagRemark = spaced remarkWords := by
  decide +kernel

lemma lagLine_eq (s : SummaryFigures) : lagLine s = spaced (lagWords s) := by
  unfold lagLine lagWords
  rw [lagRemark_eq]
  unfold spaced
  rw [List.flatMap_append]
  simp only [natWord, List.flatMap_cons, List.flatMap_nil, List.append_assoc, List.append_nil]
  rfl

lemma summaryTail_eq (s : SummaryFigures) : summaryTail s = (tailWords s).map spaced := by
  rw [summaryTail, tailWords, List.map_append, List.map_append]
  congr 1
  · congr 1
    · split_ifs
      · simp only [List.map_cons, List.map_nil, spaced, natWord, List.flatMap_cons,
          List.flatMap_nil, List.append_assoc, List.append_nil]
        rfl
      · rfl
    · cases s.hdrRawOut with
      | none => rfl
      | some path =>
          simp only [Option.map_some, Option.toList_some, List.map_cons, List.map_nil, spaced,
            List.flatMap_cons, List.flatMap_nil, List.append_nil]
          rfl
  · cases s.hdrOut with
    | none => rfl
    | some path =>
        simp only [Option.map_some, Option.toList_some, List.map_cons, List.map_nil, spaced,
          List.flatMap_cons, List.flatMap_nil, List.append_nil]
        rfl

lemma progressLine_eq (s : SummaryFigures) (p : Progress) :
    progressLine s p = spaced (progressWords s p) := by
  rw [progressLine, progressWords]
  split_ifs <;>
    simp only [spaced, List.flatMap_append, List.flatMap_cons, List.flatMap_nil, List.append_assoc,
      List.append_nil, List.cons_append] <;>
    rfl

/-- The log is the log by its words. -/
lemma logLines_eq (progress : List Progress) (s : SummaryFigures) :
    logLines progress s = (logWords progress s).map spaced := by
  have hprogress : progress.map (progressLine s) = (progress.map (progressWords s)).map spaced := by
    rw [List.map_map]
    exact List.map_congr_left fun p _ => progressLine_eq s p
  rw [logLines, printSummary, logWords, hprogress, summaryHead_eq, summaryPercentiles_eq,
    lagLine_eq, summaryTail_eq]
  simp only [List.map_append, List.map_cons, List.map_nil]

/-! ## The words are words -/

lemma isSpaceChar_of_isDigit {c : Char} (h : c.isDigit = true) : isSpaceChar c = false := by
  rw [isSpaceChar, decide_eq_false_iff_not]
  intro hmem
  simp only [List.mem_cons, List.not_mem_nil, or_false] at hmem
  rcases hmem with rfl | rfl | rfl | rfl | rfl | rfl <;> simp at h

lemma isField_printNat (n : ℕ) : IsField isSpaceChar (printNat n) :=
  ⟨printNat_ne_nil n, fun _ hc => isSpaceChar_of_isDigit (isDigit_of_mem_printNat hc)⟩

lemma isField_paren (w : FlagWord) : IsField isSpaceChar ('(' :: (w.text ++ [')'])) :=
  .cons rfl (w.word.append (List.forall_mem_singleton.mpr rfl)).2

lemma isField_burst (n : ℕ) : IsField isSpaceChar (printNat n ++ [')']) :=
  (isField_printNat n).append (List.forall_mem_singleton.mpr rfl)

lemma isField_window (m n : ℕ) : IsField isSpaceChar (printNat m ++ '.' :: printNat n) :=
  (isField_printNat m).append (IsField.cons rfl (isField_printNat n).2).2

lemma isField_qps (n : ℕ) : IsField isSpaceChar ("qps=".toList ++ printNat n) :=
  IsField.append (by decide) (isField_printNat n).2

lemma isField_latency (n : ℕ) : IsField isSpaceChar ("latency=".toList ++ printNat n) :=
  IsField.append (by decide) (isField_printNat n).2

section WellSpaced

variable (s : SummaryFigures)

lemma wellSpaced_head : ∀ words ∈ headWords s, WellSpaced isSpaceChar words := by
  intro words hwords
  simp only [headWords, List.mem_cons, List.not_mem_nil, or_false] at hwords
  rcases hwords with rfl | rfl | rfl | rfl | rfl | rfl | rfl | rfl | rfl | rfl | rfl
  all_goals refine ⟨?_, by simp [natWord]⟩
  all_goals simp +decide only [natWord, List.forall_mem_cons, isField_printNat, s.group.word,
    isField_paren, isField_burst, isField_window, and_self]

lemma wellSpaced_percentiles : ∀ words ∈ percentileWords s, WellSpaced isSpaceChar words := by
  intro words hwords
  simp only [percentileWords, List.mem_cons, List.not_mem_nil, or_false] at hwords
  rcases hwords with rfl | rfl | rfl | rfl | rfl | rfl | rfl
  all_goals refine ⟨?_, by simp [natWord]⟩
  all_goals simp +decide only [natWord, List.forall_mem_cons, isField_printNat, and_self]

lemma wellSpaced_lag : WellSpaced isSpaceChar (lagWords s) := by
  refine ⟨?_, by simp [lagWords, remarkWords, natWord]⟩
  simp +decide only [lagWords, remarkWords, natWord, List.cons_append, List.nil_append,
    List.forall_mem_cons, isField_printNat, and_self]

lemma wellSpaced_tail : ∀ words ∈ tailWords s, WellSpaced isSpaceChar words := by
  intro words hwords
  simp only [tailWords, List.mem_append, Option.mem_toList, Option.map_eq_some_iff] at hwords
  rcases hwords with (hwords | ⟨path, -, rfl⟩) | ⟨path, -, rfl⟩
  · split_ifs at hwords
    · simp only [List.mem_cons, List.not_mem_nil, or_false] at hwords
      rcases hwords with rfl | rfl | rfl
      all_goals refine ⟨?_, by simp [natWord]⟩
      all_goals simp +decide only [natWord, List.forall_mem_cons, isField_printNat, and_self]
    · simp at hwords
  all_goals refine ⟨?_, by simp⟩
  all_goals simp +decide only [List.forall_mem_cons, path.word, and_self]

lemma wellSpaced_progress (p : Progress) : WellSpaced isSpaceChar (progressWords s p) := by
  refine p.stamp_spaced.append p.stamp_ne ?_ ?_
  · split_ifs
    all_goals simp +decide only [List.cons_append, List.nil_append, List.append_nil,
      List.forall_mem_cons, s.group.word, isField_paren, isField_qps, isField_latency, and_self]
  · split_ifs <;> simp

/-- **Every line of the log is made of its words.** -/
lemma wellSpaced_log (progress : List Progress) :
    ∀ words ∈ logWords progress s, WellSpaced isSpaceChar words := by
  intro words hwords
  simp only [logWords, List.mem_append, List.mem_map, List.mem_singleton] at hwords
  rcases hwords with ⟨p, -, rfl⟩ | ((hwords | hwords) | rfl) | hwords
  · exact wellSpaced_progress s p
  · exact wellSpaced_head s words hwords
  · exact wellSpaced_percentiles s words hwords
  · exact wellSpaced_lag s
  · exact wellSpaced_tail s words hwords

end WellSpaced

/-- **The lines of the log file**: those that were printed, with what a line end leaves behind. -/
theorem lines_logText (eol : LineEnd) (progress : List Progress) (s : SummaryFigures) :
    lines (logText eol progress s)
      = (logWords progress s).map fun words => spaced words ++ eol.carriage := by
  have hflat : logText eol progress s = ((logWords progress s).map fun words =>
      spaced words ++ eol.carriage).flatMap fun l => l ++ ['\n'] := by
    rw [logText, logLines_eq, List.flatMap_map, List.flatMap_map]
    refine List.flatMap_congr fun words _ => ?_
    rw [List.append_assoc]
  rw [hflat, lines_flatMap]
  intro l hl
  obtain ⟨words, hwords, rfl⟩ := List.mem_map.mp hl
  rw [List.mem_append, not_or]
  refine ⟨(wellSpaced_log s progress words hwords).notMem rfl (by decide), ?_⟩
  cases eol <;> decide

end RaftBench.Braft

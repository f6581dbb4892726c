import Mathlib.Data.List.Basic
import Mathlib.Data.List.TakeDrop
import RaftBench.Lib.JsonDecoder

/-!
# Values as JSON text

A text for every value, without blanks, and that the decoder reads it back.

* `write` — the text.  A code point stands for itself where it may, and is escaped otherwise.
* `Writable` — the values that have a text: nested no deeper than the decoder goes, integers within
  its limit, fields that come once, and no two surrogates that the decoder would join.
* `loads_write` — decoding the text of a value gives the value.

The round trip goes along the containers (`parseArray_write`, `parseObject_write`), for any scanner
that reads their items back.
-/

namespace JsonDecoder

/-! ## The text of a value -/

/-- A code point that stands for itself in a string. -/
def IsPlain (c : CodePoint) : Prop :=
  0x20 ≤ c.val ∧ c.val ≠ '"'.toNat ∧ c.val ≠ '\\'.toNat ∧ ¬ IsHighSurrogate c ∧ ¬ IsLowSurrogate c

instance (c : CodePoint) : Decidable (IsPlain c) := inferInstanceAs (Decidable (_ ∧ _))

/-- A code point in a string.  Those that are escaped have four digits. -/
def writeChar (c : CodePoint) : List Char :=
  if IsPlain c then [Char.ofNat c.val]
  else ['\\', 'u', Nat.digitChar (c.val / 0x1000), Nat.digitChar (c.val / 0x100 % 0x10),
    Nat.digitChar (c.val / 0x10 % 0x10), Nat.digitChar (c.val % 0x10)]

mutual

def write : Value → List Char
  | .none => "null".toList
  | .bool b => if b then "true".toList else "false".toList
  | .int z => Decimal.print z
  | .float => "NaN".toList
  | .str s => '"' :: s.flatMap writeChar ++ ['"']
  | .list [] => ['[', ']']
  | .list (v :: vs) => '[' :: write v ++ writeItems vs
  | .dict [] => ['{', '}']
  | .dict ((key, v) :: es) =>
    '{' :: '"' :: key.flatMap writeChar ++ '"' :: ':' :: write v ++ writeMembers es

/-- The items behind the first one, up to the bracket. -/
def writeItems : List Value → List Char
  | [] => [']']
  | v :: vs => ',' :: write v ++ writeItems vs

/-- The fields behind the first one, up to the brace. -/
def writeMembers : List (List CodePoint × Value) → List Char
  | [] => ['}']
  | (key, v) :: es =>
    ',' :: '"' :: key.flatMap writeChar ++ '"' :: ':' :: write v ++ writeMembers es

end

/-- A value that has a text within the limits, nested at most `depth` deep. -/
inductive Writable (limits : Limits) : ℕ → Value → Prop
  | none (d : ℕ) : Writable limits d .none
  | bool (d : ℕ) (b : Bool) : Writable limits d (.bool b)
  | float (d : ℕ) : Writable limits d .float
  | int (d : ℕ) (z : ℤ) (h : limits.intMaxStrDigits ≠ 0 →
      (Decimal.printNat z.natAbs).length ≤ limits.intMaxStrDigits) : Writable limits d (.int z)
  | str (d : ℕ) (s : List CodePoint) (h : joinSurrogates s = s) : Writable limits d (.str s)
  | list (d : ℕ) (items : List Value) (h : ∀ v ∈ items, Writable limits d v) :
      Writable limits (d + 1) (.list items)
  | dict (d : ℕ) (fields : List (List CodePoint × Value)) (hnodup : (fields.map Prod.fst).Nodup)
      (hkeys : ∀ e ∈ fields, joinSurrogates e.1 = e.1) (h : ∀ e ∈ fields, Writable limits d e.2) :
      Writable limits (d + 1) (.dict fields)

/-! ## Strings -/

lemma hexDigit_digitChar : ∀ d < 16, hexDigit (Nat.digitChar d) = some d := by decide

lemma toNat_ofNat_of_isPlain {c : CodePoint} (h : IsPlain c) :
    (Char.ofNat c.val).toNat = c.val := by
  have hvalid : c.val.isValidChar := by
    obtain ⟨-, -, -, hhigh, hlow⟩ := h
    simp only [IsHighSurrogate, IsLowSurrogate] at hhigh hlow
    have := c.isLt
    rw [Nat.isValidChar]
    omega
  rw [Char.ofNat, dif_pos hvalid]
  rfl

lemma lt_of_not_isPlain {c : CodePoint} (h : ¬ IsPlain c) : c.val < 0x10000 := by
  by_contra hge
  refine h ⟨by omega, ?_, ?_, ?_, ?_⟩
  · rw [show '"'.toNat = 34 from rfl]
    omega
  · rw [show '\\'.toNat = 92 from rfl]
    omega
  · rintro ⟨-, hle⟩
    omega
  · rintro ⟨-, hle⟩
    omega

lemma hex4_digitChar {c : CodePoint} (h : c.val < 0x10000) :
    hex4 (Nat.digitChar (c.val / 0x1000)) (Nat.digitChar (c.val / 0x100 % 0x10))
      (Nat.digitChar (c.val / 0x10 % 0x10)) (Nat.digitChar (c.val % 0x10)) = .ok c := by
  rw [hex4, hexDigit_digitChar _ (by omega), hexDigit_digitChar _ (by omega),
    hexDigit_digitChar _ (by omega), hexDigit_digitChar _ (by omega)]
  refine congrArg Except.ok (Fin.ext ?_)
  have := c.isLt
  simp only [Fin.ofNat]
  omega

lemma scanChars_plain {c : CodePoint} (hc : IsPlain c) {cs rest : List Char} {s : List CodePoint}
    (h : scanChars cs = .ok (s, rest)) :
    scanChars (Char.ofNat c.val :: cs) = .ok (c :: s, rest) := by
  have hnat := toNat_ofNat_of_isPlain hc
  have hquote : Char.ofNat c.val ≠ '"' := fun heq => hc.2.1 (by rw [← hnat, heq])
  have hback : Char.ofNat c.val ≠ '\\' := fun heq => hc.2.2.1 (by rw [← hnat, heq])
  have hcontrol : ¬ ((Char.ofNat c.val).toNat < 0x20 ∨ Char.ofNat c.val = '\\') := by
    rw [hnat]
    exact not_or.mpr ⟨not_lt.mpr hc.1, hback⟩
  have hcode : CodePoint.ofChar (Char.ofNat c.val) = c := by
    refine Fin.ext ?_
    rw [CodePoint.ofChar, hnat, Fin.ofNat]
    exact Nat.mod_eq_of_lt c.isLt
  rw [scanChars, if_neg hcontrol, h, hcode]
  · rfl
  · exact hquote
  · exact fun _ _ _ _ _ heq _ => hback heq
  · exact fun _ _ heq _ => hback heq

lemma scanChars_writeChar (c : CodePoint) {cs rest : List Char} {s : List CodePoint}
    (h : scanChars cs = .ok (s, rest)) :
    scanChars (writeChar c ++ cs) = .ok (c :: s, rest) := by
  by_cases hc : IsPlain c
  · rw [writeChar, if_pos hc]
    exact scanChars_plain hc h
  · rw [writeChar, if_neg hc]
    simp only [List.cons_append, List.nil_append]
    rw [scanChars, hex4_digitChar (lt_of_not_isPlain hc), h]
    rfl

lemma scanString_write {s : List CodePoint} (hs : joinSurrogates s = s) (rest : List Char) :
    scanString (s.flatMap writeChar ++ '"' :: rest) = .ok (s, rest) := by
  have hchars (s : List CodePoint) :
      scanChars (s.flatMap writeChar ++ '"' :: rest) = .ok (s, rest) := by
    induction s with
    | nil => rfl
    | cons c s ih =>
        rw [List.flatMap_cons, List.append_assoc]
        exact scanChars_writeChar c ih
  rw [scanString, hchars]
  exact congrArg (fun s => Except.ok (s, rest)) hs


/-! ## Numbers -/

/-- What may stand behind a value. -/
def Ends (rest : List Char) : Prop := ∀ c ∈ rest.head?, c = ',' ∨ c = ']' ∨ c = '}'

lemma Ends.endsNumber {rest : List Char} (h : Ends rest) : Decimal.EndsNumber rest := by
  intro c hc
  obtain rfl | rfl | rfl := h c hc <;> rfl

lemma Ends.skipFraction {rest : List Char} (h : Ends rest) : skipFraction rest = none := by
  cases rest with
  | nil => rfl
  | cons c rest => obtain rfl | rfl | rfl := h c rfl <;> rfl

lemma Ends.skipExponent {rest : List Char} (h : Ends rest) : skipExponent rest = none := by
  cases rest with
  | nil => rfl
  | cons c rest => obtain rfl | rfl | rfl := h c rfl <;> rfl

/-- A number that is not 0 does not begin with one. -/
lemma head_printNat {n : ℕ} (hn : n ≠ 0) : ∀ c ∈ (Decimal.printNat n).head?, c ≠ '0' := by
  induction n using Nat.strong_induction_on with
  | _ n ih =>
      by_cases hlt : n < 10
      · rw [Decimal.printNat, Nat.toDigits_of_lt_base hlt]
        have hall : ∀ d < 10, d ≠ 0 → d.digitChar ≠ '0' := by decide
        simpa using hall n hlt hn
      · rw [Decimal.printNat, Nat.toDigits_of_base_le (by decide) (by omega),
          List.head?_append_of_ne_nil _ Nat.toDigits_ne_nil]
        exact ih (n / 10) (by omega) (by omega)

lemma intDigits_printNat (n : ℕ) {rest : List Char} (h : Ends rest) :
    intDigits (Decimal.printNat n ++ rest) = some (Decimal.printNat n, rest) := by
  by_cases hn : n = 0
  · subst hn
    rfl
  · obtain ⟨c, cs, hcs⟩ := List.exists_cons_of_ne_nil (Decimal.printNat_ne_nil n)
    have hzero : c ≠ '0' := head_printNat hn c (by rw [hcs]; rfl)
    have hdigit : c.isDigit = true := Decimal.isDigit_of_mem_printNat (n := n) (by simp [hcs])
    obtain ⟨htake, hdrop⟩ := Decimal.span_printNat n h.endsNumber
    rw [hcs, List.cons_append] at htake hdrop ⊢
    rw [intDigits, if_pos hdigit, List.span_eq_takeWhile_dropWhile, htake, hdrop]
    exact fun heq => hzero heq

/-- A digit is none of the characters that begin something else than a number. -/
lemma ne_of_isDigit {c d : Char} (hc : c.isDigit = true) (hd : d.isDigit = false) : c ≠ d := by
  rintro rfl
  exact absurd (hc.symm.trans hd) (by decide)

/-- How a number begins. -/
lemma exists_print_cons (z : ℤ) (rest : List Char) : ∃ d ds, d.isDigit = true ∧
    Decimal.printNat z.natAbs ++ rest = d :: ds ∧
      (z < 0 ∧ Decimal.print z ++ rest = '-' :: d :: ds ∨
        ¬ z < 0 ∧ Decimal.print z ++ rest = d :: ds) := by
  obtain ⟨d, ds, hds⟩ := List.exists_cons_of_ne_nil (Decimal.printNat_ne_nil z.natAbs)
  refine ⟨d, ds ++ rest, Decimal.isDigit_of_mem_printNat (n := z.natAbs) (by simp [hds]),
    by rw [hds, List.cons_append], ?_⟩
  by_cases hneg : z < 0
  · exact .inl ⟨hneg, by rw [Decimal.print, if_pos hneg, hds]; rfl⟩
  · exact .inr ⟨hneg, by rw [Decimal.print, if_neg hneg, hds]; rfl⟩

lemma sign_print (z : ℤ) (rest : List Char) :
    sign (Decimal.print z ++ rest) = (decide (z < 0), Decimal.printNat z.natAbs ++ rest) := by
  obtain ⟨d, ds, hd, hds, ⟨hneg, hprint⟩ | ⟨hneg, hprint⟩⟩ := exists_print_cons z rest
  · rw [hprint, hds, decide_eq_true hneg, sign]
  · rw [hprint, hds, decide_eq_false hneg, sign]
    exact fun _ heq => ne_of_isDigit hd (by decide) (List.cons.inj heq).1

lemma matchNumber_print {limits : Limits} {z : ℤ}
    (hz : limits.intMaxStrDigits ≠ 0 →
      (Decimal.printNat z.natAbs).length ≤ limits.intMaxStrDigits)
    {rest : List Char} (h : Ends rest) :
    matchNumber limits (Decimal.print z ++ rest) = .ok (.int z, rest) := by
  have hlimit : ¬ (limits.intMaxStrDigits ≠ 0 ∧
      limits.intMaxStrDigits < (Decimal.printNat z.natAbs).length) :=
    fun hover => absurd hover.2 (not_lt.mpr (hz hover.1))
  have hvalue : Nat.ofDigitChars 10 (Decimal.printNat z.natAbs) 0 = z.natAbs :=
    Nat.ofDigitChars_ten_toDigits
  have hz : (if decide (z < 0) = true then -(z.natAbs : ℤ) else z.natAbs) = z := by
    split_ifs with hneg
    · have := of_decide_eq_true hneg
      omega
    · have := of_decide_eq_false (eq_false_of_ne_true hneg)
      omega
  simp only [matchNumber, sign_print, intDigits_printNat _ h, h.skipFraction, h.skipExponent,
    Option.getD_none, Option.isSome_none, hvalue, hz, if_neg hlimit]
  rfl

lemma scanConstant_digit {d : Char} (hd : d.isDigit = true) (cs : List Char) :
    scanConstant (d :: cs) = none ∧ scanConstant ('-' :: d :: cs) = none := by
  have hn : d ≠ 'n' := ne_of_isDigit hd (by decide)
  have ht : d ≠ 't' := ne_of_isDigit hd (by decide)
  have hf : d ≠ 'f' := ne_of_isDigit hd (by decide)
  have hN : d ≠ 'N' := ne_of_isDigit hd (by decide)
  have hI : d ≠ 'I' := ne_of_isDigit hd (by decide)
  have hminus : d ≠ '-' := ne_of_isDigit hd (by decide)
  simp [scanConstant, constants, hn.symm, ht.symm, hf.symm, hN.symm, hI.symm, hminus.symm]

/-- What is neither a string nor a container is a constant or a number. -/
lemma scanOnce_scalar (limits : Limits) (depth : ℕ) {c : Char} {cs : List Char} (hquote : c ≠ '"')
    (hbracket : c ≠ '[') (hbrace : c ≠ '{') :
    scanOnce limits depth (c :: cs) =
      (scanConstant (c :: cs)).elim (matchNumber limits (c :: cs)) .ok := by
  rw [scanOnce]
  · exact fun _ heq => hquote (List.cons.inj heq).1
  · exact fun _ heq => hbracket (List.cons.inj heq).1
  · exact fun _ heq => hbrace (List.cons.inj heq).1

lemma scanOnce_print {limits : Limits} {z : ℤ}
    (hz : limits.intMaxStrDigits ≠ 0 →
      (Decimal.printNat z.natAbs).length ≤ limits.intMaxStrDigits)
    (depth : ℕ) {rest : List Char} (h : Ends rest) :
    scanOnce limits depth (Decimal.print z ++ rest) = .ok (.int z, rest) := by
  have hnumber := matchNumber_print hz h
  obtain ⟨d, ds, hd, -, ⟨-, hprint⟩ | ⟨-, hprint⟩⟩ := exists_print_cons z rest
  · rw [hprint] at hnumber ⊢
    rw [scanOnce_scalar limits depth (by decide) (by decide) (by decide),
      (scanConstant_digit hd ds).2]
    exact hnumber
  · rw [hprint] at hnumber ⊢
    rw [scanOnce_scalar limits depth (ne_of_isDigit hd (by decide)) (ne_of_isDigit hd (by decide))
      (ne_of_isDigit hd (by decide)), (scanConstant_digit hd ds).1]
    exact hnumber

/-! ## Containers -/

/-- A text that begins with a value. -/
def Begins (cs : List Char) : Prop :=
  ∃ c rest, cs = c :: rest ∧ isBlank c = false ∧ c ≠ ']' ∧ c ≠ '\ufeff'

lemma begins_write (v : Value) (rest : List Char) : Begins (write v ++ rest) := by
  cases v with
  | int z =>
      have hdigit : ∀ d : Char, d.isDigit = true → isBlank d = false ∧ d ≠ ']' ∧ d ≠ '\ufeff' := by
        intro d hd
        refine ⟨?_, ne_of_isDigit hd (by decide), ne_of_isDigit hd (by decide)⟩
        have hspace : d ≠ ' ' := ne_of_isDigit hd (by decide)
        have htab : d ≠ '\t' := ne_of_isDigit hd (by decide)
        have hnewline : d ≠ '\n' := ne_of_isDigit hd (by decide)
        have hreturn : d ≠ '\r' := ne_of_isDigit hd (by decide)
        simp [isBlank, hspace, htab, hnewline, hreturn]
      obtain ⟨d, ds, hd, -, ⟨-, hprint⟩ | ⟨-, hprint⟩⟩ := exists_print_cons z rest
      · exact ⟨'-', d :: ds, by rw [write, hprint], by decide, by decide, by decide⟩
      · exact ⟨d, ds, by rw [write, hprint], hdigit d hd⟩
  | bool b =>
      cases b with
      | true => exact ⟨_, _, rfl, by decide, by decide, by decide⟩
      | false => exact ⟨_, _, rfl, by decide, by decide, by decide⟩
  | list items =>
      cases items with
      | nil => exact ⟨_, _, rfl, by decide, by decide, by decide⟩
      | cons v vs => exact ⟨_, _, rfl, by decide, by decide, by decide⟩
  | dict fields =>
      cases fields with
      | nil => exact ⟨_, _, rfl, by decide, by decide, by decide⟩
      | cons e es => exact ⟨_, _, rfl, by decide, by decide, by decide⟩
  | _ => exact ⟨_, _, rfl, by decide, by decide, by decide⟩

lemma skipBlanks_cons {c : Char} (hc : isBlank c = false) (cs : List Char) :
    skipBlanks (c :: cs) = c :: cs :=
  List.dropWhile_cons_of_neg (by simp [hc])

lemma Begins.skipBlanks {cs : List Char} (h : Begins cs) : skipBlanks cs = cs := by
  obtain ⟨c, rest, rfl, hc, -⟩ := h
  exact skipBlanks_cons hc rest

lemma ends_writeItems (vs : List Value) (rest : List Char) : Ends (writeItems vs ++ rest) := by
  cases vs with
  | nil => exact fun c hc => .inr (.inl (Option.some.inj hc).symm)
  | cons v vs => exact fun c hc => .inl (Option.some.inj hc).symm

lemma ends_writeMembers (es : List (List CodePoint × Value)) (rest : List Char) :
    Ends (writeMembers es ++ rest) := by
  cases es with
  | nil => exact fun c hc => .inr (.inr (Option.some.inj hc).symm)
  | cons e es => exact fun c hc => .inl (Option.some.inj hc).symm

section Containers

variable {scan : List Char → Except Error (Value × List Char)}

/-- A scanner that reads the value back. -/
def Reads (scan : List Char → Except Error (Value × List Char)) (v : Value) : Prop :=
  ∀ rest, Ends rest → scan (write v ++ rest) = .ok (v, rest)

lemma scanItems_write (vs : List Value) {v : Value} (h : ∀ w ∈ v :: vs, Reads scan w) {fuel : ℕ}
    (hfuel : vs.length < fuel) (rest : List Char) :
    scanItems scan fuel (write v ++ (writeItems vs ++ rest)) = .ok (v :: vs, rest) := by
  induction vs generalizing v fuel with
  | nil =>
      obtain ⟨fuel, rfl⟩ := Nat.exists_eq_succ_of_ne_zero (Nat.ne_of_gt hfuel)
      rw [scanItems, h v (by simp) _ (ends_writeItems [] rest)]
      rfl
  | cons w vs ih =>
      obtain ⟨fuel, rfl⟩ := Nat.exists_eq_succ_of_ne_zero (Nat.ne_of_gt (Nat.zero_lt_of_lt hfuel))
      have hrest := ih (fun u hu => h u (List.mem_cons_of_mem v hu)) (Nat.lt_of_succ_lt_succ hfuel)
      have hcomma : skipBlanks (writeItems (w :: vs) ++ rest) =
          ',' :: (write w ++ (writeItems vs ++ rest)) := by
        rw [writeItems, List.append_assoc, List.cons_append, skipBlanks_cons rfl]
      rw [scanItems, h v (by simp) _ (ends_writeItems (w :: vs) rest)]
      simp only [hcomma, (begins_write w _).skipBlanks, hrest, bind, Except.bind, pure, Except.pure]

lemma length_writeItems (vs : List Value) : vs.length < (writeItems vs).length := by
  induction vs with
  | nil => exact Nat.zero_lt_one
  | cons v vs ih =>
      rw [writeItems, List.length_cons, List.length_append, List.length_cons]
      omega

lemma parseArray_write {items : List Value} (h : ∀ v ∈ items, Reads scan v) (rest : List Char) :
    ∃ cs, write (.list items) ++ rest = '[' :: cs ∧
      parseArray scan cs = .ok (.list items, rest) := by
  cases items with
  | nil => exact ⟨']' :: rest, rfl, rfl⟩
  | cons v vs =>
      refine ⟨write v ++ (writeItems vs ++ rest), ?_, ?_⟩
      · rw [write, List.append_assoc]
        rfl
      · have hfuel : vs.length < (write v ++ (writeItems vs ++ rest)).length := by
          have := length_writeItems vs
          rw [List.length_append, List.length_append]
          omega
        have hitems := scanItems_write vs h hfuel rest
        have hblanks := (begins_write v (writeItems vs ++ rest)).skipBlanks
        obtain ⟨c, cs, hcs, -, hbracket, -⟩ := begins_write v (writeItems vs ++ rest)
        rw [parseArray, hblanks]
        split
        · next heq => exact absurd (List.cons.inj (hcs.symm.trans heq)).1 hbracket
        · rw [hitems]
          rfl

lemma scanMembers_write (es : List (List CodePoint × Value)) {key : List CodePoint} {v : Value}
    (hkeys : ∀ e ∈ (key, v) :: es, joinSurrogates e.1 = e.1)
    (h : ∀ e ∈ (key, v) :: es, Reads scan e.2) {fuel : ℕ} (hfuel : es.length < fuel)
    (rest : List Char) :
    scanMembers scan fuel ('"' :: (key.flatMap writeChar ++
      '"' :: ':' :: (write v ++ (writeMembers es ++ rest)))) = .ok ((key, v) :: es, rest) := by
  induction es generalizing key v fuel with
  | nil =>
      obtain ⟨fuel, rfl⟩ := Nat.exists_eq_succ_of_ne_zero (Nat.ne_of_gt hfuel)
      have hvalue := h (key, v) (by simp) _ (ends_writeMembers [] rest)
      have hcolon := skipBlanks_cons (c := ':') rfl (write v ++ (writeMembers [] ++ rest))
      rw [scanMembers, scanString_write (hkeys (key, v) (by simp))]
      simp only [hcolon, (begins_write v _).skipBlanks, hvalue, bind, Except.bind]
      rfl
  | cons e es ih =>
      obtain ⟨fuel, rfl⟩ := Nat.exists_eq_succ_of_ne_zero (Nat.ne_of_gt (Nat.zero_lt_of_lt hfuel))
      have hrest := ih (fun u hu => hkeys u (List.mem_cons_of_mem _ hu))
        (fun u hu => h u (List.mem_cons_of_mem _ hu)) (Nat.lt_of_succ_lt_succ hfuel)
      have hvalue := h (key, v) (by simp) _ (ends_writeMembers (e :: es) rest)
      have hcolon := skipBlanks_cons (c := ':') rfl (write v ++ (writeMembers (e :: es) ++ rest))
      have hcomma : skipBlanks (writeMembers (e :: es) ++ rest) = ',' :: '"' ::
          (e.1.flatMap writeChar ++ '"' :: ':' :: (write e.2 ++ (writeMembers es ++ rest))) := by
        simp only [writeMembers, List.cons_append, List.append_assoc]
        exact skipBlanks_cons rfl _
      have hquote := fun cs => skipBlanks_cons (c := '"') rfl cs
      rw [scanMembers, scanString_write (hkeys (key, v) (by simp))]
      simp only [hcolon, (begins_write v _).skipBlanks, hvalue, hcomma, hquote, hrest, bind,
        Except.bind, pure, Except.pure]

/-- Fields that come once are kept as they come. -/
lemma foldl_setItem {es d : List (List CodePoint × Value)}
    (h : ((d ++ es).map Prod.fst).Nodup) :
    es.foldl (fun d e => setItem d e.1 e.2) d = d ++ es := by
  induction es generalizing d with
  | nil => simp
  | cons e es ih =>
      have hmem : e.1 ∉ d.map Prod.fst := by
        rw [List.map_append, List.map_cons] at h
        exact fun hd => (List.nodup_append.mp h).2.2 _ hd _ List.mem_cons_self rfl
      rw [List.foldl_cons, setItem, if_neg hmem, ih (by simpa using h), List.append_assoc]
      rfl

lemma length_writeMembers (es : List (List CodePoint × Value)) :
    es.length < (writeMembers es).length := by
  induction es with
  | nil => exact Nat.zero_lt_one
  | cons e es ih =>
      simp only [writeMembers, List.length_cons, List.length_append]
      omega

lemma parseObject_write {fields : List (List CodePoint × Value)}
    (hnodup : (fields.map Prod.fst).Nodup) (hkeys : ∀ e ∈ fields, joinSurrogates e.1 = e.1)
    (h : ∀ e ∈ fields, Reads scan e.2) (rest : List Char) :
    ∃ cs, write (.dict fields) ++ rest = '{' :: cs ∧
      parseObject scan cs = .ok (.dict fields, rest) := by
  cases fields with
  | nil => exact ⟨'}' :: rest, rfl, rfl⟩
  | cons e es =>
      obtain ⟨key, v⟩ := e
      refine ⟨'"' :: (key.flatMap writeChar ++
        '"' :: ':' :: (write v ++ (writeMembers es ++ rest))), by simp [write], ?_⟩
      have hfuel : es.length < ('"' :: (key.flatMap writeChar ++
          '"' :: ':' :: (write v ++ (writeMembers es ++ rest)))).length := by
        have := length_writeMembers es
        simp only [List.length_cons, List.length_append]
        omega
      have hmembers := scanMembers_write es hkeys h hfuel rest
      have hdict : dictOf ((key, v) :: es) = .dict ((key, v) :: es) :=
        congrArg Value.dict (foldl_setItem (d := []) hnodup)
      rw [parseObject, skipBlanks_cons rfl]
      split
      · next heq => exact absurd (List.cons.inj heq).1 (by decide)
      · rw [hmembers]
        exact congrArg (fun d => Except.ok (d, rest)) hdict

end Containers

/-- **Writing and reading back**, in front of anything that ends a value. -/
theorem scanOnce_write {limits : Limits} {depth : ℕ} {v : Value} (h : Writable limits depth v) :
    Reads (scanOnce limits depth) v := by
  induction h with
  | none d => exact fun rest _ => scanOnce_scalar limits d (by decide) (by decide) (by decide)
  | bool d b =>
      intro rest _
      cases b with
      | true => exact scanOnce_scalar limits d (by decide) (by decide) (by decide)
      | false => exact scanOnce_scalar limits d (by decide) (by decide) (by decide)
  | float d => exact fun rest _ => scanOnce_scalar limits d (by decide) (by decide) (by decide)
  | int d z hz => exact fun rest hrest => scanOnce_print hz d hrest
  | str d s hs =>
      intro rest _
      have htext : write (.str s) ++ rest = '"' :: (s.flatMap writeChar ++ '"' :: rest) := by
        simp [write]
      rw [htext, scanOnce, scanString_write hs]
      rfl
  | list d items _ ih =>
      intro rest _
      obtain ⟨cs, htext, hparse⟩ := parseArray_write ih rest
      rw [htext, scanOnce, hparse]
  | dict d fields hnodup hkeys _ ih =>
      intro rest _
      obtain ⟨cs, htext, hparse⟩ := parseObject_write hnodup hkeys ih rest
      rw [htext, scanOnce, hparse]

/-- **Every value that can be written is read back.** -/
theorem loads_write {limits : Limits} {v : Value} (h : Writable limits limits.nesting v) :
    loads limits (write v) = .ok v := by
  have hscan := scanOnce_write h [] nofun
  obtain ⟨c, cs, hcs, hblank, -, hbom⟩ := begins_write v []
  have hblanks := (begins_write v []).skipBlanks
  rw [List.append_nil] at hscan hcs hblanks
  have hhead : (write v).head? ≠ some '\ufeff' := by
    rw [hcs]
    exact fun heq => hbom (Option.some.inj heq)
  simp only [loads, hhead, hblanks, hscan, bind, Except.bind]
  rfl

end JsonDecoder

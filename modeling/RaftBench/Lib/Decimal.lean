import Mathlib.Data.Int.Basic
import Mathlib.Data.List.TakeWhile

/-!
# Decimal text

Printing integers in base ten and reading them back, on lists of characters.  Printing is
`Nat.toDigits 10` with a sign in front of a negative number, which is what a formatted output of
a machine integer produces; reading takes the longest run of digits after an optional sign, which
is what a formatted input does.

The round trip `readInt_print` has to know that the text after the number does not begin with
another digit: a reader that takes the longest run would otherwise swallow it.
-/

namespace Decimal

/-- The decimal text of a natural number. -/
def printNat (n : ℕ) : List Char := Nat.toDigits 10 n

/-- The decimal text of an integer: a minus sign in front of a negative one. -/
def print (z : ℤ) : List Char :=
  if z < 0 then '-' :: printNat z.natAbs else printNat z.natAbs

/-- The value of a text made of digits only; `none` for the empty text or another character. -/
def ofDigits (cs : List Char) : Option ℕ :=
  if cs ≠ [] ∧ cs.all Char.isDigit then some (Nat.ofDigitChars 10 cs 0) else none

/-- Read the longest run of digits, which must not be empty, and return what follows it. -/
def readNat (cs : List Char) : Option (ℕ × List Char) :=
  (ofDigits (cs.takeWhile Char.isDigit)).map fun n => (n, cs.dropWhile Char.isDigit)

/-- Read an optionally signed decimal integer and return what follows it. -/
def readInt : List Char → Option (ℤ × List Char)
  | '-' :: cs => (readNat cs).map fun r => (-(r.1 : ℤ), r.2)
  | '+' :: cs => (readNat cs).map fun r => ((r.1 : ℤ), r.2)
  | cs => (readNat cs).map fun r => ((r.1 : ℤ), r.2)

/-- The text does not begin with a digit, so a number printed before it ends there. -/
def EndsNumber (cs : List Char) : Prop := ∀ c ∈ cs.head?, c.isDigit = false

lemma isDigit_of_mem_printNat {n : ℕ} {c : Char} (h : c ∈ printNat n) : c.isDigit = true :=
  Nat.isDigit_of_mem_toDigits (by decide) (by decide) h

lemma printNat_ne_nil (n : ℕ) : printNat n ≠ [] := Nat.toDigits_ne_nil

@[simp] lemma ofDigits_printNat (n : ℕ) : ofDigits (printNat n) = some n := by
  have hall : (printNat n).all Char.isDigit = true :=
    List.all_eq_true.mpr fun c hc => isDigit_of_mem_printNat hc
  rw [ofDigits, if_pos ⟨printNat_ne_nil n, hall⟩]
  exact congrArg some Nat.ofDigitChars_ten_toDigits

/-- A run of digits stops exactly where the printed number does. -/
lemma span_printNat (n : ℕ) {rest : List Char} (h : EndsNumber rest) :
    (printNat n ++ rest).takeWhile Char.isDigit = printNat n ∧
      (printNat n ++ rest).dropWhile Char.isDigit = rest := by
  have hall : ∀ c ∈ printNat n, c.isDigit = true := fun c hc => isDigit_of_mem_printNat hc
  cases rest with
  | nil =>
      simp only [List.append_nil]
      exact ⟨List.takeWhile_eq_self_iff.mpr hall, List.dropWhile_eq_nil_iff.mpr hall⟩
  | cons c cs =>
      have hc : c.isDigit = false := h c rfl
      constructor
      · rw [List.takeWhile_append_of_pos hall, List.takeWhile_cons_of_neg (by simp [hc]),
          List.append_nil]
      · rw [List.dropWhile_append_of_pos hall, List.dropWhile_cons_of_neg (by simp [hc])]

lemma readNat_printNat (n : ℕ) {rest : List Char} (h : EndsNumber rest) :
    readNat (printNat n ++ rest) = some (n, rest) := by
  obtain ⟨htake, hdrop⟩ := span_printNat n h
  simp only [readNat, htake, hdrop, ofDigits_printNat, Option.map_some]

/-- **Printing and reading back.**  A printed integer followed by anything that does not continue
it is read as that integer, and the reader stops right behind it. -/
theorem readInt_print (z : ℤ) {rest : List Char} (h : EndsNumber rest) :
    readInt (print z ++ rest) = some (z, rest) := by
  by_cases hz : z < 0
  · have habs : -(z.natAbs : ℤ) = z := by omega
    rw [print, if_pos hz, List.cons_append, readInt, readNat_printNat _ h, Option.map_some, habs]
  · have habs : (z.natAbs : ℤ) = z := by omega
    -- the text begins with a digit, so neither sign case of the reader applies
    obtain ⟨c, cs, hcs⟩ : ∃ c cs, printNat z.natAbs = c :: cs :=
      List.exists_cons_of_ne_nil (printNat_ne_nil _)
    have hc : c.isDigit = true := isDigit_of_mem_printNat (n := z.natAbs) (by simp [hcs])
    have hminus : c ≠ '-' := by rintro rfl; simp at hc
    have hplus : c ≠ '+' := by rintro rfl; simp at hc
    have hread : readInt (printNat z.natAbs ++ rest)
        = (readNat (printNat z.natAbs ++ rest)).map fun r => ((r.1 : ℤ), r.2) := by
      rw [hcs, List.cons_append, readInt]
      · exact fun _ hcons => hminus (List.cons.inj hcons).1
      · exact fun _ hcons => hplus (List.cons.inj hcons).1
    rw [print, if_neg hz, hread, readNat_printNat _ h, Option.map_some, habs]

end Decimal

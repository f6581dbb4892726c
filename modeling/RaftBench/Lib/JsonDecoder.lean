import RaftBench.Lib.Decimal

/-!
# Reading JSON text into dynamically typed values

The decoder of Python's `json` module, from a text to the value it stands for.  It is more liberal
than the grammar of JSON: `NaN` and the infinities are numbers, an escaped surrogate may stand
alone, and of two fields with one name the later one wins.

* `Value` — what a text is decoded to.  Strings are lists of code points, surrogates included.
* `scanOnce` — one value at the front of a text; `loads` — a whole text.

Two limits of the interpreter are parameters (`Limits`): how deep values may be nested, which is
what the scanner recurses on, and how many digits an integer may have.  What exceeds one of them is
an error of its own kind, and not a malformed text.
-/

namespace JsonDecoder

/-! ## Values -/

abbrev CodePoint := Fin 0x110000

def CodePoint.ofChar (c : Char) : CodePoint := Fin.ofNat _ c.toNat

/-- A string literal. -/
def text (s : String) : List CodePoint := s.toList.map CodePoint.ofChar

def IsHighSurrogate (c : CodePoint) : Prop := 0xD800 ≤ c.val ∧ c.val ≤ 0xDBFF

def IsLowSurrogate (c : CodePoint) : Prop := 0xDC00 ≤ c.val ∧ c.val ≤ 0xDFFF

instance (c : CodePoint) : Decidable (IsHighSurrogate c) := inferInstanceAs (Decidable (_ ∧ _))

instance (c : CodePoint) : Decidable (IsLowSurrogate c) := inferInstanceAs (Decidable (_ ∧ _))

/-- A value.  What a float stands for is not kept. -/
inductive Value where
  | none
  | bool (b : Bool)
  | int (z : ℤ)
  | float
  | str (s : List CodePoint)
  | list (items : List Value)
  | dict (fields : List (List CodePoint × Value))

/-- `d[key] = v`: a key keeps the place where it was first put. -/
def setItem (d : List (List CodePoint × Value)) (key : List CodePoint) (v : Value) :
    List (List CodePoint × Value) :=
  if key ∈ d.map Prod.fst then d.map fun e => if e.1 = key then (key, v) else e
  else d ++ [(key, v)]

/-- The fields of an object, in the order of the text. -/
def dictOf (members : List (List CodePoint × Value)) : Value :=
  .dict (members.foldl (fun d e => setItem d e.1 e.2) [])

/-! ## Errors and limits -/

inductive Error where
  /-- The text is malformed. -/
  | jsonDecode
  /-- Values are nested too deep. -/
  | recursion
  /-- An integer has too many digits. -/
  | value
  deriving DecidableEq, Repr

structure Limits where
  nesting : ℕ
  /-- 0 for no limit. -/
  intMaxStrDigits : ℕ

/-! ## Strings -/

def isBlank (c : Char) : Bool := c = ' ' ∨ c = '\t' ∨ c = '\n' ∨ c = '\r'

def skipBlanks (cs : List Char) : List Char := cs.dropWhile isBlank

def hexDigit (c : Char) : Option ℕ :=
  if '0' ≤ c ∧ c ≤ '9' then some (c.toNat - '0'.toNat)
  else if 'a' ≤ c ∧ c ≤ 'f' then some (c.toNat - 'a'.toNat + 10)
  else if 'A' ≤ c ∧ c ≤ 'F' then some (c.toNat - 'A'.toNat + 10)
  else none

/-- Four hexadecimal digits. -/
def hex4 (a b c d : Char) : Except Error CodePoint :=
  match hexDigit a, hexDigit b, hexDigit c, hexDigit d with
  | some a, some b, some c, some d => .ok (Fin.ofNat _ (((a * 16 + b) * 16 + c) * 16 + d))
  | _, _, _, _ => .error .jsonDecode

/-- What a backslash and a character stand for, other than `\u`. -/
def escape : Char → Except Error CodePoint
  | '"' => .ok (.ofChar '"')
  | '\\' => .ok (.ofChar '\\')
  | '/' => .ok (.ofChar '/')
  | 'b' => .ok (Fin.ofNat _ 8)
  | 'f' => .ok (Fin.ofNat _ 12)
  | 'n' => .ok (Fin.ofNat _ 10)
  | 'r' => .ok (Fin.ofNat _ 13)
  | 't' => .ok (Fin.ofNat _ 9)
  | _ => .error .jsonDecode

/-- The characters up to the closing quote, with escaped surrogates still apart. -/
def scanChars : List Char → Except Error (List CodePoint × List Char)
  | [] => .error .jsonDecode
  | '"' :: cs => .ok ([], cs)
  | '\\' :: 'u' :: a :: b :: c :: d :: cs => do
    let code ← hex4 a b c d
    let r ← scanChars cs
    return (code :: r.1, r.2)
  | '\\' :: e :: cs => do
    let code ← escape e
    let r ← scanChars cs
    return (code :: r.1, r.2)
  | c :: cs => do
    -- a control character has to be escaped; a backslash here is the last character of the text
    if c.toNat < 0x20 ∨ c = '\\' then throw .jsonDecode
    let r ← scanChars cs
    return (.ofChar c :: r.1, r.2)

/-- Two surrogates that belong together are one code point.  All surrogates of a text come from
escapes, since the text itself has none. -/
def joinSurrogates : List CodePoint → List CodePoint
  | high :: low :: cs =>
    if IsHighSurrogate high ∧ IsLowSurrogate low then
      Fin.ofNat _ (0x10000 + (high.val - 0xD800) * 0x400 + (low.val - 0xDC00)) :: joinSurrogates cs
    else high :: joinSurrogates (low :: cs)
  | cs => cs

/-- `scanstring`, behind the opening quote. -/
def scanString (cs : List Char) : Except Error (List CodePoint × List Char) := do
  let r ← scanChars cs
  return (joinSurrogates r.1, r.2)

/-! ## Numbers and constants -/

/-- The digits in front of the point: a single 0, or a run that does not begin with one. -/
def intDigits : List Char → Option (List Char × List Char)
  | '0' :: cs => some (['0'], cs)
  | c :: cs => if c.isDigit then some ((c :: cs).span Char.isDigit) else none
  | [] => none

/-- What is behind a fraction, if there is one. -/
def skipFraction : List Char → Option (List Char)
  | '.' :: c :: cs => if c.isDigit then some (cs.dropWhile Char.isDigit) else none
  | _ => none

/-- What is behind an exponent, if there is one. -/
def skipExponent : List Char → Option (List Char)
  | e :: cs =>
    if e = 'e' ∨ e = 'E' then
      let digits := match cs with
        | '+' :: cs => cs
        | '-' :: cs => cs
        | cs => cs
      match digits with
      | d :: ds => if d.isDigit then some (ds.dropWhile Char.isDigit) else none
      | [] => none
    else none
  | [] => none

/-- Whether there is a minus sign, and what is behind it. -/
def sign : List Char → Bool × List Char
  | '-' :: cs => (true, cs)
  | cs => (false, cs)

/-- `_match_number`. -/
def matchNumber (limits : Limits) (cs : List Char) : Except Error (Value × List Char) :=
  let (negative, unsigned) := sign cs
  match intDigits unsigned with
  | none => .error .jsonDecode
  | some (digits, rest) =>
    let fraction := skipFraction rest
    let exponent := skipExponent (fraction.getD rest)
    if fraction.isSome ∨ exponent.isSome then .ok (.float, exponent.getD (fraction.getD rest))
    else if limits.intMaxStrDigits ≠ 0 ∧ limits.intMaxStrDigits < digits.length then .error .value
    else
      let n : ℤ := Nat.ofDigitChars 10 digits 0
      .ok (.int (if negative then -n else n), rest)

def constants : List (List Char × Value) :=
  [("null".toList, .none), ("true".toList, .bool true), ("false".toList, .bool false),
   ("NaN".toList, .float), ("Infinity".toList, .float), ("-Infinity".toList, .float)]

def scanConstant (cs : List Char) : Option (Value × List Char) :=
  constants.findSome? fun e =>
    if e.1.isPrefixOf cs then some (e.2, cs.drop e.1.length) else none

/-! ## Values -/

section Containers

variable (scan : List Char → Except Error (Value × List Char))

/-- The items of an array, from the first one on.  The fuel is the length of the text: every item
takes a character, so that it runs out only where the text does. -/
def scanItems : ℕ → List Char → Except Error (List Value × List Char)
  | 0, _ => .error .jsonDecode
  | fuel + 1, cs => do
    let (v, cs) ← scan cs
    match skipBlanks cs with
    | ']' :: cs => return ([v], cs)
    | ',' :: cs =>
      let (vs, rest) ← scanItems fuel (skipBlanks cs)
      return (v :: vs, rest)
    | _ => throw .jsonDecode

/-- `_parse_array`, behind the opening bracket. -/
def parseArray (cs : List Char) : Except Error (Value × List Char) :=
  match skipBlanks cs with
  | ']' :: cs => .ok (.list [], cs)
  | cs => do
    let (vs, rest) ← scanItems scan cs.length cs
    return (.list vs, rest)

/-- The members of an object, from the first one on. -/
def scanMembers : ℕ → List Char → Except Error (List (List CodePoint × Value) × List Char)
  | 0, _ => .error .jsonDecode
  | fuel + 1, '"' :: cs => do
    let (key, cs) ← scanString cs
    match skipBlanks cs with
    | ':' :: cs =>
      let (v, cs) ← scan (skipBlanks cs)
      match skipBlanks cs with
      | '}' :: cs => return ([(key, v)], cs)
      | ',' :: cs =>
        let (members, rest) ← scanMembers fuel (skipBlanks cs)
        return ((key, v) :: members, rest)
      | _ => throw .jsonDecode
    | _ => throw .jsonDecode
  | _ + 1, _ => .error .jsonDecode

/-- `_parse_object`, behind the opening brace. -/
def parseObject (cs : List Char) : Except Error (Value × List Char) :=
  match skipBlanks cs with
  | '}' :: cs => .ok (.dict [], cs)
  | cs => do
    let (members, rest) ← scanMembers scan cs.length cs
    return (dictOf members, rest)

end Containers

/-- `scan_once`: the value at the front of a text, nested at most `depth` deep. -/
def scanOnce (limits : Limits) (depth : ℕ) (cs : List Char) : Except Error (Value × List Char) :=
  match cs with
  | '"' :: cs => do
    let (s, rest) ← scanString cs
    return (.str s, rest)
  | '[' :: cs =>
    match depth with
    | 0 => .error .recursion
    | depth + 1 => parseArray (scanOnce limits depth) cs
  | '{' :: cs =>
    match depth with
    | 0 => .error .recursion
    | depth + 1 => parseObject (scanOnce limits depth) cs
  | cs => (scanConstant cs).elim (matchNumber limits cs) .ok

/-- `json.loads`. -/
def loads (limits : Limits) (s : List Char) : Except Error Value := do
  if s.head? = some '\ufeff' then throw .jsonDecode
  let (v, rest) ← scanOnce limits limits.nesting (skipBlanks s)
  if skipBlanks rest ≠ [] then throw .jsonDecode
  return v

end JsonDecoder

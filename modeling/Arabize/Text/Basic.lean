/-! # Text as a list of code points

A `Text` is a list of Unicode code points.  Surrogates are code points here: an
escaped half of a pair can stand alone in a document, and it has to survive until
something asks for bytes.  String literals coerce to `Text`, characters to
`CodePoint`, and lists carry the operations.

The searches below work on lists from the left.  `find?` and `findLast?` answer with
the offset of an occurrence, `replaceAll` and `replaceFirst` never look at what they
have just written, and `splitOn` and `intercalate` are inverse to each other.
-/

namespace Arabize

/-- There are code points, so their numerals wrap around. -/
instance codePointsExist : @NeZero Nat Zero.ofOfNat0 0x110000 := ⟨by decide⟩

abbrev CodePoint := Fin 0x110000

abbrev Text := List CodePoint

/-- The code point with a given number; numbers past the last one wrap around. -/
def CodePoint.ofNat (n : Nat) : CodePoint := Fin.ofNat 0x110000 n

def CodePoint.ofChar (c : Char) : CodePoint := CodePoint.ofNat c.toNat

/-- The character of a code point; a surrogate has none and gives U+FFFD. -/
def CodePoint.toChar (c : CodePoint) : Char :=
  if 0xD800 ≤ c.val ∧ c.val ≤ 0xDFFF then Char.ofNat 0xFFFD else Char.ofNat c.val

/-- Surrogates are the code points that no UTF-8 text can hold. -/
def CodePoint.isSurrogate (c : CodePoint) : Bool := 0xD800 ≤ c.val && c.val ≤ 0xDFFF

/-- The upper half of a surrogate pair comes first. -/
def CodePoint.isHighSurrogate (c : CodePoint) : Bool := 0xD800 ≤ c.val && c.val ≤ 0xDBFF

/-- The lower half of a surrogate pair comes second. -/
def CodePoint.isLowSurrogate (c : CodePoint) : Bool := 0xDC00 ≤ c.val && c.val ≤ 0xDFFF

def CodePoint.isDigit (c : CodePoint) : Bool := 0x30 ≤ c.val && c.val ≤ 0x39

def CodePoint.isLowerLetter (c : CodePoint) : Bool := 0x61 ≤ c.val && c.val ≤ 0x7A

def CodePoint.isUpperLetter (c : CodePoint) : Bool := 0x41 ≤ c.val && c.val ≤ 0x5A

def CodePoint.isNameChar (c : CodePoint) : Bool :=
  c.isLowerLetter || c.isUpperLetter || c.isDigit || c.val == 0x5F

/-- The value of a hexadecimal digit of either case. -/
def CodePoint.hexValue? (c : CodePoint) : Option Nat :=
  if c.isDigit then some (c.val - 0x30)
  else if 0x61 ≤ c.val ∧ c.val ≤ 0x66 then some (c.val - 0x61 + 10)
  else if 0x41 ≤ c.val ∧ c.val ≤ 0x46 then some (c.val - 0x41 + 10)
  else none

instance : Coe Char CodePoint := ⟨CodePoint.ofChar⟩

namespace Text

def ofString (s : String) : Text := s.toList.map CodePoint.ofChar

instance : Coe String Text := ⟨ofString⟩

/-- The string of a text that holds no surrogates. -/
def toString (t : Text) : String := String.ofList (t.map CodePoint.toChar)

/-! ## Order -/

/-- Whether one text comes strictly before another in code point order. -/
def before : Text → Text → Bool
  | _, [] => false
  | [], _ :: _ => true
  | a :: s, b :: t => a < b || (a == b && before s t)

/-- Code point order, which puts a text before its extensions. -/
def le (s t : Text) : Bool := !before t s

/-- The texts of a list in increasing code point order. -/
def sort (ts : List Text) : List Text := ts.mergeSort le

/-! ## Searching -/

def startsWith (t head : Text) : Bool := head.isPrefixOf t

def after? : (t head : Text) → Option Text
  | t, [] => some t
  | [], _ :: _ => none
  | c :: t, d :: head => if c = d then after? t head else none

def find? (needle : Text) : Text → Option Nat
  | [] => if needle = [] then some 0 else none
  | c :: t =>
    if startsWith (c :: t) needle then some 0 else (find? needle t).map (· + 1)

def findLast? (needle : Text) : Text → Option Nat
  | [] => if needle = [] then some 0 else none
  | c :: t =>
    match findLast? needle t with
    | some i => some (i + 1)
    | none => if startsWith (c :: t) needle then some 0 else none

def occursIn (needle hay : Text) : Bool := (find? needle hay).isSome

/-- How often a code point occurs in a text. -/
def tally (c : CodePoint) (t : Text) : Nat := (t.filter (· == c)).length

/-! ## Replacing -/

/-- Replaces every occurrence of a non-empty text; the first argument counts the code
    points of the occurrence being replaced that are still to be passed over. -/
def replaceAllFrom (old new : Text) : Nat → Text → Text
  | _, [] => []
  | 0, c :: t =>
    if startsWith (c :: t) old then new ++ replaceAllFrom old new (old.length - 1) t
    else c :: replaceAllFrom old new 0 t
  | k + 1, _ :: t => replaceAllFrom old new k t

/-- Replaces every occurrence of a non-empty text, from the left and without overlap. -/
def replaceAll (t old new : Text) : Text := replaceAllFrom old new 0 t

/-- Replaces the first occurrence of a text, if there is one. -/
def replaceFirst (t old new : Text) : Text :=
  match find? old t with
  | some i => t.take i ++ new ++ t.drop (i + old.length)
  | none => t

/-! ## Splitting and joining -/

/-- The pieces between the occurrences of a code point; always at least one. -/
def splitOn (sep : CodePoint) : Text → List Text
  | [] => [[]]
  | c :: t =>
    if c = sep then [] :: splitOn sep t
    else
      match splitOn sep t with
      | [] => [[c]]
      | piece :: rest => (c :: piece) :: rest

/-- The pieces of a list with a separator between neighbours. -/
def intercalate (sep : Text) : List Text → Text
  | [] => []
  | [t] => t
  | t :: u :: rest => t ++ sep ++ intercalate sep (u :: rest)

/-- Writes every line break as one line feed, given whether a CR has just been seen. -/
def normalizeBreaksFrom : Bool → Text → Text
  | _, [] => []
  | afterReturn, c :: t =>
    if c = '\r' then '\n' :: normalizeBreaksFrom true t
    else if afterReturn && c == '\n' then normalizeBreaksFrom false t
    else c :: normalizeBreaksFrom false t

/-- Every line break, CR LF and a lone CR included, as one line feed. -/
def normalizeBreaks (t : Text) : Text := normalizeBreaksFrom false t

/-! ## Numerals -/

/-- The code point of a digit below sixteen, in lower case. -/
def digit (n : Nat) : CodePoint := CodePoint.ofNat (if n < 10 then 0x30 + n else 0x57 + n)

/-- A natural number in decimal, without leading zeros. -/
def ofNat (n : Nat) : Text :=
  if n < 10 then [digit n] else ofNat (n / 10) ++ [digit (n % 10)]

/-- An integer in decimal, with a minus sign when it is negative. -/
def ofInt : Int → Text
  | .ofNat n => ofNat n
  | .negSucc n => '-' :: ofNat (n + 1)

/-- A number in hexadecimal with exactly the given count of digits. -/
def hexFixed : Nat → Nat → Text
  | 0, _ => []
  | k + 1, n => hexFixed k (n / 16) ++ [digit (n % 16)]

/-- The number that a row of decimal digits stands for. -/
def decimalValue (digits : Text) : Nat := digits.foldl (fun n c => n * 10 + (c.val - 0x30)) 0

/-- The number that a row of hexadecimal digits stands for. -/
def hexValue (digits : Text) : Nat :=
  digits.foldl (fun n c => n * 16 + c.hexValue?.getD 0) 0

end Text

end Arabize

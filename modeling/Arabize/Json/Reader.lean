import Arabize.Json.Value

/-! # Reading JSON

A reader by recursive descent over the rest of the document.  It accepts the standard
grammar, the words `NaN`, `Infinity` and `-Infinity`, and any escaped surrogate; two
escapes that form a pair are joined.  A key that comes again replaces the earlier value
in its place.

The first fault ends the reading, and its place is part of the answer: an offset in code
points, and the line and column that go with it.  A whole number of more than 4300 digits
is refused with an error of another kind.
-/

namespace Arabize.Json

/-! ## Faults -/

inductive Flaw
  | byteOrderMark
  | expectingValue
  | expectingName
  | expectingColon
  | expectingComma
  | unterminatedString
  | controlCharacter
  | invalidEscape
  | invalidUnicodeEscape
  | extraData
  deriving DecidableEq, Repr

inductive ReadError
  /-- A fault at an offset, with the line and the column of that offset. -/
  | malformed (flaw : Flaw) (line column offset : Nat)
  | numeralTooLong (digits : Nat)
  deriving DecidableEq, Repr

def Flaw.message : Flaw → Text
  | .byteOrderMark => "Unexpected UTF-8 BOM (decode using utf-8-sig)"
  | .expectingValue => "Expecting value"
  | .expectingName => "Expecting property name enclosed in double quotes"
  | .expectingColon => "Expecting ':' delimiter"
  | .expectingComma => "Expecting ',' delimiter"
  | .unterminatedString => "Unterminated string starting at"
  | .controlCharacter => "Invalid control character at"
  | .invalidEscape => "Invalid \\escape"
  | .invalidUnicodeEscape => "Invalid \\uXXXX escape"
  | .extraData => "Extra data"

/-- How many digits a whole number may have. -/
def maxDigits : Nat := 4300

def ReadError.message : ReadError → Text
  | .malformed flaw line column offset =>
    flaw.message ++ ": line " ++ Text.ofNat line ++ " column " ++ Text.ofNat column
      ++ " (char " ++ Text.ofNat offset ++ ")"
  | .numeralTooLong digits =>
    "Exceeds the limit (" ++ Text.ofNat maxDigits
      ++ " digits) for integer string conversion: value has " ++ Text.ofNat digits
      ++ " digits; use sys.set_int_max_str_digits() to increase the limit"

/-- A fault before its line and column are known. -/
inductive Fault
  | at (flaw : Flaw) (offset : Nat)
  | numeralTooLong (digits : Nat)
  deriving DecidableEq, Repr

/-- The line of an offset, counted from one. -/
def lineAt (doc : Text) (offset : Nat) : Nat := Text.tally '\n' (doc.take offset) + 1

/-- The column of an offset, counted from one. -/
def columnAt (doc : Text) (offset : Nat) : Nat :=
  ((doc.take offset).reverse.takeWhile (· != CodePoint.ofChar '\n')).length + 1

/-- Finds the line and the column of a fault. -/
def Fault.locate (doc : Text) : Fault → ReadError
  | .at flaw offset => .malformed flaw (lineAt doc offset) (columnAt doc offset) offset
  | .numeralTooLong digits => .numeralTooLong digits

/-! ## Reading the parts -/

def isSpace (c : CodePoint) : Bool :=
  c.val == 0x20 || c.val == 0x0A || c.val == 0x0D || c.val == 0x09

/-- What is left to read, and how much was read before it. -/
structure Cursor where
  rest : Text
  offset : Nat

def Cursor.advance (cur : Cursor) (n : Nat) : Cursor := ⟨cur.rest.drop n, cur.offset + n⟩

def Cursor.skipSpaces (cur : Cursor) : Cursor :=
  cur.advance (cur.rest.takeWhile isSpace).length

def Cursor.peek? (cur : Cursor) : Option CodePoint := cur.rest.head?

def hex4? : Text → Option Nat
  | a :: b :: c :: d :: _ => do
    return (((← a.hexValue?) * 16 + (← b.hexValue?)) * 16 + (← c.hexValue?)) * 16
      + (← d.hexValue?)
  | _ => none

/-- What the letter of a short escape stands for. -/
def unescape? (c : CodePoint) : Option CodePoint :=
  if c = '"' ∨ c = '\\' ∨ c = '/' then some c
  else if c = 'b' then some 0x08
  else if c = 'f' then some 0x0C
  else if c = 'n' then some '\n'
  else if c = 'r' then some '\r'
  else if c = 't' then some '\t'
  else none

def joinPair (high low : Nat) : Nat := 0x10000 + (high - 0xD800) * 0x400 + (low - 0xDC00)

/-- Reads the four digits of an escape and, if they are the upper half of a pair, the escape
    of the lower half behind them.  `t` starts after the `u`, at `offset`; a further escape
    counts only if something follows its last digit.  Gives the code point and the
    number of code points read. -/
def readUnicodeEscape (t : Text) (offset : Nat) : Except Fault (CodePoint × Nat) :=
  if t.length ≤ 4 then .error (.at .invalidUnicodeEscape (offset - 1))
  else
    match hex4? t with
    | none => .error (.at .invalidUnicodeEscape (offset - 1))
    | some high =>
      let second := t.drop 4
      if (CodePoint.ofNat high).isHighSurrogate && 6 < second.length
          && Text.startsWith second "\\u" then
        match hex4? (second.drop 2) with
        | none => .error (.at .invalidUnicodeEscape (offset + 5))
        | some low =>
          if (CodePoint.ofNat low).isLowSurrogate then
            .ok (CodePoint.ofNat (joinPair high low), 10)
          else .ok (CodePoint.ofNat high, 4)
      else .ok (CodePoint.ofNat high, 4)

/-- Reads the rest of a string, passing first over `skip` code points of an escape already
    read.  `start` is the offset of the opening quote.  Gives the text and what follows the
    closing quote. -/
def readString (start : Nat) : (skip offset : Nat) → Text → Except Fault (Text × Cursor)
  | _, _, [] => .error (.at .unterminatedString start)
  | skip + 1, offset, _ :: t => readString start skip (offset + 1) t
  | 0, offset, c :: t =>
    if c = '"' then .ok ([], ⟨t, offset + 1⟩)
    else if c = '\\' then
      match t with
      | [] => .error (.at .unterminatedString start)
      | d :: u =>
        -- An escape is read as a whole, and what it takes of the text is passed over then.
        if d = 'u' then
          match readUnicodeEscape u (offset + 2) with
          | .error e => .error e
          | .ok (x, width) =>
            match readString start (width + 1) (offset + 1) (d :: u) with
            | .error e => .error e
            | .ok (s, cur) => .ok (x :: s, cur)
        else
          match unescape? d with
          | none => .error (.at .invalidEscape offset)
          | some x =>
            match readString start 1 (offset + 1) (d :: u) with
            | .error e => .error e
            | .ok (s, cur) => .ok (x :: s, cur)
    else if c.val < 0x20 then .error (.at .controlCharacter offset)
    else
      match readString start 0 (offset + 1) t with
      | .error e => .error e
      | .ok (s, cur) => .ok (c :: s, cur)

/-- The parts of a numeral: its sign, its whole digits, the digits behind the point and the
    exponent, as far as they are there, and how long it is. -/
structure Numeral where
  negative : Bool
  whole : Text
  /-- The digits behind the point; none if there is no point. -/
  fraction : Text
  exponent : Option Int
  length : Nat

/-- The exponent that starts a text, with its length; a mark without digits is none. -/
def readExponent? : Text → Option (Int × Nat)
  | [] => none
  | c :: t =>
    if c = 'e' ∨ c = 'E' then
      let signed := match t with
        | d :: _ => d == '-' || d == '+'
        | [] => false
      let digits := (if signed then t.drop 1 else t).takeWhile CodePoint.isDigit
      if digits = [] then none
      else
        let n : Int := Text.decimalValue digits
        let negative := t.head? == some (CodePoint.ofChar '-')
        some (if negative then -n else n, 1 + (if signed then 1 else 0) + digits.length)
    else none

def readNumeral? (t : Text) : Option Numeral :=
  let negative := t.head? == some (CodePoint.ofChar '-')
  let body := if negative then t.drop 1 else t
  -- A leading zero is a whole part of its own.
  let whole :=
    if body.head? == some (CodePoint.ofChar '0') then body.take 1
    else body.takeWhile CodePoint.isDigit
  if whole = [] then none
  else
    let rest := body.drop whole.length
    let fraction :=
      if rest.head? == some (CodePoint.ofChar '.') then
        (rest.drop 1).takeWhile CodePoint.isDigit
      else []
    -- A point without a digit behind it is not part of the numeral.
    let rest := if fraction = [] then rest else rest.drop (1 + fraction.length)
    let exponent := readExponent? rest
    let width := (if negative then 1 else 0) + whole.length
      + (if fraction = [] then 0 else 1 + fraction.length)
      + (match exponent with
        | some (_, n) => n
        | none => 0)
    some ⟨negative, whole, fraction, exponent.map Prod.fst, width⟩

/-- The value of a numeral: a whole number when it has neither point nor exponent. -/
def Numeral.value (n : Numeral) : Except Fault Json :=
  if n.fraction = [] ∧ n.exponent = none then
    if maxDigits < n.whole.length then .error (.numeralTooLong n.whole.length)
    else
      let v : Int := Text.decimalValue n.whole
      .ok (.int (if n.negative then -v else v))
  else
    let digits := (n.whole ++ n.fraction).dropWhile (· == CodePoint.ofChar '0')
    .ok (.float (Binary64.ofDecimal n.negative (Text.decimalValue digits) digits.length
      (n.exponent.getD 0 - n.fraction.length)))

def words : List (Text × Json) :=
  [("null", .null), ("true", .bool true), ("false", .bool false), ("NaN", .float .undefined),
   ("Infinity", .float (.infinite false)), ("-Infinity", .float (.infinite true))]

/-- The value of the word that starts a text, with its length. -/
def readWord? (t : Text) : Option (Json × Nat) :=
  (words.find? fun w => Text.startsWith t w.1).map fun w => (w.2, w.1.length)

def readScalar (cur : Cursor) : Except Fault (Json × Cursor) :=
  match readWord? cur.rest with
  | some (j, n) => .ok (j, cur.advance n)
  | none =>
    match readNumeral? cur.rest with
    | none => .error (.at .expectingValue cur.offset)
    | some n =>
      match n.value with
      | .ok j => .ok (j, cur.advance n.length)
      | .error e => .error e

/-! ## Reading values

The fuel bounds the values, fields and items that are open or were read one behind the
other; every two of them take at least one code point, so twice the length of the document
always suffices. -/

mutual

def readValue : Nat → Cursor → Except Fault (Json × Cursor)
  | 0, cur => .error (.at .expectingValue cur.offset)
  | fuel + 1, cur =>
    match cur.rest with
    | [] => .error (.at .expectingValue cur.offset)
    | c :: t =>
      if c = '"' then
        match readString cur.offset 0 (cur.offset + 1) t with
        | .error e => .error e
        | .ok (s, cur) => .ok (.str s, cur)
      else if c = '\x7b' then
        let cur := (cur.advance 1).skipSpaces
        if cur.peek? = some '\x7d' then .ok (.obj [], cur.advance 1)
        else readFields fuel [] cur
      else if c = '[' then
        let cur := (cur.advance 1).skipSpaces
        if cur.peek? = some ']' then .ok (.arr [], cur.advance 1)
        else readItems fuel [] cur
      else readScalar cur

/-- Reads the fields of an object up to its closing brace, behind those already read. -/
def readFields : Nat → Mapping Json → Cursor → Except Fault (Json × Cursor)
  | 0, _, cur => .error (.at .expectingName cur.offset)
  | fuel + 1, seen, cur =>
    if cur.peek? ≠ some '"' then .error (.at .expectingName cur.offset)
    else
      match readString cur.offset 0 (cur.offset + 1) (cur.rest.drop 1) with
      | .error e => .error e
      | .ok (key, cur) =>
        let cur := cur.skipSpaces
        if cur.peek? ≠ some ':' then .error (.at .expectingColon cur.offset)
        else
          match readValue fuel (cur.advance 1).skipSpaces with
          | .error e => .error e
          | .ok (value, cur) =>
            let seen := Mapping.insert key value seen
            let cur := cur.skipSpaces
            if cur.peek? = some '\x7d' then .ok (.obj seen, cur.advance 1)
            else if cur.peek? ≠ some ',' then .error (.at .expectingComma cur.offset)
            else readFields fuel seen (cur.advance 1).skipSpaces

/-- Reads the items of an array up to its closing bracket, behind those already read, which
    are listed from the last to the first. -/
def readItems : Nat → List Json → Cursor → Except Fault (Json × Cursor)
  | 0, _, cur => .error (.at .expectingValue cur.offset)
  | fuel + 1, seen, cur =>
    match readValue fuel cur with
    | .error e => .error e
    | .ok (value, cur) =>
      let seen := value :: seen
      let cur := cur.skipSpaces
      if cur.peek? = some ']' then .ok (.arr seen.reverse, cur.advance 1)
      else if cur.peek? ≠ some ',' then .error (.at .expectingComma cur.offset)
      else readItems fuel seen (cur.advance 1).skipSpaces

end

/-- Reads a whole document: one value with blanks around it. -/
def readDocument (doc : Text) : Except Fault Json :=
  if doc.head? = some 0xFEFF then .error (.at .byteOrderMark 0)
  else
    match readValue (2 * doc.length + 2) (Cursor.mk doc 0).skipSpaces with
    | .error e => .error e
    | .ok (j, cur) =>
      let cur := cur.skipSpaces
      if cur.rest = [] then .ok j else .error (.at .extraData cur.offset)

/-- The value of a document, or the first fault with its place. -/
def read (doc : Text) : Except ReadError Json :=
  match readDocument doc with
  | .ok j => .ok j
  | .error e => .error (e.locate doc)

end Arabize.Json

import Arabize.Script.Grammar.Blank
import Arabize.Script.Grammar.Rule

/-! # How long tokens are

Every kind of token that is not spelled in one way only has a measure: how many code points
of it start a text, none at all if the text starts with something else.
-/

namespace Arabize.Script.Grammar

/-- How many code points of a kind start a text. -/
def runLength (p : CodePoint → Bool) (t : Text) : Nat := (t.takeWhile p).length

def longer (a b : Nat) : Nat := if a < b then b else a

/-- Whether a code point is a hexadecimal digit. -/
def isHexDigit (c : CodePoint) : Bool := c.hexValue?.isSome

/-- Whether a code point is a digit of a number in base two. -/
def isBinaryDigit (c : CodePoint) : Bool := 0x30 ≤ c.val && c.val ≤ 0x31

/-- Whether a code point is a digit of a number in base eight. -/
def isOctalDigit (c : CodePoint) : Bool := 0x30 ≤ c.val && c.val ≤ 0x37

/-- Whether a text starts with the given count of hexadecimal digits. -/
def startsHex (n : Nat) (t : Text) : Bool := (t.take n).length == n && (t.take n).all isHexDigit

/-! ## Names -/

/-- How long the escape by a number is that starts a text, behind the backslash and the
    letter: four digits, or any number of them between braces. -/
def numberedEscapeLength (t : Text) : Nat :=
  let digits := runLength isHexDigit (t.drop 1)
  if startsHex 4 t then 4
  else if t.head? = some '\x7b' ∧ digits ≠ 0 ∧ (t.drop (digits + 1)).head? = some '\x7d' then
    digits + 2
  else 0

/-- How long the escape in a name is that starts a text. -/
def nameEscapeLength (t : Text) : Nat :=
  if Text.startsWith t "\\u" then
    match numberedEscapeLength (t.drop 2) with
    | 0 => 0
    | n => n + 2
  else 0

/-- How many parts of a name start a text; the first argument counts what is still to be
    passed over of an escape. -/
def namePartsLength : Nat → Text → Nat
  | _, [] => 0
  | skip + 1, _ :: t => namePartsLength skip t + 1
  | 0, c :: t =>
    if isNamePart c then namePartsLength 0 t + 1
    else
      match nameEscapeLength (c :: t) with
      | 0 => 0
      | n + 1 => namePartsLength n t + 1

/-- How long the name is that starts a text. -/
def nameLength (t : Text) : Nat :=
  if t.head?.any CodePoint.isDigit then 0 else namePartsLength 0 t

/-- How long the private name is that starts a text. -/
def privateNameLength (t : Text) : Nat :=
  if t.head? = some '#' then
    match nameLength (t.drop 1) with
    | 0 => 0
    | n => n + 1
  else 0

/-- How long the name with dashes is that starts a text. -/
def dashedNameLength (t : Text) : Nat :=
  let isPart (c : CodePoint) : Bool := c.isNameChar || c.val == 0x24
  let n := runLength isPart t
  if n ≠ 0 ∧ t.head?.any CodePoint.isDigit = false ∧ (t.drop n).head? = some '-' then
    n + runLength (fun c => isPart c || c.val == 0x2D) (t.drop n)
  else 0

/-! ## Numbers -/

/-- How many further digits start a text; one underscore may stand before each. -/
def moreDigitsLength (isDigit : CodePoint → Bool) : Text → Nat
  | [] => 0
  | c :: t =>
    if isDigit c || (c.val == 0x5F && t.head?.any isDigit) then moreDigitsLength isDigit t + 1
    else 0

/-- How many digits, underscores between them included, start a text. -/
def digitsLength (isDigit : CodePoint → Bool) (t : Text) : Nat :=
  if t.head?.any isDigit then moreDigitsLength isDigit t else 0

/-- A length with the mark of a large number, if that follows. -/
def withLargeMark (t : Text) (n : Nat) : Nat :=
  if n ≠ 0 ∧ (t.drop n).head? = some 'n' then n + 1 else n

/-- How long the exponent is that starts a text. -/
def exponentLength : Text → Nat
  | [] => 0
  | c :: t =>
    if c = 'e' ∨ c = 'E' then
      let sign := if t.head? = some '+' ∨ t.head? = some '-' then 1 else 0
      match digitsLength CodePoint.isDigit (t.drop sign) with
      | 0 => 0
      | n => 1 + sign + n
    else 0

/-- How long the whole part is that a fraction or an exponent may follow: at most one zero
    may lead it. -/
def wholePartLength (t : Text) : Nat :=
  let n := digitsLength CodePoint.isDigit t
  if t.head? ≠ some '0' then n
  else if (t.drop 1).head?.any fun c => c.isDigit && c.val != 0x30 then n
  else 1

/-- How long the number of a base is that starts a text, behind a zero and one of two
    letters. -/
def basedLength (small large : Char) (isDigit : CodePoint → Bool) (t : Text) : Nat :=
  if Text.startsWith t ['0', small] || Text.startsWith t ['0', large] then
    match digitsLength isDigit (t.drop 2) with
    | 0 => 0
    | n => withLargeMark t (n + 2)
  else 0

/-- How long the number with a point is that starts a text. -/
def fractionLength (t : Text) : Nat :=
  let whole := wholePartLength t
  if (t.drop whole).head? = some '.' then
    let fraction := digitsLength CodePoint.isDigit (t.drop (whole + 1))
    if whole = 0 ∧ fraction = 0 then 0
    else whole + 1 + fraction + exponentLength (t.drop (whole + 1 + fraction))
  else 0

/-- How long the number is that starts a text. -/
def numberLength (t : Text) : Nat :=
  let whole := wholePartLength t
  let scaled :=
    match whole, exponentLength (t.drop whole) with
    | 0, _ => 0
    | _, 0 => 0
    | _, n => whole + n
  [basedLength 'x' 'X' isHexDigit t, basedLength 'b' 'B' isBinaryDigit t,
    basedLength 'o' 'O' isOctalDigit t,
    withLargeMark t (digitsLength CodePoint.isDigit t), fractionLength t, scaled].foldl longer 0

/-! ## Strings, templates and regular expressions -/

/-- How long the escape is that starts a text. -/
def escapeLength : Text → Nat
  | c :: d :: t =>
    if c ≠ '\\' then 0
    else if d = 'x' then if startsHex 2 t then 4 else 0
    else if d = 'u' then
      match numberedEscapeLength t with
      | 0 => 0
      | n => n + 2
    else if isOctalDigit d then 2 + runLength isOctalDigit (t.take 2)
    else if (d = '\r' ∨ d = '?') ∧ t.head?.any isBreak then 3
    else 2
  | _ => 0

/-- How long the body of a regular expression is that starts a text: a slash in a class does
    not close it.  The first argument counts what is still to be passed over of an escape;
    the last one is the length so far, the one after it the length up to the last class that
    has been closed, if one is open. -/
def regexBodyLength : (skip : Nat) → Text → (open? : Option Nat) → Nat → Nat
  | _, [], open?, n => open?.getD n
  | skip + 1, _ :: t, open?, n => regexBodyLength skip t open? (n + 1)
  | 0, c :: t, open?, n =>
    if c = '\n' then open?.getD n
    else if c = '\\' then
      if t = [] ∨ t.head? = some '\n' then open?.getD n else regexBodyLength 1 t open? (n + 1)
    else
      match open? with
      | some closed => regexBodyLength 0 t (if c = ']' then none else some closed) (n + 1)
      | none =>
        if c = '/' then n
        else if c = '[' then regexBodyLength 0 t (some n) (n + 1)
        else regexBodyLength 0 t none (n + 1)

/-- How many code points of a string in the given quotes start a text. -/
def quotedTextLength (quote : CodePoint) : Text → Nat :=
  runLength fun c => c != quote && c.val != 0x5C && c.val != 0x0A && c.val != 0x0D

/-- How many code points of a template start a text, up to its end, an escape or a
    substitution; none if the text ends before. -/
def templateTextLength : Text → Option Nat
  | [] => none
  | c :: t =>
    if c = '`' ∨ c = '\\' ∨ (c = '$' ∧ t.head? = some '\x7b') then some 0
    else if c.val = 0 then none
    else (templateTextLength t).map (· + 1)

/-! ## Elements -/

/-- How long the reference to a character is that starts a text. -/
def referenceLength (t : Text) : Nat :=
  let ended (opening most n : Nat) : Nat :=
    if 1 ≤ n ∧ n ≤ most ∧ (t.drop (opening + n)).head? = some ';' then opening + n + 1 else 0
  if Text.startsWith t "&#x" || Text.startsWith t "&#X" then
    ended 3 6 (runLength isHexDigit (t.drop 3))
  else if Text.startsWith t "&#" then ended 2 5 (runLength CodePoint.isDigit (t.drop 2))
  else if Text.startsWith t "&" then ended 1 30 (runLength isLatinLetter (t.drop 1))
  else 0

/-- How many code points of an attribute's value in the given quotes start a text.  An
    ampersand before a letter or a number sign starts a reference; any other one takes the
    next code point with it. -/
def attributeTextLength (quote : CodePoint) : (skip : Nat) → Text → Nat
  | _, [] => 0
  | skip + 1, _ :: t => attributeTextLength quote skip t + 1
  | 0, c :: t =>
    if c = quote then 0
    else if c = '&' then
      match t with
      | [] => 0
      | d :: _ =>
        if isLatinLetter d || d == CodePoint.ofChar '#' then 0
        else attributeTextLength quote 1 t + 1
    else attributeTextLength quote 0 t + 1

/-- Code points that end a stretch of text between tags. -/
def endsText (c : CodePoint) : Bool := (Text.ofString "<>\x7b\x7d&\x00").contains c

/-- Whether a stretch holds more than line breaks and the blanks behind them, given whether
    only such blanks have been seen since the last break. -/
def hasText : (atBreak : Bool) → Text → Bool
  | _, [] => false
  | atBreak, c :: t =>
    if c = '\n' then hasText true t else if atBreak && isSpace c then hasText true t else true

/-- How long the text between tags is that starts a text; one of line breaks and indentation
    is none. -/
def elementTextLength (t : Text) : Nat :=
  let stretch := t.takeWhile fun c => !endsText c
  if hasText false stretch then stretch.length else 0

/-- How long the words `static` and `get` in front of a line break are, if they start a
    text. -/
def staticGetLength (t : Text) : Nat :=
  let word : Text := "static"
  if Text.startsWith t word then
    let gap := runLength isBlank (t.drop word.length)
    let behind := t.drop (word.length + gap)
    let blanks := (behind.drop 3).takeWhile isBlank
    let upToBreak := (blanks.reverse.dropWhile fun c => c != CodePoint.ofChar '\n').length
    if gap ≠ 0 ∧ Text.startsWith behind "get" ∧ upToBreak ≠ 0 then
      word.length + gap + 3 + upToBreak
    else 0
  else 0

/-! ## All kinds -/

/-- How many code points of a kind of token start a text. -/
def Lexeme.measure (l : Lexeme) (t : Text) : Nat :=
  match l with
  | .name => nameLength t
  | .privateName => privateNameLength t
  | .number => numberLength t
  | .doubleQuotedText => quotedTextLength '"' t
  | .singleQuotedText => quotedTextLength '\'' t
  | .escape => escapeLength t
  | .regexBody => regexBodyLength 0 t none 0
  | .regexEnd => if t.head? = some '/' then 1 else 0
  | .regexFlags => runLength CodePoint.isLowerLetter t
  | .reference => referenceLength t
  | .dashedName => dashedNameLength t
  | .doubleQuotedValue => attributeTextLength '"' 0 t
  | .singleQuotedValue => attributeTextLength '\'' 0 t
  | .staticGet => staticGetLength t
  | .interpreterLine => if Text.startsWith t "#!" then runLength (· != '\n') t else 0
  | .elementText => elementTextLength t
  | .templateText => (templateTextLength t).getD 0
  | .memberName | .lineEnd | .signatureEnd | .questionMark => 0

end Arabize.Script.Grammar

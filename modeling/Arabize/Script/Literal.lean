import Arabize.Text.Basic

/-! # String literals

The body of a string or template literal spells a text with escapes: `decode` reads it,
`encode` writes a text between the quotes it is to stand in.  A code point given by a
number past the last one stays as it is spelled; a number past 31 bits is an error.  Two
escaped halves of a surrogate pair become one code point, a half that stands alone
becomes U+FFFD.

Attributes of elements have no escapes: there the quote is written as an entity.
-/

namespace Arabize.Script.Literal

/-! ## Reading -/

/-- The greatest number that an escape may give. -/
def maxEscape : Nat := 0x7FFFFFFF

/-- An escape that gives a number past `maxEscape`. -/
structure NumberTooLarge where
  number : Nat
  deriving DecidableEq, Repr

/-- What the code point behind a backslash stands for: a control, nothing at the end of a
    line, or itself. -/
def simpleEscape (c : CodePoint) : Text :=
  if c = 'n' then [0x0A]
  else if c = 't' then [0x09]
  else if c = 'r' then [0x0D]
  else if c = 'b' then [0x08]
  else if c = 'f' then [0x0C]
  else if c = 'v' then [0x0B]
  else if c = '0' then [0x00]
  else if c.val = 0x0A ∨ c.val = 0x0D ∨ c.val = 0x2028 ∨ c.val = 0x2029 then []
  else [c]

/-- The digits between braces that start a text. -/
def bracedDigits? : Text → Option Text
  | [] => none
  | c :: t =>
    let digits := t.takeWhile fun d => d.hexValue?.isSome
    if c = '\x7b' ∧ digits ≠ [] ∧ (t.drop digits.length).head? = some '\x7d' then some digits
    else none

/-- The given count of hexadecimal digits that start a text. -/
def fixedDigits? (n : Nat) (t : Text) : Option Text :=
  let digits := t.take n
  if digits.length = n ∧ digits.all (fun d => d.hexValue?.isSome) then some digits else none

/-- The escape behind a backslash: what it stands for and how long it is. -/
def readEscape (c : CodePoint) (t : Text) : Except NumberTooLarge (Text × Nat) :=
  if c = 'u' then
    match bracedDigits? t with
    | some digits =>
      let n := Text.hexValue digits
      if maxEscape < n then .error ⟨n⟩
      -- A number past the last code point is kept as it is written.
      else if 0x10FFFF < n then .ok ('\\' :: c :: t.take (digits.length + 2), digits.length + 3)
      else .ok ([CodePoint.ofNat n], digits.length + 3)
    | none =>
      match fixedDigits? 4 t with
      | some digits => .ok ([CodePoint.ofNat (Text.hexValue digits)], 5)
      | none => .ok ([c], 1)
  else if c = 'x' then
    match fixedDigits? 2 t with
    | some digits => .ok ([CodePoint.ofNat (Text.hexValue digits)], 3)
    | none => .ok ([c], 1)
  -- An escaped line break stands for nothing, in either spelling.
  else if c.val = 0x0D ∧ t.head? = some 0x0A then .ok ([], 2)
  else .ok (simpleEscape c, 1)

/-- Replaces the escapes of a body, passing first over `skip` code points of an escape
    already replaced. -/
def replaceEscapes : (skip : Nat) → Text → Except NumberTooLarge Text
  | _, [] => .ok []
  | skip + 1, _ :: t => replaceEscapes skip t
  | 0, c :: t =>
    if c = '\\' then
      match t with
      | [] => .ok [c]
      | d :: u =>
        match readEscape d u with
        | .error e => .error e
        | .ok (meaning, width) =>
          match replaceEscapes width (d :: u) with
          | .error e => .error e
          | .ok rest => .ok (meaning ++ rest)
    else
      match replaceEscapes 0 t with
      | .error e => .error e
      | .ok rest => .ok (c :: rest)

/-- A code point with a lone surrogate replaced. -/
def replaceLone (c : CodePoint) : CodePoint := if c.isSurrogate then 0xFFFD else c

/-- Joins the surrogate pairs of a text and replaces the surrogates that stand alone. -/
def joinSurrogates : Text → Text
  | [] => []
  | [c] => [replaceLone c]
  | c :: d :: t =>
    if c.isHighSurrogate && d.isLowSurrogate then
      CodePoint.ofNat (0x10000 + (c.val - 0xD800) * 0x400 + (d.val - 0xDC00)) :: joinSurrogates t
    else replaceLone c :: joinSurrogates (d :: t)

/-- The text that the body of a literal spells. -/
def decode (body : Text) : Except NumberTooLarge Text :=
  match replaceEscapes 0 body with
  | .error e => .error e
  | .ok t => .ok (joinSurrogates t)

/-! ## Writing -/

/-- Puts a text in the place of every occurrence of a code point. -/
def substitute (c : CodePoint) (new t : Text) : Text :=
  t.flatMap fun d => if d = c then new else [d]

/-- A text as a literal in the given quotes. -/
def encode (quote : CodePoint) (t : Text) : Text :=
  let t := substitute '\\' "\\\\" t
  let t := substitute quote ['\\', quote] t
  let t :=
    if quote = '`' then Text.replaceAll t "$\x7b" "\\$\x7b"
    else substitute '\r' "\\r" (substitute '\n' "\\n" t)
  quote :: t ++ [quote]

/-- A text as the value of an element's attribute in the given quotes. -/
def encodeAttribute (quote : CodePoint) (t : Text) : Text :=
  let entity : Text := if quote = '"' then "&quot;" else "&apos;"
  quote :: substitute quote entity t ++ [quote]

end Arabize.Script.Literal

import Arabize.Text.Lower
import Arabize.Text.ClassTable

/-! # Word characters, decimal digits and quoted texts

A quoted text stands in messages where a reader has to see every code point: it is
delimited by single quotes unless only double quotes avoid an escape, a backslash
protects the delimiter and itself, and what cannot be printed is written by its number.
-/

namespace Arabize

def CodePoint.isWordChar (c : CodePoint) : Bool :=
  c.isNameChar || (0x80 ≤ c.val && inRanges Text.alphanumericRanges c.val)

def CodePoint.isDecimal (c : CodePoint) : Bool :=
  Text.decimalZeros.any fun first => first ≤ c.val && c.val ≤ first + 9

/-- Whether a code point shows as itself in a quoted text. -/
def CodePoint.isPrintable (c : CodePoint) : Bool :=
  (0x20 ≤ c.val && c.val ≤ 0x7E) || (0x80 ≤ c.val && !inRanges Text.unprintableRanges c.val)

namespace Text

/-- A code point by its number: two, four or eight digits, the fewest that suffice. -/
def escapeByNumber (c : CodePoint) : Text :=
  if c.val < 0x100 then '\\' :: 'x' :: hexFixed 2 c.val
  else if c.val < 0x10000 then '\\' :: 'u' :: hexFixed 4 c.val
  else '\\' :: 'U' :: hexFixed 8 c.val

def quotedChar (delimiter c : CodePoint) : Text :=
  if c = delimiter ∨ c = '\\' then ['\\', c]
  else if c = '\t' then "\\t"
  else if c = '\n' then "\\n"
  else if c = '\r' then "\\r"
  else if c.isPrintable then [c]
  else escapeByNumber c

/-- A text in quotes, every code point of it visible. -/
def quoted (t : Text) : Text :=
  let single : CodePoint := '\''
  let double : CodePoint := '"'
  let delimiter := if t.contains single && !t.contains double then double else single
  delimiter :: t.flatMap (quotedChar delimiter) ++ [delimiter]

end Text

end Arabize

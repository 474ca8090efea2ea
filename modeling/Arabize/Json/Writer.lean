import Arabize.Json.Value

/-! # Writing JSON

`Json.write` lays a document out over lines, two spaces to a level, and writes every
code point past ASCII as itself; `Json.writeAscii` does the same with an escape for each
of them.  A whole number is written exactly, any other number with the fewest digits that
read back; infinities and what is not a number have words of their own.
-/

namespace Arabize.Json

/-- Doubles are written without an exponent from `0.0001` up to below `1e16`. -/
def numberLayout : Number.Layout := ⟨-3, 16, "Infinity", "NaN"⟩

/-- The escape of a code point that has a letter of its own. -/
def shortEscape? (c : CodePoint) : Option CodePoint :=
  if c = '"' then some '"'
  else if c = '\\' then some '\\'
  else if c = '\n' then some 'n'
  else if c = '\r' then some 'r'
  else if c = '\t' then some 't'
  else if c.val = 0x0C then some 'f'
  else if c.val = 0x08 then some 'b'
  else none

def unicodeEscape (n : Nat) : Text := '\\' :: 'u' :: Text.hexFixed 4 n

def writeChar (c : CodePoint) : Text :=
  match shortEscape? c with
  | some e => ['\\', e]
  | none => if c.val < 0x20 then unicodeEscape c.val else [c]

/-- One code point of a string that is to be ASCII: past the first plane it takes a pair of
    escapes. -/
def writeCharAscii (c : CodePoint) : Text :=
  match shortEscape? c with
  | some e => ['\\', e]
  | none =>
    if 0x20 ≤ c.val ∧ c.val < 0x7F then [c]
    else if c.val < 0x10000 then unicodeEscape c.val
    else
      unicodeEscape (0xD800 + (c.val - 0x10000) / 0x400)
        ++ unicodeEscape (0xDC00 + (c.val - 0x10000) % 0x400)

def quoteMark : Text := "\""

def writeText (t : Text) : Text := quoteMark ++ t.flatMap writeChar ++ quoteMark

def writeTextAscii (t : Text) : Text := quoteMark ++ t.flatMap writeCharAscii ++ quoteMark

/-- What stands between a key and its value. -/
def keyMark : Text := ": "

/-- A line break and the blanks of a level. -/
def newline (level : Nat) : Text := '\n' :: List.replicate (2 * level) 0x20

mutual

/-- A value at a level of nesting, strings written by `quote`. -/
def writeAt (quote : Text → Text) (level : Nat) : Json → Text
  | .null => "null"
  | .bool true => "true"
  | .bool false => "false"
  | .int n => Text.ofInt n
  | .float x => numberLayout.double x
  | .str t => quote t
  | .arr [] => "[]"
  | .arr (x :: xs) =>
    Text.ofString "[" ++ newline (level + 1) ++ writeAt quote (level + 1) x
      ++ writeItems quote (level + 1) xs ++ newline level ++ Text.ofString "]"
  | .obj [] => "\x7b\x7d"
  | .obj ((k, v) :: fs) =>
    Text.ofString "\x7b" ++ newline (level + 1) ++ quote k ++ keyMark
      ++ writeAt quote (level + 1) v ++ writeFields quote (level + 1) fs ++ newline level
      ++ Text.ofString "\x7d"

/-- The items of an array after the first, each behind its comma. -/
def writeItems (quote : Text → Text) (level : Nat) : List Json → Text
  | [] => []
  | x :: xs =>
    Text.ofString "," ++ newline level ++ writeAt quote level x ++ writeItems quote level xs

/-- The fields of an object after the first, each behind its comma. -/
def writeFields (quote : Text → Text) (level : Nat) : List (Text × Json) → Text
  | [] => []
  | (k, v) :: fs =>
    Text.ofString "," ++ newline level ++ quote k ++ keyMark ++ writeAt quote level v
      ++ writeFields quote level fs

end

def write (j : Json) : Text := writeAt writeText 0 j

/-- A document laid out over lines, in ASCII. -/
def writeAscii (j : Json) : Text := writeAt writeTextAscii 0 j

def ofTexts (m : Mapping Text) : Json := .obj (textValues m)

end Arabize.Json

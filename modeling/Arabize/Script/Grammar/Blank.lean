import Arabize.Text.Quoted
import Arabize.Text.Lower

/-! # Blanks and comments

Blanks and comments may stand between any two tokens.  Two sets of blanks are in use: all
that may stand between tokens, and the fewer ones that are passed over while the lexer
looks ahead for the end of a line.
-/

namespace Arabize.Script.Grammar

def isBlank (c : CodePoint) : Bool :=
  let n := c.val
  (0x09 ≤ n && n ≤ 0x0D) || n == 0x20 || n == 0x85 || n == 0xA0 || n == 0x1680
    || (0x2000 ≤ n && n ≤ 0x200B) || n == 0x2028 || n == 0x2029 || n == 0x202F || n == 0x205F
    || n == 0x2060 || n == 0x3000 || n == 0xFEFF

/-- Blanks that are passed over while looking ahead; those that forbid a line break, or have
    no width, are none of them. -/
def isSpace (c : CodePoint) : Bool :=
  let n := c.val
  (0x09 ≤ n && n ≤ 0x0D) || n == 0x20 || n == 0x85 || n == 0x1680
    || (0x2000 ≤ n && n ≤ 0x2006) || (0x2008 ≤ n && n ≤ 0x200A) || n == 0x2028 || n == 0x2029
    || n == 0x205F || n == 0x3000

/-- A line feed, or a separator of lines or paragraphs. -/
def isBreak (c : CodePoint) : Bool := c.val == 0x0A || c.val == 0x2028 || c.val == 0x2029

/-- Code points that end a comment of one line. -/
def endsLine (c : CodePoint) : Bool := isBreak c || c.val == 0x0D

/-- A letter; digits of other scripts count as letters too. -/
def isLetter (c : CodePoint) : Bool := c.isWordChar && !c.isDigit && c.val != 0x5F

def isLatinLetter (c : CodePoint) : Bool := c.isLowerLetter || c.isUpperLetter

/-- Whether a code point may stand in a name; all past ASCII may, unless they are blank. -/
def isNamePart (c : CodePoint) : Bool :=
  c.isNameChar || c.val == 0x24 || (0x7F ≤ c.val && !isBlank c)

/-- How long the comment is that starts a text; nothing if none does, or it has no end. -/
def commentLength (t : Text) : Nat :=
  if Text.startsWith t "//" then (t.takeWhile fun c => !endsLine c).length
  else if Text.startsWith t "/*" then
    match Text.find? "*/" (t.drop 2) with
    | some n => n + 4
    | none => 0
  else 0

end Arabize.Script.Grammar

import Arabize.Text.Basic

/-! # Blank characters

The one notion of white space of the library: the ASCII blanks, the four ASCII
separators, NEL, the no-break space and the Unicode space, line and paragraph
separators.  `strip` removes blanks at both ends, `splitBlanks` cuts a text at its runs
of blanks.
-/

namespace Arabize

def CodePoint.isBlank (c : CodePoint) : Bool :=
  let n := c.val
  (0x09 ≤ n && n ≤ 0x0D) || (0x1C ≤ n && n ≤ 0x20) || n == 0x85 || n == 0xA0 || n == 0x1680
    || (0x2000 ≤ n && n ≤ 0x200A) || n == 0x2028 || n == 0x2029 || n == 0x202F
    || n == 0x205F || n == 0x3000

namespace Text

def stripLeft (t : Text) : Text := t.dropWhile CodePoint.isBlank

def stripRight (t : Text) : Text := (stripLeft t.reverse).reverse

/-- A text without the blanks at its two ends. -/
def strip (t : Text) : Text := stripRight (stripLeft t)

def leadingBlanks (t : Text) : Text := t.takeWhile CodePoint.isBlank

def trailingBlanks (t : Text) : Text := t.drop (stripRight t).length

/-- Whether a text is empty or holds blanks only. -/
def isBlank (t : Text) : Bool := t.all CodePoint.isBlank

/-- Cuts a text at its runs of blanks, given whether a blank has just been passed. -/
def splitBlanksFrom : Bool → Text → List Text
  | _, [] => [[]]
  | afterBlank, c :: t =>
    if c.isBlank then
      if afterBlank then splitBlanksFrom true t else [] :: splitBlanksFrom true t
    else
      match splitBlanksFrom false t with
      | [] => [[c]]
      | piece :: rest => (c :: piece) :: rest

/-- The pieces between the runs of blanks; a run at an end leaves an empty piece there. -/
def splitBlanks (t : Text) : List Text := splitBlanksFrom false t

end Text

end Arabize

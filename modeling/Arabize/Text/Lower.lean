import Arabize.Text.Basic
import Arabize.Text.CaseTable

/-! # Lower case

Lower-casing maps each code point on its own, with two exceptions: U+0130 becomes a
plain `i` followed by a combining dot, so the text can grow, and a capital sigma that
ends a word becomes the final form of the letter.  `sameLetter` compares an ASCII letter
without regard to case; three letters have relatives past ASCII there.
-/

namespace Arabize

/-- Whether a number lies in one of the inclusive ranges. -/
def inRanges (ranges : List (Nat × Nat)) (n : Nat) : Bool :=
  ranges.any fun r => r.1 ≤ n && n ≤ r.2

namespace CodePoint

/-- The simple lower-case form of a code point past ASCII, found in the table of runs. -/
def lowerByRuns (n : Nat) : List (Nat × Nat × Nat × Int) → Nat
  | [] => n
  | (first, last, step, shift) :: rest =>
    if first ≤ n && n ≤ last && (n - first) % step == 0 then ((n : Int) + shift).toNat
    else lowerByRuns n rest

/-- The simple lower-case form of a code point. -/
def lower (c : CodePoint) : CodePoint :=
  if c.isUpperLetter then ofNat (c.val + 0x20)
  else if c.val < 0x80 then c
  else ofNat (lowerByRuns c.val Text.lowerRuns)

/-- Whether a code point has letter case and counts as a neighbour of a sigma. -/
def isCased (c : CodePoint) : Bool := inRanges Text.casedRanges c.val

/-- Whether a code point is passed over when looking for a neighbour of a sigma. -/
def isCaseIgnorable (c : CodePoint) : Bool := inRanges Text.caseIgnorableRanges c.val

/-- Whether `c` is a spelling of the lower-case ASCII letter `letter`, letter case aside:
    besides the two ASCII letters there are a dotless and a dotted `i`, a long `s` and
    the kelvin sign. -/
def sameLetter (letter c : CodePoint) : Bool :=
  c == letter || (c.isUpperLetter && c.val + 0x20 == letter.val)
    || (letter.val == 0x69 && (c.val == 0x130 || c.val == 0x131))
    || (letter.val == 0x73 && c.val == 0x17F) || (letter.val == 0x6B && c.val == 0x212A)

/-- A letter between `a` and `z`, letter case aside. -/
def isLetterAnyCase (c : CodePoint) : Bool :=
  c.isLowerLetter || c.isUpperLetter || c.val == 0x130 || c.val == 0x131 || c.val == 0x17F
    || c.val == 0x212A

end CodePoint

namespace Text

/-- Whether the first code point that is not passed over has letter case. -/
def casedFirst : Text → Bool
  | [] => false
  | c :: t => if c.isCaseIgnorable then casedFirst t else c.isCased

/-- Lower-cases a text, given what precedes it, nearest code point first. -/
def lowerAfter : (before t : Text) → Text
  | _, [] => []
  | before, c :: t =>
    let low : Text :=
      if c.val = 0x130 then [0x69, 0x307]
      else if c.val = 0x3A3 then
        if casedFirst before && !casedFirst t then [0x3C2] else [0x3C3]
      else [c.lower]
    low ++ lowerAfter (c :: before) t

def lower (t : Text) : Text := lowerAfter [] t

/-- What follows a given beginning in lower-case letters, letter case aside; a code point
    of the beginning that is not a letter has to be met exactly. -/
def afterAnyCase? : (t head : Text) → Option Text
  | t, [] => some t
  | [], _ :: _ => none
  | c :: t, d :: head => if CodePoint.sameLetter d c then afterAnyCase? t head else none

end Text

end Arabize

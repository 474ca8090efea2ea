import Arabize.Lexicon.Basic
import Arabize.Text.Blank

/-! # Human text or code

Nine rules, tried in order, decide whether a text was written for people.  What is
blank, an address, a fragment of code or a number is not; what the lexicon knows is;
of the single identifiers left over, those that start in lower case are names in a
program, as are the capitalised ones that hold a digit or an underscore.  Everything
else is human text.
-/

namespace Arabize.Phrase

inductive Rule
  | empty
  | url
  | codePattern
  | numeric
  /-- The lexicon has a translation of the whole text. -/
  | inLexicon
  | lowerIdentifier
  /-- An identifier that starts in upper case and holds a digit or an underscore. -/
  | markedIdentifier
  | capitalizedWord
  | default
  deriving DecidableEq, Repr

def Rule.isSafe : Rule → Bool
  | .inLexicon | .capitalizedWord | .default => true
  | _ => false

/-- Whether a text begins like an address: with `www.` or with a scheme of letters. -/
def isAddress (t : Text) : Bool :=
  (Text.afterAnyCase? t "www.").isSome
    || (!(t.takeWhile CodePoint.isLetterAnyCase).isEmpty
      && Text.startsWith (t.dropWhile CodePoint.isLetterAnyCase) "://")

/-- Fragments that only show up in code: interpolation, calls, arrows, literals. -/
def codeFragments : List Text := ["$\x7b", "function(", "=>", "()", "\x7b\x7d"]

/-- Whether a text holds a fragment that only code has. -/
def looksLikeCode (t : Text) : Bool := codeFragments.any fun p => Text.occursIn p t

/-- Digits, blanks and the punctuation found in numbers, dates and ranges. -/
def isNumericChar (c : CodePoint) : Bool :=
  c.isDigit || c.isBlank || (Text.ofString "-_.,;:!?()").contains c

def classify (d : Lexicon) (t : Text) : Rule :=
  match t with
  | [] => .empty
  | c :: rest =>
    if Text.isBlank t then .empty
    else if isAddress t then .url
    else if looksLikeCode t then .codePattern
    else if t.all isNumericChar then .numeric
    -- The lexicon overrides the rules below, not those above.
    else if d.knows t then .inLexicon
    else if rest.all CodePoint.isNameChar then
      if c.isLowerLetter then .lowerIdentifier
      else if c.isUpperLetter then
        if rest.any CodePoint.isDigit || rest.contains (CodePoint.ofChar '_') then
          .markedIdentifier
        else .capitalizedWord
      else .default
    else .default

def isSafe (d : Lexicon) (t : Text) : Bool := (classify d t).isSafe

end Arabize.Phrase

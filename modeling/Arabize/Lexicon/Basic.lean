import Arabize.Mapping
import Arabize.Text.Lower

/-! # Lexicons

A lexicon maps English texts to their translations.  A text is known by its exact
spelling or by its lower-case form, in this order, and an empty translation stands for a
word that nobody has translated yet: it counts as absent.
-/

namespace Arabize

abbrev Lexicon := Mapping Text

namespace Lexicon

/-- Joins tiers of lexicons into one; a later tier overrides an earlier one. -/
def merge (tiers : List (Option Lexicon)) : Lexicon :=
  tiers.foldl (fun merged tier => merged.update (tier.getD [])) []

/-- The translation of exactly this text, unless it is empty. -/
def entry? (d : Lexicon) (t : Text) : Option Text :=
  (d.find? t).filter fun v => !v.isEmpty

/-- The translation of a text by its exact spelling, else by its lower-case form. -/
def lookup? (d : Lexicon) (t : Text) : Option Text := (d.entry? t).or (d.entry? t.lower)

/-- Whether a text has a translation as a whole. -/
def knows (d : Lexicon) (t : Text) : Bool := (d.lookup? t).isSome

/-- Whatever ships a lexicon with the program: the tier that all others override. -/
class Bundle where
  lexicon : Lexicon

end Lexicon

end Arabize

import Arabize.Json.Value
import Arabize.Lexicon.Basic

/-! # Vocabularies

Whoever is asked for translations may answer with values that are no texts.  A vocabulary
keeps such strays beside its lexicon.  A text has at most one of the two as its translation
as a whole, found as in a lexicon: by its exact spelling, else by its lower-case form, and
a stray counts as absent where an empty text would.
-/

namespace Arabize

/-- A lexicon, and the translations that are no texts. -/
structure Vocabulary where
  lexicon : Lexicon
  strays : Mapping Json

namespace Vocabulary

/-- The values of a mapping that are no texts. -/
def straysIn (m : Mapping Json) : Mapping Json := m.filter fun kv => kv.2.text?.isNone

/-- The vocabulary of tiers of lexicons and of values that override them. -/
def ofTiers (tiers : List (Option Lexicon)) (values : Mapping Json) : Vocabulary :=
  let strays := straysIn values
  let texts := Lexicon.merge (tiers ++ [some (Json.textFields values)])
  ⟨texts.filter fun kv => !strays.has kv.1, strays⟩

/-- The stray of exactly this text, if it counts as present. -/
def strayAt? (v : Vocabulary) (t : Text) : Option Json :=
  (v.strays.find? t).filter Json.isTruthy

/-- The stray that is the translation of a text as a whole. -/
def stray? (v : Vocabulary) (t : Text) : Option Json :=
  (v.strayAt? t).or (if (v.lexicon.entry? t).isSome then none else v.strayAt? t.lower)

end Vocabulary

end Arabize

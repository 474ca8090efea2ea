import Arabize.Phrase.Human

/-! # Translating a text

A text that the lexicon knows as a whole is replaced as a whole.  Otherwise its words are
looked up one by one, each also without its punctuation, and joined again by single
blanks; a text none of whose words is known stays as it is, blanks included.

Every translation that differs from its text is remembered in a `Memory`, which is
consulted first and threads through a whole run.
-/

namespace Arabize.Phrase

/-- Texts already translated in a run, each with its translation. -/
abbrev Memory := Mapping Text

/-- The punctuation that a word is looked up without. -/
def isPunctuation (c : CodePoint) : Bool :=
  (Text.ofString ".,;:!?()[]\x7b\x7d'\"").contains c

def withoutPunctuation (word : Text) : Text := word.filter fun c => !isPunctuation c

def translateWord (d : Lexicon) (word : Text) : Text :=
  match d.lookup? word with
  | some found => found
  | none =>
    let clean := withoutPunctuation word
    if clean = [] ∨ clean = word then word
    else
      match d.lookup? clean with
      | some found => Text.replaceFirst word clean found
      | none => word

/-- Translates a text word by word; unless a word changes, the text does not. -/
def wordByWord (d : Lexicon) (t : Text) : Text :=
  let words := Text.splitBlanks t
  let translated := words.map (translateWord d)
  if translated = words then t else Text.intercalate " " translated

/-- The translation of a text by the lexicon alone. -/
def translation (d : Lexicon) (t : Text) : Text := (d.lookup? t).getD (wordByWord d t)

/-- The translation of a text, from memory if it is there. -/
def resolve (d : Lexicon) (t : Text) : StateM Memory Text := fun memory =>
  match memory.find? t with
  | some remembered => (remembered, memory)
  | none =>
    let translated := translation d t
    if translated = t then (t, memory) else (translated, memory.insert t translated)

/-- Translates a text if it was written for people; a text once translated is not judged
    again. -/
def translate (d : Lexicon) (t : Text) : StateM Memory Text := fun memory =>
  if Text.isBlank t then (t, memory)
  else
    match memory.find? t with
    | some remembered => (remembered, memory)
    | none => if isSafe d t then resolve d t memory else (t, memory)

/-- A memory and the number of visits that changed their text. -/
structure Progress where
  memory : Memory
  changes : Nat

/-- Translates a text and counts it when it changes. -/
def translateCounting (d : Lexicon) (t : Text) : StateM Progress Text := fun p =>
  let (translated, memory) := translate d t p.memory
  (translated, ⟨memory, if translated = t then p.changes else p.changes + 1⟩)

end Arabize.Phrase

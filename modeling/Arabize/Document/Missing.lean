import Arabize.Document.Translate

/-! # The words that are missing

Before a run, its documents are visited by the very passes that will translate them, with
a visitor that changes nothing: it notes every text that was written for people and that
the lexicon does not know, and the words of such a text with and without their
punctuation.
-/

namespace Arabize.Missing

/-- The texts found missing, each once, in the order in which they were found. -/
abbrev Words := List Text

def add (t : Text) (words : Words) : Words := if words.contains t then words else words ++ [t]

/-- Whether a text is one to ask for: written for people, and not known. -/
def isWanted (d : Lexicon) (t : Text) : Bool := Phrase.isSafe d t && !d.knows t

/-- A word and, if it has punctuation, the word without it. -/
def spellings (word : Text) : List Text :=
  let clean := Phrase.withoutPunctuation word
  if clean = word then [word] else [word, clean]

/-- The words of a text with and without their punctuation. -/
def parts (t : Text) : List Text := (Text.splitBlanks t).flatMap spellings

/-- What a visit of a text adds: the text and those of its parts that are wanted. -/
def wantedIn (d : Lexicon) (t : Text) : List Text :=
  if isWanted d t then t :: (parts t).filter (isWanted d) else []

/-- Notes what is missing of a text, which stays as it is. -/
def visit (d : Lexicon) (t : Text) : StateM Words Text := fun words =>
  (t, (wantedIn d t).foldl (fun ws w => add w ws) words)

/-- What a search carries from document to document. -/
structure Search where
  words : Words
  log : Log

/-- A step of a search that deals with one document. -/
abbrev SearchStep := ExceptT DocumentError (StateM Search)

/-- Reports something and answers that the document could not be read. -/
def skip (text : Text) : SearchStep Bool := fun s =>
  (.ok false, { s with log := s.log ++ [⟨.warning, text⟩] })

def searchJson (d : Lexicon) (content : Text) : SearchStep Bool := fun s =>
  match Json.read content with
  | .error (.numeralTooLong n) => (.error (.json (.numeralTooLong n)), s)
  | .error e => skip ("Skipping malformed JSON during pre-scan: " ++ e.message) s
  | .ok j => (.ok true, { s with words := (j.mapLeaves (visit d) s.words).2 })

/-- Searches a page, whose root tag need not be marked for that. -/
def searchHtml (d : Lexicon) (content : Text) : SearchStep Bool := fun s =>
  (.ok true, { s with words := (Markup.editPage (visit d) false content s.words).2 })

variable [Script.Parser]

def searchScript (d : Lexicon) (dialect : Script.Grammar.Dialect) (content : Text) :
    SearchStep Bool := fun s =>
  match Script.editProgram (Script.Parser.parse dialect) (visit d) content s.words with
  | (.error e, words) => (.error (.literal e), { s with words })
  | (.ok (.ok _), words) => (.ok true, { s with words })
  | (.ok (.error message), words) =>
    skip ("Skipping unparseable " ++ dialect.name ++ " source during pre-scan: " ++ message)
      { s with words }

/-- Searches a document of a format given by its word; answers whether it could be read.
    Formats without texts are read without a search. -/
def search (d : Lexicon) (format content : Text) : SearchStep Bool :=
  match Format.ofName? format with
  | some .json => searchJson d content
  | some .html => searchHtml d content
  | some (.program dialect) => searchScript d dialect content
  | none => return true

/-- Searches documents given with the words of their formats. -/
def searchAll (d : Lexicon) : List (Text × Text) → SearchStep Unit
  | [] => return ()
  | (content, format) :: rest => do
    let _ ← search d format content
    searchAll d rest

/-- The words missing from documents, each given with the word of its format. -/
def collect (d : Lexicon) (documents : List (Text × Text)) : Except DocumentError Words :=
  match searchAll d documents ⟨[], []⟩ with
  | (.ok (), s) => .ok s.words
  | (.error e, _) => .error e

end Arabize.Missing

import Arabize.Document.Translate
import Arabize.Lexicon.Vocabulary

/-! # Translating with strays

A vocabulary may hold strays, translations that are no texts.  A stray for a leaf of a JSON
document as a whole takes its place.  Everywhere else a text is needed: a stray that meets
a word of a text or a text between tags would have to be joined with texts, one that meets
an attribute or a literal would have to be quoted.  Neither can be done, and the first such
place is the fault of the document.

`translateBy` is `translateDocument` for a vocabulary without strays.
-/

namespace Arabize

namespace Stray

structure Progress where
  progress : Phrase.Progress
  /-- The first use of a stray that was at fault. -/
  fault : Option StrayUse

/-- Notes a use of a stray that is at fault, unless there was one before. -/
def blame (use : StrayUse) (p : Progress) : Progress :=
  { p with fault := p.fault.or (some use) }

/-- Whether a word is translated by a stray, with or without its punctuation. -/
def meetsWord (v : Vocabulary) (word : Text) : Bool :=
  let clean := Phrase.withoutPunctuation word
  (v.stray? word).isSome
    || (!clean.isEmpty && !v.lexicon.knows word && (v.stray? clean).isSome)

/-- Whether a text is translated word by word, and a word of it by a stray. -/
def meetsWordOf (v : Vocabulary) (memory : Phrase.Memory) (t : Text) : Bool :=
  !Text.isBlank t && !memory.has t && Phrase.isSafe v.lexicon t && !v.lexicon.knows t
    && (Text.splitBlanks t).any (meetsWord v)

/-- Whether a text that a stray translates was written for people; that it has a translation
    speaks for it. -/
def isSafe (v : Vocabulary) (t : Text) : Bool :=
  !Text.isBlank t && Phrase.isSafe (v.lexicon.insert t t) t

/-- Remembers that a text was translated by a stray. -/
def remember (t : Text) (stray : Json) (p : Progress) : Progress :=
  { p with progress := ⟨p.progress.memory.insert t stray.write, p.progress.changes + 1⟩ }

/-- The value that takes the place of a text, a text or a stray. -/
def translate (v : Vocabulary) (t : Text) : StateM Progress Json := fun p =>
  match v.stray? t with
  | some stray => if isSafe v t then (stray, remember t stray p) else (.str t, p)
  | none =>
    if meetsWordOf v p.progress.memory t then (.str t, blame .joining p)
    else
      let (translated, progress) := Phrase.translateCounting v.lexicon t p.progress
      (.str translated, { p with progress })

/-- The text that takes the place of a text; a stray is at fault there. -/
def translateFor (use : StrayUse) (v : Vocabulary) (t : Text) : StateM Progress Text := do
  match ← translate v t with
  | .str translated => return translated
  | _ =>
    modify (blame use)
    return t

/-! ## Documents -/

/-- Ends a visit of a document: a fault of its strays came before any other. -/
def finish {α : Type} (run : Run) (r : Except DocumentError α) (p : Progress) :
    Except DocumentError α × Run :=
  let run := { run with memory := p.progress.memory }
  match p.fault with
  | some use => (.error (.stray use), run)
  | none => (r, run)

def start (run : Run) : Progress := ⟨⟨run.memory, 0⟩, none⟩

def translateData (v : Vocabulary) (content : Text) : DocumentStep Rendition := fun run =>
  match Json.read content with
  | .error (.numeralTooLong n) => (.error (.json (.numeralTooLong n)), run)
  | .error e => (.ok (Rendition.unreadable content (Json.failureText e)), run)
  | .ok j =>
    let (translated, p) := j.graft (translate v) (start run)
    finish run (.ok (translated.rendition p.progress.changes)) p

def translateMarkup (v : Vocabulary) (content : Text) : DocumentStep Rendition := fun run =>
  let marked := Markup.markRoot content
  let (spans, p) := Markup.editSpans Markup.markupSpans (translateFor .joining v) marked (start run)
  let (edited, p) := Markup.editAttributes (translateFor .quoting v) spans p
  finish run (.ok (Rendition.ofEdit content edited p.progress.changes)) p

variable [Script.Parser]

/-- Edits a program: a literal needs its text in quotes, a text between tags joined. -/
def editProgram (dialect : Script.Grammar.Dialect) (v : Vocabulary) (content : Text) :
    Script.Visit Progress Script.Outcome := do
  let source ← ExceptT.mk (return Script.encodeText content)
  let root := Script.Parser.parse dialect content
  if root.hasError then return .error (Script.syntaxErrorMessage source root)
  else
    let edited ← Script.editLiterals (translateFor .quoting v) source root
    let edited ← ExceptT.lift
      (Markup.editSpans Markup.elementSpans (translateFor .joining v) edited)
    return .ok edited

def translateScript (v : Vocabulary) (dialect : Script.Grammar.Dialect) (content : Text) :
    DocumentStep Rendition := fun run =>
  match editProgram dialect v content (start run) with
  | (.error e, p) => finish run (.error (.literal e)) p
  | (.ok outcome, p) =>
    let r := outcome.rendition content p.progress.changes
    let log := if r.ok then run.log else run.log ++ [unreadableProgram dialect r.error]
    finish { run with log } (.ok r) p

end Stray

variable [Script.Parser]

/-- Translates a document of a format with a vocabulary. -/
def translateBy (v : Vocabulary) (format : Format) (content : Text) : DocumentStep Rendition :=
  if v.strays.isEmpty then translateDocument v.lexicon format content
  else
    match format with
    | .json => Stray.translateData v content
    | .html => Stray.translateMarkup v content
    | .program dialect => Stray.translateScript v dialect content

theorem translateBy_of_no_strays (d : Lexicon) (format : Format) (content : Text) :
    translateBy ⟨d, []⟩ format content = translateDocument d format content := rfl

end Arabize

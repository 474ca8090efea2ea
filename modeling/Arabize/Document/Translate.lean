import Arabize.Script.Edit
import Arabize.Document.Rendition
import Arabize.Json.Reader
import Arabize.Json.Writer
import Arabize.Log
import Arabize.Markup.Page

/-! # Translating documents

A document is translated by the rules of its format.  One memory serves all documents of
a run, and a document that cannot be read is reported in its rendition; only a few faults
are errors, after which what was remembered so far stays remembered.
-/

namespace Arabize

/-- What a text is needed for in the place of a translation that is none. -/
inductive StrayUse
  | joining
  | quoting
  deriving DecidableEq, Repr

/-- Why a document could not be dealt with. -/
inductive DocumentError
  /-- Nothing is known of a format of this name. -/
  | unsupportedFormat (name : Text)
  /-- The document holds a whole number of too many digits. -/
  | json (e : Json.ReadError)
  | literal (e : Script.LiteralError)
  /-- A translation is no text where only a text will do. -/
  | stray (use : StrayUse)
  deriving DecidableEq, Repr

def DocumentError.message : DocumentError → Text
  | .unsupportedFormat name => "Unsupported file type: " ++ name
  | .json e => e.message
  | .literal e => e.message
  | .stray .joining => "a translation that is no text cannot be joined with text"
  | .stray .quoting => "a translation that is no text cannot be quoted"

/-- Whether an error is one that a run reports and survives; too large a number and a
    translation that is no text end it. -/
def DocumentError.isExpected : DocumentError → Bool
  | .literal (.numberTooLarge _) => false
  | .stray _ => false
  | _ => true

/-- What a run carries from document to document. -/
structure Run where
  memory : Phrase.Memory
  log : Log

/-- A step of a run that deals with one document. -/
abbrev DocumentStep := ExceptT DocumentError (StateM Run)

/-- The rendition of a JSON document that was read. -/
def Json.rendition (j : Json) (changes : Nat) : Rendition :=
  ⟨j.write, if changes = 0 then .unchanged else .translated, changes, []⟩

/-- Why a JSON document could not be read. -/
def Json.failureText (e : Json.ReadError) : Text := "Invalid JSON: " ++ e.message

def translateData (d : Lexicon) (content : Text) : DocumentStep Rendition := fun run =>
  match Json.read content with
  | .error (.numeralTooLong n) => (.error (.json (.numeralTooLong n)), run)
  | .error e => (.ok (Rendition.unreadable content (Json.failureText e)), run)
  | .ok j =>
    let (translated, p) := j.mapLeaves (Phrase.translateCounting d) ⟨run.memory, 0⟩
    (.ok (translated.rendition p.changes), { run with memory := p.memory })

def translateMarkup (d : Lexicon) (content : Text) : DocumentStep Rendition := fun run =>
  let (rendition, memory) := Markup.translatePage d true content run.memory
  (.ok rendition, { run with memory })

/-- What is reported of a program that could not be read. -/
def unreadableProgram (dialect : Script.Grammar.Dialect) (error : Text) : LogEntry :=
  ⟨.warning, "Failed to parse " ++ dialect.name ++ " source (" ++ error
    ++ "), skipping translation"⟩

variable [Script.Parser]

def translateScript (d : Lexicon) (dialect : Script.Grammar.Dialect) (content : Text) :
    DocumentStep Rendition := fun run =>
  match Script.translateProgram (Script.Parser.parse dialect) d content run.memory with
  | (.error e, memory) => (.error (.literal e), { run with memory })
  | (.ok r, memory) =>
    let log := if r.ok then run.log else run.log ++ [unreadableProgram dialect r.error]
    (.ok r, ⟨memory, log⟩)

def translateDocument (d : Lexicon) (format : Format) (content : Text) :
    DocumentStep Rendition :=
  match format with
  | .json => translateData d content
  | .html => translateMarkup d content
  | .program dialect => translateScript d dialect content

/-- Translates a document of a format given by its word. -/
def translateNamed (d : Lexicon) (format content : Text) : DocumentStep Rendition :=
  match Format.ofName? format with
  | some f => translateDocument d f content
  | none => throw (.unsupportedFormat format)

end Arabize

import Arabize.Document.Rendition
import Arabize.Markup.TextSpan
import Arabize.Phrase.Translate
import Arabize.Script.Candidate

/-! # Editing a program

First every candidate literal is visited, in the order of the tree, and those that change
are spliced into the bytes of the source from the highest offset down, so that the
stretches still to be replaced keep their place.  Then the result is searched for text
between tags, which the syntax tree is not asked about.

A source whose tree holds an error is left alone.
-/

namespace Arabize.Script

/-! ## Splicing -/

/-- A stretch of the source and the bytes that are to stand in its place. -/
structure Splice where
  start : Nat
  stop : Nat
  bytes : Bytes
  deriving DecidableEq

def Splice.apply (s : Splice) (source : Bytes) : Bytes :=
  source.take s.start ++ s.bytes ++ source.drop s.stop

/-- The splices of a list from the highest start down; equal starts keep their order. -/
def descending (splices : List Splice) : List Splice :=
  splices.mergeSort fun a b => b.start ≤ a.start

/-- Replaces every stretch of a list, from the highest start down. -/
def applySplices (splices : List Splice) (source : Bytes) : Bytes :=
  (descending splices).foldl (fun bytes s => s.apply bytes) source

/-! ## Visiting the literals -/

variable {σ : Type}

/-- A visit of a program: it can fail, and what was visited before stays visited. -/
abbrev Visit (σ : Type) := ExceptT LiteralError (StateM σ)

/-- The literal that a candidate becomes when its text does. -/
def Candidate.encode (c : Candidate) (t : Text) : Text :=
  match c.kind with
  | .attribute => Literal.encodeAttribute c.quote t
  | .literal => Literal.encode c.quote t

def encodeText (t : Text) : Except LiteralError Bytes :=
  match Utf8.encode t with
  | .ok bs => .ok bs
  | .error e => .error (.unencodable e)

/-- Visits a candidate; gives the splice if its text changes.  A blank text is not
    visited. -/
def visitCandidate (visit : Text → StateM σ Text) (c : Candidate) : Visit σ (List Splice) := do
  if Text.isBlank c.text then return []
  else
    let answer ← ExceptT.lift (visit c.text)
    if answer = c.text then return []
    else
      let bytes ← ExceptT.mk (return encodeText (c.encode answer))
      return [⟨c.start, c.stop, bytes⟩]

/-- Visits the candidates at the sites of a list and collects the splices. -/
def visitSites (visit : Text → StateM σ Text) (source : Bytes) :
    List Site → Visit σ (List Splice)
  | [] => return []
  | s :: rest => do
    match ← ExceptT.mk (return candidate? source s) with
    | none => visitSites visit source rest
    | some c =>
      let here ← visitCandidate visit c
      let behind ← visitSites visit source rest
      return here ++ behind

/-- Edits the literals of a program whose tree holds no error. -/
def editLiterals (visit : Text → StateM σ Text) (source : Bytes) (root : Node) :
    Visit σ Text := do
  let splices ← visitSites visit source (literalSites root)
  let bytes := applySplices splices source
  ExceptT.mk (return match Utf8.decode bytes with
    | .ok t => .ok t
    | .error e => .error (.undecodable e))

/-! ## The whole program -/

/-- The line and the column, in bytes, of an offset of the source, both counted from one. -/
def positionAt (source : Bytes) (offset : Nat) : Nat × Nat :=
  let seen := source.take offset
  ((seen.filter (· == 0x0A)).length + 1, (seen.reverse.takeWhile (· != 0x0A)).length + 1)

/-- Says where the first error of a tree stands, if it has a place. -/
def syntaxErrorMessage (source : Bytes) (root : Node) : Text :=
  match root.firstFault? with
  | none => "syntax error"
  | some start =>
    let (line, column) := positionAt source start
    "syntax error at line " ++ Text.ofNat line ++ ", column " ++ Text.ofNat column

/-- The outcome of editing a program: its new content, or why it could not be read. -/
abbrev Outcome := Except Text Text

/-- Visits the literals of a program and then the text between its tags. -/
def editProgram (read : Reading) (visit : Text → StateM σ Text) (content : Text) :
    Visit σ Outcome := do
  let source ← ExceptT.mk (return encodeText content)
  let root := read content
  if root.hasError then return .error (syntaxErrorMessage source root)
  else
    let edited ← editLiterals visit source root
    let edited ← ExceptT.lift (Markup.editSpans Markup.elementSpans visit edited)
    return .ok edited

/-- The rendition that an outcome of editing is. -/
def Outcome.rendition (content : Text) (changes : Nat) : Outcome → Rendition
  | .ok edited => Rendition.ofEdit content edited changes
  | .error message => Rendition.unreadable content message

def translateProgram (read : Reading) (d : Lexicon) (content : Text) :
    Visit Phrase.Memory Rendition := fun memory =>
  match editProgram read (Phrase.translateCounting d) content ⟨memory, 0⟩ with
  | (.ok outcome, p) => (.ok (outcome.rendition content p.changes), p.memory)
  | (.error e, p) => (.error e, p.memory)

end Arabize.Script

import Arabize.Markup.RawBody
import Arabize.Text.Blank

/-! # Text between tags

A text span is what stands between a `>` and the next `<`.  `cut` splits a document into
such spans and everything else; `editSpans` hands the core of every span, the blanks
around it taken off, to a visitor and puts the answer back between the same blanks.
Spans in script and style bodies are left alone.

Which `>` may open a span, and which code points keep a run from being one, is a
`SpanRule`: markup lets every `>` open a span, while in a program an arrow opens none and
a brace ends the run.
-/

namespace Arabize.Markup

/-- Which runs between `>` and `<` are text. -/
structure SpanRule where
  /-- Whether a `>` behind this code point opens a span. -/
  opens : Option CodePoint → Bool
  /-- Whether a code point keeps the run it stands in from being a span. -/
  breaks : CodePoint → Bool

/-- In markup every `>` opens a span and only `<` ends it. -/
def markupSpans : SpanRule := ⟨fun _ => true, fun _ => false⟩

/-- In a program the `>` of an arrow opens nothing, and a run with a brace is code. -/
def elementSpans : SpanRule :=
  ⟨fun before => before != some (CodePoint.ofChar '='), fun c => c == CodePoint.ofChar '\x7b'⟩

inductive Piece
  | other (t : Text)
  /-- A span of text and the offset at which it starts. -/
  | span (start : Nat) (t : Text)
  deriving DecidableEq

def Piece.text : Piece → Text
  | .other t => t
  | .span _ t => t

/-- A run that was opened by a `>`: where it starts, and its code points so far, the last
    one first. -/
structure Run where
  start : Nat
  /-- The code points of the run, the last one first. -/
  reversed : Text

/-- The piece that a run is when a `<` ends it; an empty run is no span. -/
def Run.close (r : Run) : Piece :=
  if r.reversed = [] then .other [] else .span r.start r.reversed.reverse

/-- Cuts the rest of a document into pieces, given the offset, the open run if there is
    one, and the code point before the rest. -/
def cutFrom (rule : SpanRule) : Nat → Option Run → Option CodePoint → Text → List Piece
  | _, none, _, [] => []
  | _, some run, _, [] => [.other run.reversed.reverse]
  | n, none, before, c :: t =>
    let opened := if c = '>' ∧ rule.opens before then some ⟨n + 1, []⟩ else none
    .other [c] :: cutFrom rule (n + 1) opened (some c) t
  | n, some run, _, c :: t =>
    if c = '<' then run.close :: .other [c] :: cutFrom rule (n + 1) none (some c) t
    else if rule.breaks c then
      .other (c :: run.reversed).reverse :: cutFrom rule (n + 1) none (some c) t
    else cutFrom rule (n + 1) (some ⟨run.start, c :: run.reversed⟩) (some c) t

def cut (rule : SpanRule) (content : Text) : List Piece := cutFrom rule 0 none none content

variable {σ : Type}

/-- Hands the core of a text to a visitor and puts the answer between the blanks that were
    around it; a blank text is not visited. -/
def visitCore (visit : Text → StateM σ Text) (t : Text) : StateM σ Text := do
  let core := Text.strip t
  if core = [] then return t
  else
    let answer ← visit core
    if answer = core then return t
    else return Text.leadingBlanks t ++ answer ++ Text.trailingBlanks t

/-- Edits one piece of a document, which is also given in lower case. -/
def editPiece (visit : Text → StateM σ Text) (lowered : Text) : Piece → StateM σ Text
  | .other t => return t
  | .span start t => if insideRawBody lowered start then return t else visitCore visit t

def editPieces (visit : Text → StateM σ Text) (lowered : Text) : List Piece → StateM σ Text
  | [] => return []
  | p :: ps => do
    let here ← editPiece visit lowered p
    let rest ← editPieces visit lowered ps
    return here ++ rest

def editSpans (rule : SpanRule) (visit : Text → StateM σ Text) (content : Text) :
    StateM σ Text :=
  editPieces visit content.lower (cut rule content)

end Arabize.Markup

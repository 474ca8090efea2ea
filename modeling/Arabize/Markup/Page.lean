import Arabize.Document.Rendition
import Arabize.Markup.Attribute
import Arabize.Markup.TextSpan
import Arabize.Phrase.Translate

/-! # Pages

A page in Arabic runs from right to left, and its root tag says so: `markRoot` sets the
`dir` and `lang` attributes of the first `<html>` tag, in place where they are given, else
behind the other attributes.

A page is edited in passes over its source: the root tag is marked, then the text
spans are visited, then the attributes.  What no pass changes keeps its bytes.
-/

namespace Arabize.Markup

/-! ## The root tag -/

/-- Where the first attribute of a name starts and how long it is, given the offset and the
    code point before the text. -/
def findAttribute? (name : Text) : Nat → Option CodePoint → Text → Option (Nat × Nat)
  | _, _, [] => none
  | n, before, c :: t =>
    match (if startsName before then attributeLength? name (c :: t) else none) with
    | some width => some (n, width)
    | none => findAttribute? name (n + 1) (some c) t

/-- Sets an attribute: in place where it is given, else at the end. -/
def putAttribute (attributes name assignment : Text) : Text :=
  match findAttribute? name 0 none attributes with
  | some (start, width) =>
    attributes.take start ++ assignment ++ attributes.drop (start + width)
  | none => if attributes = [] then assignment else attributes ++ Text.ofString " " ++ assignment

/-- The attributes of the root tag that starts a text, and the length of the tag. -/
def rootTag? (t : Text) : Option (Text × Nat) :=
  match Text.afterAnyCase? t "<html" with
  | none => none
  | some [] => none
  | some (c :: rest) =>
    if c = '>' then some ([], 6)
    else if c.isBlank then
      let attributes := rest.takeWhile (· != CodePoint.ofChar '>')
      if attributes.length < rest.length then some (c :: attributes, attributes.length + 7)
      else none
    else none

/-- The root tag with these attributes, its direction and its language set. -/
def rootTag (attributes : Text) : Text :=
  let attributes := putAttribute (Text.strip attributes) "dir" "dir=\"rtl\""
  let attributes := putAttribute attributes "lang" "lang=\"ar\""
  Text.ofString "<html " ++ attributes ++ Text.ofString ">"

/-- Marks the first root tag of a document as Arabic and right to left. -/
def markRoot : Text → Text
  | [] => []
  | c :: t =>
    match rootTag? (c :: t) with
    | some (attributes, width) => rootTag attributes ++ (c :: t).drop width
    | none => c :: markRoot t

/-! ## The passes -/

variable {σ : Type}

/-- Visits the texts of a page, its root tag marked first if `marked` says so. -/
def editPage (visit : Text → StateM σ Text) (marked : Bool) (content : Text) :
    StateM σ Text := do
  let content := if marked then markRoot content else content
  let content ← editSpans markupSpans visit content
  editAttributes visit content

def translatePage (d : Lexicon) (marked : Bool) (content : Text) :
    StateM Phrase.Memory Rendition := fun memory =>
  let (edited, p) := editPage (Phrase.translateCounting d) marked content ⟨memory, 0⟩
  (Rendition.ofEdit content edited p.changes, p.memory)

end Arabize.Markup

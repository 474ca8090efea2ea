import Arabize.Text.Lower

/-! # Script and style bodies

The body of a script or style element is not text for people.  An offset counts as
inside such a body when, among the tags that lie before it, an opening tag is nearer
than any closing tag of the same element.  Tags are sought in the lower-case form of the
document, and offsets are those of that form.
-/

namespace Arabize.Markup

/-- The names of the elements whose body is not text. -/
def codeElements : List Text := ["script", "style"]

/-- Whether the last opening tag of an element before an offset comes after the last
    closing tag before it. -/
def insideElement (lowered : Text) (offset : Nat) (name : Text) : Bool :=
  let seen := lowered.take offset
  match Text.findLast? ('<' :: name) seen, Text.findLast? ("</" ++ name ++ ">") seen with
  | none, _ => false
  | some _, none => true
  | some opened, some closed => closed < opened

/-- Whether an offset of a document, given in lower case, lies in a script or style body. -/
def insideRawBody (lowered : Text) (offset : Nat) : Bool :=
  codeElements.any (insideElement lowered offset)

/-- An offset that may be negative, then counted from the end of a text of this length. -/
def clampOffset (length : Nat) (offset : Int) : Nat :=
  if offset < 0 then (offset + length).toNat else offset.toNat

end Arabize.Markup

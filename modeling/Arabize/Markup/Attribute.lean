import Arabize.Markup.RawBody
import Arabize.Text.Blank
import Arabize.Text.Quoted

/-! # Attributes

An attribute is a name, an equals sign and a value in quotes, with blanks allowed around
the sign.  The name is met letter case aside and must not continue a longer name: no word
character, colon or hyphen may stand before it.

`editAttributes` hands the quoted values of four attributes to a visitor, one
attribute name after the other over the whole document.  A value that changes is written
back in double quotes.
-/

namespace Arabize.Markup

/-- The attributes whose values are text for people. -/
def readableAttributes : List Text := ["alt", "title", "placeholder", "aria-label"]

/-- Whether an attribute name may start behind a code point. -/
def startsName (before : Option CodePoint) : Bool :=
  match before with
  | none => true
  | some c => !(c.isWordChar || c == CodePoint.ofChar ':' || c == CodePoint.ofChar '-')

/-- The equals sign that starts a text, with the blanks around it, and what follows. -/
def equals? (t : Text) : Option (Text × Text) :=
  let blanks := Text.leadingBlanks t
  match Text.stripLeft t with
  | [] => none
  | c :: rest =>
    if c = '=' then some (blanks ++ [c] ++ Text.leadingBlanks rest, Text.stripLeft rest)
    else none

/-- The value in quotes that starts a text, without them. -/
def quotedValue? : Text → Option Text
  | [] => none
  | q :: t =>
    if q = '"' ∨ q = '\'' then
      let value := t.takeWhile (· != q)
      if value.length < t.length then some value else none
    else none

/-- How long the attribute value that starts a text is: quoted, or a run without blanks,
    quotes and `>`. -/
def valueLength? (t : Text) : Option Nat :=
  match quotedValue? t with
  | some value => some (value.length + 2)
  | none =>
    let bare := t.takeWhile fun c =>
      !(c.isBlank || c == CodePoint.ofChar '"' || c == CodePoint.ofChar '\''
        || c == CodePoint.ofChar '>')
    if bare = [] then none else some bare.length

structure Attribute where
  name : Text
  sign : Text
  value : Text
  deriving DecidableEq

def Attribute.length (a : Attribute) : Nat := a.name.length + a.sign.length + a.value.length + 2

/-- The attribute of this name, with a quoted value, that starts a text. -/
def attribute? (name t : Text) : Option Attribute := do
  let rest ← Text.afterAnyCase? t name
  let (sign, rest) ← equals? rest
  let value ← quotedValue? rest
  return ⟨t.take name.length, sign, value⟩

/-- The length of the attribute of this name, with any value, that starts a text. -/
def attributeLength? (name t : Text) : Option Nat := do
  let rest ← Text.afterAnyCase? t name
  let (sign, rest) ← equals? rest
  let n ← valueLength? rest
  return name.length + sign.length + n

/-! ## Editing values -/

/-- A piece of a document with respect to one attribute. -/
inductive AttributePiece
  /-- A code point outside the attributes of that name. -/
  | other (c : CodePoint)
  /-- An attribute of that name, the offset at which it starts, and its spelling. -/
  | attribute (start : Nat) (a : Attribute) (spelling : Text)
  deriving DecidableEq

/-- Cuts the rest of a document at the attributes of one name, given the offset, how many
    code points belong to the attribute last found, and the code point before the rest. -/
def cutAttributes (name : Text) : (start skip : Nat) → Option CodePoint → Text →
    List AttributePiece
  | _, _, _, [] => []
  | n, skip + 1, _, c :: t => cutAttributes name (n + 1) skip (some c) t
  | n, 0, before, c :: t =>
    let found := if startsName before then attribute? name (c :: t) else none
    match found with
    | some a =>
      .attribute n a ((c :: t).take a.length)
        :: cutAttributes name (n + 1) (a.length - 1) (some c) t
    | none => .other c :: cutAttributes name (n + 1) 0 (some c) t

def quoteValue (value : Text) : Text :=
  let quote : Text := "\""
  quote ++ Text.replaceAll value quote "&quot;" ++ quote

/-- The offset of the tag that an offset lies in: that of the last `<` before it, or zero. -/
def tagStart (content : Text) (offset : Nat) : Nat :=
  (Text.findLast? "<" (content.take offset)).getD 0

variable {σ : Type}

/-- Edits one piece of a document, which is also given in lower case. -/
def editAttributePiece (visit : Text → StateM σ Text) (content lowered : Text) :
    AttributePiece → StateM σ Text
  | .other c => return [c]
  | .attribute start a spelling => do
    if insideRawBody lowered (tagStart content start) then return spelling
    else
      let answer ← visit a.value
      if answer = a.value then return spelling
      else return a.name ++ a.sign ++ quoteValue answer

def editAttributePieces (visit : Text → StateM σ Text) (content lowered : Text) :
    List AttributePiece → StateM σ Text
  | [] => return []
  | p :: ps => do
    let here ← editAttributePiece visit content lowered p
    let rest ← editAttributePieces visit content lowered ps
    return here ++ rest

/-- Edits the quoted values of the attributes of one name. -/
def editAttribute (visit : Text → StateM σ Text) (name content : Text) : StateM σ Text :=
  editAttributePieces visit content content.lower (cutAttributes name 0 0 none content)

/-- Edits the quoted values of one attribute name after the other. -/
def editEach (visit : Text → StateM σ Text) : List Text → Text → StateM σ Text
  | [], content => return content
  | name :: names, content => do
    let content ← editAttribute visit name content
    editEach visit names content

/-- Edits the quoted values of all translatable attributes. -/
def editAttributes (visit : Text → StateM σ Text) (content : Text) : StateM σ Text :=
  editEach visit readableAttributes content

end Arabize.Markup

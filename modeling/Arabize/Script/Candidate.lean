import Arabize.Script.Literal
import Arabize.Script.Tree
import Arabize.Text.Lower
import Arabize.Text.Utf8
import Arabize.Markup.Attribute

/-! # The literals of a program

A literal is a candidate for translation when it is a string or a template, does not
stand for a type, is not handed to a function as a template, and, where it is the value
of an element's attribute, that attribute is one of the translatable ones.

`literalSites` lists the literals of a tree with the node each one hangs under: parents
before children, left to right, and nothing below a string.  `candidate?` looks at one
of them.
-/

namespace Arabize.Script

inductive CandidateKind
  | literal
  | attribute
  deriving DecidableEq, Repr

def CandidateKind.name : CandidateKind → Text
  | .literal => "literal"
  | .attribute => "attribute"

structure Candidate where
  /-- The text it spells; for an attribute its body as it is written. -/
  text : Text
  kind : CandidateKind
  start : Nat
  stop : Nat
  quote : CodePoint
  /-- The name of the attribute it is the value of, else nothing. -/
  attributeName : Text
  deriving DecidableEq, Repr

inductive LiteralError
  /-- A stretch of the source, or the edited source, is no UTF-8. -/
  | undecodable (e : Utf8.DecodeError)
  | unencodable (e : Utf8.EncodeError)
  /-- An escape gives a number that is too large. -/
  | numberTooLarge (e : Literal.NumberTooLarge)
  deriving DecidableEq, Repr

def LiteralError.message : LiteralError → Text
  | .undecodable e => e.message
  | .unencodable e => e.message
  | .numberTooLarge e => "Escape of too large a number: " ++ Text.ofNat e.number

/-! ## Sites -/

/-- A literal and the node that it hangs under; the root hangs under none. -/
structure Site where
  parent : Option Node
  node : Node

/-- Whether a node is a string or a template. -/
def isLiteral (n : Node) : Bool := n.kind == .string || n.kind == .template

/-- A node as a site, if it is a literal. -/
def siteHere (s : Site) : List Site := if isLiteral s.node then [s] else []

/-- The sites of the children that are looked at: a string has none. -/
def sitesBelow (n : Node) : List Site :=
  if n.kind = .string then [] else n.children.map fun c => ⟨some n, c⟩

/-- How many nodes the sites of a list hold. -/
def siteCount : List Site → Nat
  | [] => 0
  | s :: rest => s.node.count + siteCount rest

theorem siteCount_append (a b : List Site) : siteCount (a ++ b) = siteCount a + siteCount b := by
  induction a with
  | nil => simp [siteCount]
  | cons s rest ih => simp [siteCount, ih, Nat.add_assoc]

/-- The sites of some nodes hold the nodes of their trees. -/
theorem siteCount_map (n : Node) (cs : List Node) :
    siteCount (cs.map fun c => ⟨some n, c⟩) = Node.countAll cs := by
  induction cs with
  | nil => simp [siteCount, Node.countAll]
  | cons c rest ih => simp [siteCount, Node.countAll, ih]

/-- Going down from a node leaves fewer nodes to look at. -/
theorem siteCount_sitesBelow_lt (n : Node) : siteCount (sitesBelow n) < n.count := by
  cases n with
  | mk k s e m f cs =>
    unfold sitesBelow
    split
    · simp only [siteCount, Node.count]; omega
    · simp only [Node.children, siteCount_map, Node.count]; omega

/-- The literals of the trees on a stack: the top one is taken off, looked at, and replaced
    by its children. -/
def sitesOf : List Site → List Site
  | [] => []
  | s :: rest => siteHere s ++ sitesOf (sitesBelow s.node ++ rest)
termination_by stack => siteCount stack
decreasing_by
  simp only [siteCount_append, siteCount]
  have := siteCount_sitesBelow_lt s.node
  omega

/-- The literals of a tree, parents before children and nothing below a string. -/
def literalSites (root : Node) : List Site := sitesOf [⟨none, root⟩]

/-! ## Candidates -/

/-- The bytes of a stretch of the source. -/
def bytesBetween (source : Bytes) (start stop : Nat) : Bytes := (source.drop start).take (stop - start)

/-- The text of a stretch of the source. -/
def textBetween (source : Bytes) (start stop : Nat) : Except LiteralError Text :=
  match Utf8.decode (bytesBetween source start stop) with
  | .ok t => .ok t
  | .error e => .error (.undecodable e)

/-- The name of an element's attribute: the text of the first child that is a name. -/
def nameOf (source : Bytes) (n : Node) : Except LiteralError Text :=
  match n.children.find? fun c => c.kind == .name with
  | some c => textBetween source c.start c.stop
  | none => .ok []

/-- How a literal is to be read, given where it stands: the kind of candidate with the name
    of the attribute, or nothing if it is none. -/
def role? (source : Bytes) (s : Site) : Except LiteralError (Option (CandidateKind × Text)) :=
  match s.node.kind, s.parent with
  | .string, none => .ok (some (.literal, []))
  | .string, some p =>
    -- A string that stands for a type is none that is shown.
    if p.kind = .literalType then .ok none
    else if p.kind = .attribute then
      match nameOf source p with
      | .error e => .error e
      | .ok name =>
        if Markup.readableAttributes.contains name.lower then .ok (some (.attribute, name))
        else .ok none
    else .ok (some (.literal, []))
  | .template, none => .ok (some (.literal, []))
  -- A template right under a call is tagged, and its words are for the tag to read.
  | .template, some p => if p.kind = .call then .ok none else .ok (some (.literal, []))
  | _, _ => .ok none

/-- What stands between the first and the last code point of a literal. -/
def body (raw : Text) : Text := (raw.drop 1).dropLast

/-- The text that a body stands for: an attribute's is taken as it is. -/
def bodyText (kind : CandidateKind) (raw : Text) : Except LiteralError Text :=
  match kind with
  | .attribute => .ok raw
  | .literal =>
    match Literal.decode raw with
    | .ok t => .ok t
    | .error e => .error (.numberTooLarge e)

/-- The candidate at a site, if it is one. -/
def candidate? (source : Bytes) (s : Site) : Except LiteralError (Option Candidate) :=
  match role? source s with
  | .error e => .error e
  | .ok none => .ok none
  | .ok (some (kind, name)) =>
    match textBetween source s.node.start s.node.stop with
    | .error e => .error e
    -- What is missing in the source has no quotes.
    | .ok [] => .ok none
    | .ok [_] => .ok none
    | .ok (quote :: rest) =>
      match bodyText kind (body (quote :: rest)) with
      | .error e => .error e
      | .ok t => .ok (some ⟨t, kind, s.node.start, s.node.stop, quote, name⟩)

/-- The candidates at the sites of a list, up to the first one that cannot be read. -/
def candidatesAt (source : Bytes) : List Site → Except LiteralError (List Candidate)
  | [] => .ok []
  | s :: rest =>
    match candidate? source s with
    | .error e => .error e
    | .ok none => candidatesAt source rest
    | .ok (some c) =>
      match candidatesAt source rest with
      | .error e => .error e
      | .ok cs => .ok (c :: cs)

/-- The candidates of a program, in the order of their sites. -/
def candidates (source : Bytes) (root : Node) : Except LiteralError (List Candidate) :=
  candidatesAt source (literalSites root)

end Arabize.Script

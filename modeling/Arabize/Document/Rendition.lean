import Arabize.Script.Grammar.Dialect

/-! # Documents and their renditions

A document is of one of a few formats, given by a word.  A rendition is the new content of a
document, what became of it, how many of its texts changed, and why it could not be read if
that is what happened.
-/

namespace Arabize

inductive Format
  | json
  | html
  | program (dialect : Script.Grammar.Dialect)
  deriving DecidableEq, Repr

def Format.name : Format → Text
  | .json => "json"
  | .html => "html"
  | .program dialect => dialect.name

def Format.ofName? (name : Text) : Option Format :=
  [Format.json, .html, .program .js, .program .ts, .program .tsx].find? fun f => f.name = name

inductive Status
  | translated
  | unchanged
  /-- The document could not be read; its content is kept. -/
  | unreadable
  deriving DecidableEq, Repr

def Status.name : Status → Text
  | .translated => "translated"
  | .unchanged => "unchanged"
  | .unreadable => "parse_failed"

structure Rendition where
  /-- The new content, or the old one if it could not be read. -/
  content : Text
  status : Status
  replacements : Nat
  /-- Why the document could not be read; empty if it could. -/
  error : Text
  deriving DecidableEq

def Rendition.ok (r : Rendition) : Bool := r.status != .unreadable

/-- The rendition of a document that was edited: translated if its content changed. -/
def Rendition.ofEdit (before after : Text) (replacements : Nat) : Rendition :=
  ⟨after, if after = before then .unchanged else .translated, replacements, []⟩

/-- The rendition of a document that could not be read. -/
def Rendition.unreadable (content error : Text) : Rendition := ⟨content, .unreadable, 0, error⟩

end Arabize

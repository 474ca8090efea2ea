import Arabize.Script.Grammar.Goal
import Arabize.Script.Tree

/-! # Rules

A rule is a list of forms, each a row of symbols: the goal that it defines may be made of
any of them.  Rules are put together by `seq`, `oneOf` and `maybe`, so that what is shared
between goals without being a goal itself is an ordinary definition.

Where two forms could go on with the same token, their ranks and sides decide: a form of a
higher rank wins, and among equals the side says which operator takes the operand between
them.  What neither decides is left open, and both are tried.
-/

namespace Arabize.Script.Grammar

/-- Tokens that are not spelled in one way only. -/
inductive Lexeme
  | name
  /-- A name where no word is reserved, as behind a dot. -/
  | memberName
  | privateName
  | number
  | doubleQuotedText
  | singleQuotedText
  | escape
  | templateText
  | regexBody
  | regexEnd
  | regexFlags
  | elementText
  | reference
  | dashedName
  /-- Code points of an attribute's value in double quotes. -/
  | doubleQuotedValue
  /-- Code points of an attribute's value in single quotes. -/
  | singleQuotedValue
  /-- The end of a statement that is not written. -/
  | lineEnd
  /-- The end of a function without a body that is not written. -/
  | signatureEnd
  | questionMark
  /-- The words `static` and `get` in front of a line break. -/
  | staticGet
  /-- The first line of a program that names its interpreter. -/
  | interpreterLine
  deriving DecidableEq, Repr, Hashable

inductive Terminal
  | finish
  | spelled (s : Text)
  | lexeme (l : Lexeme)
  deriving DecidableEq, Repr, Hashable

inductive Symbol
  | terminal (t : Terminal)
  | goal (g : Goal)
  deriving DecidableEq

/-- How tightly the symbols of a form hold together. -/
inductive Rank
  | member
  | templateCall
  | call
  | construction
  | instantiation
  | extension
  | unary
  | assertion
  | power
  | product
  | addition
  | shift
  | relation
  | equality
  | bitAnd
  | bitXor
  | bitOr
  | logicalAnd
  | logicalOr
  | ternary
  | ascription
  | assignment
  | declaration
  | literal
  | object
  | signed
  deriving DecidableEq, Repr

/-- Which of two operators of one rank takes the operand between them. -/
inductive Side
  | left
  | right
  deriving DecidableEq, Repr

/-- One of the things that a goal may be made of. -/
structure Form where
  symbols : List Symbol
  rank : Option Rank := none
  side : Option Side := none

abbrev Rule := List Form

namespace Rule

/-- A sign or a word as a rule. -/
def spelled (s : String) : Rule := [⟨[.terminal (.spelled (Text.ofString s))], none, none⟩]

instance : Coe String Rule := ⟨spelled⟩

def goal (g : Goal) : Rule := [⟨[.goal g], none, none⟩]

def token (l : Lexeme) : Rule := [⟨[.terminal (.lexeme l)], none, none⟩]

def nothing : Rule := [⟨[], none, none⟩]

def never : Rule := []

def seq : List Rule → Rule
  | [] => nothing
  | r :: rs => r.flatMap fun f => (seq rs).map fun g => ⟨f.symbols ++ g.symbols, none, none⟩

def oneOf (rs : List Rule) : Rule := rs.flatten

def maybe (r : Rule) : Rule := r ++ nothing

def anyOf (ws : List String) : Rule := oneOf (ws.map spelled)

/-- Gives the forms of a rule a rank. -/
def ranked (k : Rank) (r : Rule) : Rule := r.map fun f => { f with rank := some k }

/-- Gives the operand between two operators to the first one. -/
def leftward (r : Rule) : Rule := r.map fun f => { f with side := some .left }

/-- Gives the operand between two operators to the second one. -/
def rightward (r : Rule) : Rule := r.map fun f => { f with side := some .right }

def typed (d : Dialect) (r : Rule) : Rule := if d.hasTypes then r else never

def untyped (d : Dialect) (r : Rule) : Rule := if d.hasTypes then never else r

def maybeTyped (d : Dialect) (r : Rule) : Rule := if d.hasTypes then maybe r else nothing

end Rule

/-- What a goal may be made of, and the node that stands for it. -/
structure Definition where
  goal : Goal
  /-- The kind of its node; without one the nodes of its parts stand for themselves. -/
  kind : Option Kind
  rule : Rule

namespace Definition

/-- A goal that has a node of no special kind. -/
def node (g : Goal) (r : Rule) : Definition := ⟨g, some .other, r⟩

/-- A goal that has a node of a kind. -/
def nodeOf (g : Goal) (k : Kind) (r : Rule) : Definition := ⟨g, some k, r⟩

def hidden (g : Goal) (r : Rule) : Definition := ⟨g, none, r⟩

/-- A goal that is a row of one or more items. -/
def row (g : Goal) (item : Rule) : Definition := ⟨g, none, Rule.seq [Rule.goal g, item] ++ item⟩

end Definition

end Arabize.Script.Grammar

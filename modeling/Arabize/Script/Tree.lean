import Arabize.Script.Grammar.Dialect

/-! # Syntax trees of programs

What the library needs of a program's syntax tree is small: which stretches are string
and template literals, what kind of node they hang under, and whether anything in the
tree is an error.  Every other kind of node is just there to hold its children.
Stretches are given in bytes of the source.
-/

namespace Arabize.Script

inductive Kind
  | string
  | template
  | literalType
  | attribute
  /-- The name of an attribute, or any other name. -/
  | name
  /-- A call, or a template with the function it is handed to. -/
  | call
  | elementText
  | error
  | other
  deriving DecidableEq, Repr

inductive Node
  /-- A node of a kind with its stretch and its children; `missing` marks a node that the
      source lacks, `faulty` one that is known to hold an error. -/
  | mk (kind : Kind) (start stop : Nat) (missing faulty : Bool) (children : List Node)

namespace Node

def kind : Node → Kind
  | .mk k _ _ _ _ _ => k

/-- The offset of the first byte of a node. -/
def start : Node → Nat
  | .mk _ s _ _ _ _ => s

/-- The offset behind the last byte of a node. -/
def stop : Node → Nat
  | .mk _ _ e _ _ _ => e

def missing : Node → Bool
  | .mk _ _ _ m _ _ => m

def children : Node → List Node
  | .mk _ _ _ _ _ cs => cs

mutual

def count : Node → Nat
  | .mk _ _ _ _ _ cs => 1 + countAll cs

/-- How many nodes the trees of a list have. -/
def countAll : List Node → Nat
  | [] => 0
  | n :: ns => n.count + countAll ns

end

mutual

/-- Whether anything in a tree is an error. -/
def hasError : Node → Bool
  | .mk k _ _ missing faulty cs => k == .error || missing || faulty || anyError cs

/-- Whether anything in the trees of a list is an error. -/
def anyError : List Node → Bool
  | [] => false
  | n :: ns => n.hasError || anyError ns

end

mutual

/-- The start of the first error of a tree, parents before children. -/
def firstFault? : Node → Option Nat
  | .mk k s _ missing _ cs => if k = .error ∨ missing = true then some s else firstFaultIn? cs

/-- The start of the first error in the trees of a list. -/
def firstFaultIn? : List Node → Option Nat
  | [] => none
  | n :: ns => (firstFault? n).or (firstFaultIn? ns)

end

def leaf (k : Kind) (start stop : Nat) : Node := .mk k start stop false false []

def branch (k : Kind) (start stop : Nat) (children : List Node) : Node :=
  .mk k start stop false false children

instance : Inhabited Node := ⟨leaf .other 0 0⟩

/-- The root of a source that could not be read. -/
def unreadable (stop : Nat) : Node := .mk .other 0 stop false true []

end Node

/-! ## Parsers -/

/-- A way to give the syntax tree of a source. -/
abbrev Reading := Text → Node

/-- Whatever parses programs: a reading for every dialect.  The library is told which one
    there is, and takes of it what the trees say. -/
class Parser where
  parse : Grammar.Dialect → Reading

end Arabize.Script

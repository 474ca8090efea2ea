import Arabize.Script.Grammar.Rule

/-! # Names, targets and rows

What is shared by many rules without being a goal: the words that are names where nothing
else is meant by them, what may be assigned to, the ends of statements, and the rows of
items with commas between them.
-/

namespace Arabize.Script.Grammar

open Rule

def softWords (d : Dialect) : Rule :=
  oneOf [
    anyOf ["get", "set", "async", "static", "export", "let"],
    typed d (anyOf
      ["declare", "namespace", "type", "public", "private", "protected", "override", "readonly",
       "module", "any", "number", "boolean", "string", "symbol", "object", "new"])]

def softName (d : Dialect) : Rule := oneOf [token .name, softWords d]

def valueName (d : Dialect) : Rule := oneOf ["undefined", softName d]

/-- A name, or a pattern that takes a value apart. -/
def binding : Rule := oneOf [token .name, goal .destructuring]

def target (d : Dialect) : Rule :=
  oneOf [goal .member, goal .subscript, valueName d, goal .destructuring,
    typed d (goal .nonNull)]

/-- The end of a statement, written or not. -/
def semicolon : Rule := oneOf [token .lineEnd, ";"]

def expressions : Rule := oneOf [goal .expression, goal .sequence]

/-- The parameters of a function, with types where there are any. -/
def heading (d : Dialect) : Rule := goal (if d.hasTypes then .signature else .parameters)

/-- Items with commas between them, the first one and further ones. -/
def separated (first : Rule) (more : Goal) : Rule := seq [first, maybe (goal more)]

/-- Items with commas between them and perhaps one at the end. -/
def listed (first : Rule) (more : Goal) : Rule := seq [separated first more, maybe ","]

/-- Items with commas between them, any of which may be missing. -/
def sparse (item : Rule) (more : Goal) : Rule := seq [maybe item, maybe (goal more)]

end Arabize.Script.Grammar

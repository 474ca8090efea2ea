import Arabize.Text.Lower

/-! # Dialects

The language comes in three dialects.  They differ in which constructs their grammars hold
and in a few habits of the lexer; everything else is shared.
-/

namespace Arabize.Script.Grammar

inductive Dialect
  | js
  | ts
  | tsx
  deriving DecidableEq, Repr

namespace Dialect

def hasTypes (d : Dialect) : Bool := d != .js

def hasElements (d : Dialect) : Bool := d != .ts

def name : Dialect → Text
  | .js => "js"
  | .ts => "ts"
  | .tsx => "tsx"

def all : List Dialect := [.js, .ts, .tsx]

end Dialect

end Arabize.Script.Grammar

namespace Arabize.Script

/-- The dialect of a file's extension; the case of its letters makes no difference. -/
def dialectOfExtension (extension : Text) : Grammar.Dialect :=
  let e := extension.lower
  if e = Text.ofString ".ts" then .ts else if e = Text.ofString ".tsx" then .tsx else .js

end Arabize.Script

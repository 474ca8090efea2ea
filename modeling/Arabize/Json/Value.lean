import Arabize.Mapping
import Arabize.Number.Shortest

/-! # JSON values

The document model: objects keep their fields in order, whole numbers are exact, and
every other number is a double.  `graft` visits the string leaves in document order and
leaves keys, nesting and every other value as they are; `mapLeaves` puts strings there again.
-/

namespace Arabize

inductive Json
  | null
  | bool (b : Bool)
  | int (n : Int)
  | float (x : Binary64)
  | str (t : Text)
  | arr (items : List Json)
  | obj (fields : List (Text × Json))

namespace Json

instance : Inhabited Json := ⟨.null⟩

/-! ## Views -/

def fields? : Json → Option (Mapping Json)
  | .obj fs => some fs
  | _ => none

def items? : Json → Option (List Json)
  | .arr xs => some xs
  | _ => none

def text? : Json → Option Text
  | .str t => some t
  | _ => none

def field? (j : Json) (key : Text) : Option Json :=
  match j with
  | .obj fs => Mapping.find? key fs
  | _ => none

/-- Whether a value counts as present: null, false, zero and everything empty do not. -/
def isTruthy : Json → Bool
  | .null => false
  | .bool b => b
  | .int n => n != 0
  | .float x => !x.isZero
  | .str t => !t.isEmpty
  | .arr xs => !xs.isEmpty
  | .obj fs => !fs.isEmpty

/-- The fields of an object that hold strings. -/
def textFields (fs : Mapping Json) : Mapping Text :=
  fs.filterMap fun kv => kv.2.text?.map fun t => (kv.1, t)

def textValues (m : Mapping Text) : Mapping Json := m.map fun kv => (kv.1, .str kv.2)

/-! ## String leaves -/

variable {σ : Type}

mutual

/-- Replaces every string leaf by the value that `visit` gives for it, from left to right. -/
def graft (visit : Text → StateM σ Json) : Json → StateM σ Json
  | .str t => visit t
  | .arr xs => do return .arr (← graftList visit xs)
  | .obj fs => do return .obj (← graftFields visit fs)
  | .null => return .null
  | .bool b => return .bool b
  | .int n => return .int n
  | .float x => return .float x

/-- Replaces the string leaves of the items of an array. -/
def graftList (visit : Text → StateM σ Json) : List Json → StateM σ (List Json)
  | [] => return []
  | x :: xs => do
    let x ← graft visit x
    let xs ← graftList visit xs
    return x :: xs

/-- Replaces the string leaves of the fields of an object, keys aside. -/
def graftFields (visit : Text → StateM σ Json) :
    List (Text × Json) → StateM σ (List (Text × Json))
  | [] => return []
  | (k, v) :: fs => do
    let v ← graft visit v
    let fs ← graftFields visit fs
    return (k, v) :: fs

end

/-- Replaces every string leaf by the string that `visit` gives for it, from left to right. -/
def mapLeaves (visit : Text → StateM σ Text) (j : Json) : StateM σ Json :=
  j.graft fun t => do return .str (← visit t)

mutual

/-- The string leaves of a value in document order. -/
def leaves : Json → List Text
  | .str t => [t]
  | .arr xs => leavesList xs
  | .obj fs => leavesFields fs
  | _ => []

/-- The string leaves of a list of values. -/
def leavesList : List Json → List Text
  | [] => []
  | x :: xs => leaves x ++ leavesList xs

/-- The string leaves of a list of fields. -/
def leavesFields : List (Text × Json) → List Text
  | [] => []
  | (_, v) :: fs => leaves v ++ leavesFields fs

end

end Json

end Arabize

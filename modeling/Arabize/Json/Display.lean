import Arabize.Json.Value
import Arabize.Text.Quoted

/-! # Values in running text

How a JSON value reads where a text is wanted: a string stands for itself, and inside an
array or an object it is quoted; truth values and null are capitalized words.  `same`
compares values by what they count for: numbers by their size, truth values as zero and
one, objects without regard to the order of their fields.
-/

namespace Arabize.Json

def plainLayout : Number.Layout := ⟨-3, 16, "inf", "nan"⟩

mutual

def displayInner : Json → Text
  | .null => "None"
  | .bool true => "True"
  | .bool false => "False"
  | .int n => Text.ofInt n
  | .float x => plainLayout.double x
  | .str t => t.quoted
  | .arr xs => Text.ofString "[" ++ displayItems false xs ++ Text.ofString "]"
  | .obj fs => Text.ofString "\x7b" ++ displayFields false fs ++ Text.ofString "\x7d"

/-- Items with commas between them, one also in front if `more` says so. -/
def displayItems (more : Bool) : List Json → Text
  | [] => []
  | x :: xs => (if more then (", " : Text) else []) ++ displayInner x ++ displayItems true xs

/-- Fields with commas between them, one also in front if `more` says so. -/
def displayFields (more : Bool) : List (Text × Json) → Text
  | [] => []
  | (k, v) :: fs =>
    (if more then (", " : Text) else []) ++ k.quoted ++ Text.ofString ": " ++ displayInner v
      ++ displayFields true fs

end

def display : Json → Text
  | .str t => t
  | other => displayInner other

/-- The sort of a value, as a message names it. -/
def sortName : Json → Text
  | .null => "NoneType"
  | .bool _ => "bool"
  | .int _ => "int"
  | .float _ => "float"
  | .str _ => "str"
  | .arr _ => "list"
  | .obj _ => "dict"

/-- A value that counts as a number: a sign, a numerator and a power of two, the sign of
    zero left aside. -/
def size? : Json → Option (Int × Int)
  | .bool b => some (if b then 1 else 0, 0)
  | .int n => some (n, 0)
  | .float (.finite negative m e) => some (if negative then -(m : Int) else m, e)
  | _ => none

/-- Whether `m * 2 ^ e` and `n * 2 ^ f` are the same number. -/
def sameSize (a b : Int × Int) : Bool :=
  let low := min a.2 b.2
  let raised (x : Int × Int) : Int := x.1 * Int.ofNat (Binary64.twoTo (x.2 - low).toNat)
  raised a == raised b

/-- Whether two values that hold no others count for the same. -/
def sameScalar (a b : Json) : Bool :=
  match size? a, size? b with
  | some x, some y => sameSize x y
  | none, none =>
    match a, b with
    | .null, .null => true
    | .float (.infinite m), .float (.infinite n) => m == n
    | .str s, .str t => s == t
    | _, _ => false
  | _, _ => false

mutual

def same : Json → Json → Bool
  | .arr xs, .arr ys => sameItems xs ys
  | .obj fs, .obj gs => fs.length == gs.length && sameFields fs gs
  | a, b => sameScalar a b

/-- Whether two lists of values count for the same. -/
def sameItems : List Json → List Json → Bool
  | [], [] => true
  | x :: xs, y :: ys => same x y && sameItems xs ys
  | _, _ => false

/-- Whether every field of the first list has its like in the second one. -/
def sameFields : List (Text × Json) → List (Text × Json) → Bool
  | [], _ => true
  | (k, v) :: fs, gs =>
    (match Mapping.find? k gs with
      | some w => same v w
      | none => false) && sameFields fs gs

end

end Arabize.Json

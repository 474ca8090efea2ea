import Arabize.Json.Writer

/-! # Writing an object piece by piece

An object is written in small pieces: marks, blanks, keys and values.  Joined they are what
`Json.write` gives for the object; apart they show how far a writer came that had to stop
at a key or a value.
-/

namespace Arabize.Json

def fieldPieces (kv : Text × Json) : List Text :=
  [newline 1, writeText kv.1, keyMark, writeAt writeText 1 kv.2]

/-- The pieces of the fields after the first, each behind its comma. -/
def morePieces : Mapping Json → List Text
  | [] => []
  | kv :: rest => (("," : Text) :: fieldPieces kv) ++ morePieces rest

def pieces : Mapping Json → List Text
  | [] => ["\x7b\x7d"]
  | kv :: rest =>
    (("\x7b" : Text) :: fieldPieces kv) ++ morePieces rest ++ [newline 0, ("\x7d" : Text)]

/-- The pieces after the first field are the fields after the first. -/
theorem morePieces_flatten (m : Mapping Json) :
    (morePieces m).flatten = writeFields writeText 1 m := by
  induction m with
  | nil => simp [morePieces, writeFields]
  | cons kv rest ih => simp [morePieces, fieldPieces, writeFields, ih]

theorem pieces_flatten (m : Mapping Json) : (pieces m).flatten = write (.obj m) := by
  cases m with
  | nil => simp [pieces, write, writeAt]
  | cons kv rest => simp [pieces, fieldPieces, write, writeAt, morePieces_flatten]

end Arabize.Json

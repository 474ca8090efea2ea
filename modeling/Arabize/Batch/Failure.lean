import Arabize.Document.Stray
import Arabize.Json.Display
import Arabize.Project.Guard

/-! # What can end a run

Most faults of a file only cost its rendition: they are reported, and the run goes on.
The others end it.
-/

namespace Arabize

/-- Why a style sheet could not be mirrored. -/
inductive StyleError
  | refused (message : Text)
  | broken (message : Text)
  deriving DecidableEq

abbrev Mirror := Text → Except StyleError Text

inductive Failure
  | project (e : ProjectError)
  | document (e : DocumentError)
  | style (e : StyleError)
  /-- A file of words could not be written or removed. -/
  | access (e : AccessError)
  /-- A value that is no text stands where a path belongs. -/
  | notPath (value : Json)

namespace Failure

/-- What is said of a value that is no path. -/
def notPathMessage (value : Json) : Text :=
  "expected str, bytes or os.PathLike object, not " ++ value.sortName

def message : Failure → Text
  | .project e => e.message
  | .document e => e.message
  | .style (.refused m) => m
  | .style (.broken m) => m
  | .access e => e.message
  | .notPath value => notPathMessage value

/-- Whether a fault is one that the program is prepared for. -/
def isExpected : Failure → Bool
  | .project _ => true
  | .document e => e.isExpected
  | .style (.refused _) => true
  | .style (.broken _) => false
  | .access _ => true
  | .notPath _ => false

end Failure

end Arabize

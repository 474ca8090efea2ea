import Arabize.Document.Rendition
import Arabize.Project.Kind

/-! # The report of a run

What became of each file of a run, in order, and the numbers of the run as a whole.
-/

namespace Arabize

inductive Verdict
  /-- Its document was rendered, or copied as it could not be read. -/
  | rendered (status : Status)
  | failed
  | skipped
  | other (word : Text)
  deriving DecidableEq, Repr

namespace Verdict

def name : Verdict → Text
  | .rendered status => status.name
  | .failed => "failed"
  | .skipped => "skipped"
  | .other word => word

def ofName (word : Text) : Verdict :=
  let known := [rendered .translated, rendered .unchanged, rendered .unreadable, failed, skipped]
  (known.find? fun v => v.name = word).getD (.other word)

/-- Whether a rendition was written whose document could be read. -/
def isSuccess : Verdict → Bool
  | .rendered .translated => true
  | .rendered .unchanged => true
  | _ => false

def isFailure : Verdict → Bool
  | .rendered .unreadable => true
  | .failed => true
  | _ => false

def isSkip : Verdict → Bool
  | .skipped => true
  | _ => false

end Verdict

/-- What became of one file of a run. -/
structure Outcome where
  path : Path
  kind : FileKind
  verdict : Verdict
  /-- The path of its rendition; empty if there is none. -/
  output : Path
  error : Text
  deriving DecidableEq

/-- What became of the files of a run. -/
structure Report where
  /-- The outcomes, in the order in which the files were dealt with. -/
  outcomes : List Outcome
  missing : Nat
  fetched : Nat
  remembered : Nat

namespace Report

def add (r : Report) (o : Outcome) : Report := { r with outcomes := r.outcomes ++ [o] }

def total (r : Report) : Nat := r.outcomes.length

/-- How many outcomes have a verdict of some sort. -/
def count (r : Report) (sort : Verdict → Bool) : Nat :=
  (r.outcomes.filter fun o => sort o.verdict).length

def succeeded (r : Report) : Nat := r.count Verdict.isSuccess

def failed (r : Report) : Nat := r.count Verdict.isFailure

def skipped (r : Report) : Nat := r.count Verdict.isSkip

def failures (r : Report) : List Outcome := r.outcomes.filter fun o => o.verdict.isFailure

def verdictLine (r : Report) : Text :=
  "Translation complete: " ++ Text.ofNat r.succeeded ++ " succeeded, " ++ Text.ofNat r.failed
    ++ " failed"

/-- The line on files left alone, if there are any. -/
def skipLine (r : Report) : List Text :=
  if r.skipped = 0 then [] else ["Skipped: " ++ Text.ofNat r.skipped]

/-- The line on missing texts, if there are any. -/
def missingLine (r : Report) : List Text :=
  if r.missing = 0 then []
  else
    ["Missing words found: " ++ Text.ofNat r.missing ++ " (AI translated "
      ++ Text.ofNat r.fetched ++ ")"]

def memoryLine (r : Report) : Text := "Cache size: " ++ Text.ofNat r.remembered ++ " entries"

def summaryLines (r : Report) : List Text :=
  r.verdictLine :: r.skipLine ++ r.missingLine ++ [r.memoryLine]

def summary (r : Report) : Text := Text.intercalate "\n" r.summaryLines

end Report

end Arabize

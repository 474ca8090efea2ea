import Arabize.Document.Missing
import Arabize.Project.Guard

/-! # The words missing from the files of a project

Before a run its documents are read and searched for missing words.  Style sheets and
files of unknown kind are passed over in silence; a file that cannot be read is reported
and passed over.
-/

namespace Arabize.Project

/-- What is reported of a file that cannot be read. -/
def unsearched (p : Path) (e : ProjectError) : LogEntry :=
  ⟨.warning, "Could not read " ++ p ++ " for missing words collection: " ++ e.message⟩

def surveyFile [Script.Parser] (d : Disk) (root : Path) (lexicon : Lexicon) (p : Path) :
    Missing.SearchStep Unit := fun s =>
  match FileKind.ofPath p with
  | .document format =>
    match read d root [] p with
    | .error e => (.ok (), { s with log := s.log ++ [unsearched p e] })
    | .ok content =>
      match Missing.search lexicon format.name content s with
      | (.ok _, s) => (.ok (), s)
      | (.error e, s) => (.error e, s)
  | _ => (.ok (), s)

def survey [Script.Parser] (d : Disk) (root : Path) (lexicon : Lexicon) :
    List Path → Missing.SearchStep Unit
  | [] => return ()
  | p :: rest => do
    surveyFile d root lexicon p
    survey d root lexicon rest

end Arabize.Project

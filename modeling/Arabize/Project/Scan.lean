import Arabize.Log
import Arabize.Project.Guard

/-! # Scanning a project

The files of a project that can be translated, found by a walk that enters no excluded
directory, nor that of the program itself, and follows no link to a directory.  The paths
found are absolute and in increasing order.
-/

namespace Arabize.Project

structure Search where
  root : Path
  /-- The directory of the program itself; empty if there is none to leave aside. -/
  tool : Path
  excluded : List Text

/-- Whether a walk enters the directory of a name. -/
def enters (d : Disk) (s : Search) (p : Path) (name : Text) : Bool :=
  !s.excluded.contains name && (s.tool.isEmpty || d.realPath p != d.realPath s.tool)

/-- Whether a file found by a walk is one to translate. -/
def isWanted (d : Disk) (s : Search) (p : Path) : Except AccessError Bool :=
  if FileKind.ofPath p = .unknown then .ok false
  else (isExcluded d s.root s.tool s.excluded p).map not

/-- The files below a directory, given by its path and its location, and not more than so
    many levels below it. -/
def filesBelow (d : Disk) (s : Search) : Nat → Path → Location → List Path
  | 0, _, _ => []
  | depth + 1, dir, loc =>
    (d.namesIn loc).flatMap fun name =>
      let p := Path.join dir name
      match d.entry? (loc ++ [name]) with
      | some .directory => if enters d s p name then filesBelow d s depth p (loc ++ [name]) else []
      | some (.link _) => if d.isDirectory p then [] else [p]
      | some (.file _) => [p]
      | none => []

/-- The greatest number of names in a location of a disk. -/
def deepest (d : Disk) : Nat := d.entries.foldl (fun n e => max n e.1.length) 0

/-- The files of a list that are to be translated. -/
def wanted (d : Disk) (s : Search) : List Path → Except AccessError (List Path)
  | [] => .ok []
  | p :: rest => do
    let keep ← isWanted d s p
    let rest ← wanted d s rest
    return if keep then p :: rest else rest

/-- The files of a project that can be translated, given the absolute path of the project. -/
def files (d : Disk) (s : Search) : Except ProjectError (List Path) :=
  match d.locate .target s.root with
  | .ok (.there loc .directory) =>
    match wanted d s (filesBelow d s (deepest d + 1) s.root loc) with
    | .ok found => .ok (Text.sort found)
    | .error e => .error (.access e)
  | _ => .error (.noDirectory s.root)

def scanEntry (root : Path) (found : List Path) : LogEntry :=
  ⟨.info, "Found " ++ Text.ofNat found.length ++ " translatable files under " ++ root⟩

/-- Scans a project; a relative path of it counts from the working directory. -/
def scan (d : Disk) (s : Search) : Except ProjectError (List Path × LogEntry) := do
  let s := { s with root := Path.absolute d.cwd s.root }
  let found ← files d s
  return (found, scanEntry s.root found)

end Arabize.Project

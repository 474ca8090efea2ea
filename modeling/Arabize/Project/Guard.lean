import Arabize.Disk.Access
import Arabize.Project.Kind

/-! # Which files may be touched

A project file is read only if its real path lies in the project, outside the directory of
the program itself and below no excluded directory, and if it is not a rendition; a
rendition is written only into the project.  All comparisons are between real paths, so no
link leads around them.
-/

namespace Arabize

/-- Why a project file is not dealt with. -/
inductive ProjectError
  | unsupported (path : Path)
  | excluded (path : Path)
  | outside (path : Path)
  | noDirectory (root : Path)
  | access (e : AccessError)
  deriving DecidableEq

def ProjectError.message : ProjectError → Text
  | .unsupported p => "Unsupported file type: " ++ p
  | .excluded p => "File is outside the project or excluded: " ++ p
  | .outside p => "Refusing to write outside the project: " ++ p
  | .noDirectory p => "Project root is not a directory: " ++ p
  | .access e => e.message

namespace Project

/-- The names of directories that are left aside unless others are given. -/
def excludedNames : List Text :=
  List.map Text.ofString ["node_modules", ".git", "dist", "build", ".next", "out"]

/-- Whether a real path is another one or starts with it and a slash. -/
def extendsReal (root p : Path) : Bool :=
  p = root || Text.startsWith p (root ++ [Path.slash])

/-- Whether the real path of a path is that of a directory or lies below it. -/
def isWithin (d : Disk) (root p : Path) : Except AccessError Bool := do
  let p ← d.realPathOf p
  let root ← d.realPathOf root
  return extendsReal root p

/-- Whether a path below a directory is in an excluded directory or has the name of a
    rendition. -/
def isSetAside (d : Disk) (root : Path) (excluded : List Text) (p : Path) : Bool :=
  let steps := Path.components (Path.way (d.realNames root) (d.realNames p))
  steps.dropLast.any excluded.contains || Path.isRendition p

/-- Whether a file is none that may be read or overwritten.  An empty path of the program's
    own directory stands for none. -/
def isExcluded (d : Disk) (root tool : Path) (excluded : List Text) (p : Path) :
    Except AccessError Bool := do
  if !(← isWithin d root p) then return true
  -- Files of the program itself are not to be translated.
  if !tool.isEmpty && (← isWithin d tool p) then return true
  return isSetAside d root excluded p

/-- Whether a file that is to be read has to be refused. -/
def refusal? (d : Disk) (root tool p : Path) : Except AccessError (Option ProjectError) :=
  if FileKind.ofPath p = .unknown then .ok (some (.unsupported p))
  else
    match isExcluded d root tool excludedNames p with
    | .ok true => .ok (some (.excluded p))
    | .ok false => .ok none
    | .error e => .error e

def read (d : Disk) (root tool p : Path) : Except ProjectError Text :=
  match refusal? d root tool p with
  | .error e => .error (.access e)
  | .ok (some e) => .error e
  | .ok none => (d.readText p).mapError .access

/-- A change of a project that may fail. -/
abbrev Change := ExceptT ProjectError (StateM Disk)

def onDisk {α : Type} (change : Disk.Change α) : Change α := fun d =>
  match change d with
  | (.ok a, d) => (.ok a, d)
  | (.error e, d) => (.error (.access e), d)

/-- Refuses a path outside a directory; an empty path of the directory refuses nothing. -/
def checkTarget (root p : Path) : Change Unit := fun d =>
  if root = [] then (.ok (), d)
  else
    match isWithin d root p with
    | .ok true => (.ok (), d)
    | .ok false => (.error (.outside p), d)
    | .error e => (.error (.access e), d)

/-- Writes a file into a project and makes the directories it is in. -/
def write (root p : Path) (content : Text) : Change Unit := do
  checkTarget root p
  let cwd := (← get).cwd
  onDisk (Disk.makeDirectories (Path.directory (Path.absolute cwd p)))
  onDisk (Disk.writeText p content)

end Project

end Arabize

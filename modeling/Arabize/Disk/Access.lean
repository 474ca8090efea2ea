import Arabize.Disk.Tree

/-! # Access to a disk

What the program asks of a disk: to read a file as text, to write one, to make directories
and to remove a file.  Each of them either does its work or says why the system refuses.

A file is opened before its content is encoded, so a text that has no encoding leaves the
file behind with what was written before: nothing, or the pieces up to the one at fault.
-/

namespace Arabize

/-- Why a disk could not do what was asked of it. -/
inductive AccessError
  | refused (why : Disk.Refusal) (path : Path)
  /-- A path holds the code point zero, which no system can pass on. -/
  | zeroInPath
  | unencodable (e : Utf8.EncodeError)
  | undecodable (e : Utf8.DecodeError)
  deriving DecidableEq

def AccessError.isRefusal : AccessError → Bool
  | .refused .. => true
  | _ => false

def AccessError.message : AccessError → Text
  | .refused why path =>
    "[Errno " ++ Text.ofNat why.number ++ "] " ++ why.text ++ ": " ++ path.quoted
  | .zeroInPath => "embedded null byte"
  | .unencodable e => e.message
  | .undecodable e => e.message

namespace Path

/-- The last component is as long as the way back from the end to the last slash. -/
theorem baseName_length (p : Path) :
    (baseName p).length = (p.reverse.takeWhile (· != slash)).length := by
  simp [baseName]

/-- A path is at least as long as its directory and its last component together. -/
theorem directory_length (p : Path) : (directory p).length + (baseName p).length ≤ p.length := by
  have split : (p.reverse.takeWhile (· != slash)).length
      + (p.reverse.dropWhile (· != slash)).length = p.length := by
    rw [← List.length_append, List.takeWhile_append_dropWhile, List.length_reverse]
  have cut : ((p.reverse.dropWhile (· != slash)).dropWhile (· == slash)).length
      ≤ (p.reverse.dropWhile (· != slash)).length := (List.dropWhile_sublist _).length_le
  unfold directory
  simp only [baseName_length, List.reverse_reverse]
  split <;> simp only [List.length_reverse] <;> omega

/-- The path of the directory that a path is in, and the path's own name; slashes at the
    end of the path do not count. -/
def parentAndName (p : Path) : Path × Text :=
  if baseName p = [] then (directory (directory p), baseName (directory p))
  else (directory p, baseName p)

/-- Nor does leaving a slash at the end aside make the two parts longer. -/
theorem parentAndName_length (p : Path) :
    (parentAndName p).1.length + (parentAndName p).2.length ≤ p.length := by
  have outer := directory_length p
  have inner := directory_length (directory p)
  unfold parentAndName
  split <;> simp only [] <;> omega

end Path

namespace Disk

/-- Refuses a path that cannot be passed to the system. -/
def passPath (p : Path) : Except AccessError Unit :=
  match Path.firstStray 0 p with
  | some e => .error (.unencodable e)
  | none => if p.contains 0 then .error .zeroInPath else .ok ()

def locate (d : Disk) (aim : Aim) (p : Path) : Except AccessError Spot :=
  match passPath p with
  | .error e => .error e
  | .ok () =>
    match d.find aim p with
    | .ok spot => .ok spot
    | .error why => .error (.refused why p)

/-- The real path of a path that can be passed to the system. -/
def realPathOf (d : Disk) (p : Path) : Except AccessError Path :=
  match passPath p with
  | .error e => .error e
  | .ok () => .ok (d.realPath p)

/-! ## Reading -/

def readBytes (d : Disk) (p : Path) : Except AccessError Bytes :=
  match d.locate .target p with
  | .ok (.there _ (.file bytes)) => .ok bytes
  | .ok (.there _ _) => .error (.refused .isDirectory p)
  | .ok (.free _) => .error (.refused .notFound p)
  | .error e => .error e

/-- The text of a file, its line breaks normalized. -/
def readText (d : Disk) (p : Path) : Except AccessError Text :=
  match d.readBytes p with
  | .error e => .error e
  | .ok bytes =>
    match Utf8.decode bytes with
    | .ok t => .ok t.normalizeBreaks
    | .error e => .error (.undecodable e)

/-! ## Changing -/

/-- A change of a disk that may fail; what was done before a failure stays done. -/
abbrev Change := ExceptT AccessError (StateM Disk)

/-- The location of an empty file at a path: the file that was there, emptied, or a new
    one. -/
def createFile (p : Path) : Change Location := fun d =>
  match d.locate .creation p with
  | .ok (.there loc (.file _)) => (.ok loc, d.put loc (.file []))
  | .ok (.there _ _) => (.error (.refused .isDirectory p), d)
  | .ok (.free loc) => (.ok loc, d.put loc (.file []))
  | .error e => (.error e, d)

/-- The bytes of pieces of text up to the first one that has no encoding, and that one's
    error. -/
def encodePieces : List Text → Bytes × Option Utf8.EncodeError
  | [] => ([], none)
  | t :: rest =>
    match Utf8.encode t with
    | .error e => ([], some e)
    | .ok bytes =>
      let (more, error) := encodePieces rest
      (bytes ++ more, error)

def writePieces (p : Path) (pieces : List Text) : Change Unit := do
  let loc ← createFile p
  let (bytes, error) := encodePieces pieces
  modify fun d => d.put loc (.file bytes)
  match error with
  | some e => throw (.unencodable e)
  | none => return ()

def writeText (p : Path) (t : Text) : Change Unit := writePieces p [t]

/-- Makes a directory in a directory that is there; to find one is as good. -/
def makeDirectory (p : Path) : Change Unit := fun d =>
  match d.locate .entry p with
  | .ok (.free loc) => (.ok (), d.put loc .directory)
  | .ok (.there _ _) =>
    if d.isDirectory p then (.ok (), d) else (.error (.refused .exists p), d)
  | .error e => if d.isDirectory p then (.ok (), d) else (.error e, d)

/-- Makes a directory and those it is in. -/
def makeDirectories (p : Path) : Change Unit := fun d =>
  let head := (Path.parentAndName p).1
  let name := (Path.parentAndName p).2
  if _unnamed : name = [] then makeDirectory p d
  else if head = [] ∨ d.hasPath head then makeDirectory p d
  else
    match makeDirectories head d with
    | (.error e, d) =>
      -- Somebody else may have made the directory meanwhile, which is as good.
      match e with
      | .refused .exists _ => if name = Path.here then (.ok (), d) else makeDirectory p d
      | _ => (.error e, d)
    | (.ok (), d) => if name = Path.here then (.ok (), d) else makeDirectory p d
termination_by p.length
decreasing_by
  have bound := Path.parentAndName_length p
  have : 0 < (Path.parentAndName p).2.length := List.length_pos_iff.2 _unnamed
  omega

def remove (p : Path) : Change Unit := fun d =>
  match d.locate .removal p with
  | .ok (.there _ .directory) => (.error (.refused .isDirectory p), d)
  | .ok (.there loc _) => (.ok (), d.erase loc)
  | .ok (.free _) => (.error (.refused .notFound p), d)
  | .error e => (.error e, d)

end Disk

end Arabize

import Arabize.Text.Utf8

/-! # Paths

A path is a text of components with slashes between them; one that starts with a slash
counts from the root.  The functions here look at the text alone and never at a disk.
-/

namespace Arabize

abbrev Path := Text

namespace Path

def slash : CodePoint := '/'

/-- The component that stands for the directory it is in. -/
def here : Text := "."

/-- The component that stands for the directory above. -/
def up : Text := ".."

def isAbsolute (p : Path) : Bool := p.head? == some slash

/-- The components between the slashes; some may be empty. -/
def components (p : Path) : List Text := Text.splitOn slash p

def baseName (p : Path) : Text := (p.reverse.takeWhile (· != slash)).reverse

/-- What comes before the last component, slashes at its end taken off unless there is
    nothing else. -/
def directory (p : Path) : Path :=
  let head := (p.reverse.dropWhile (· != slash)).reverse
  let stripped := (head.reverse.dropWhile (· == slash)).reverse
  if stripped = [] then head else stripped

/-- A path below another one; an absolute path stays what it is. -/
def join (p q : Path) : Path :=
  if isAbsolute q then q
  else if p = [] ∨ p.getLast? = some slash then p ++ q
  else p ++ slash :: q

/-- Splits a path before the dot of its extension.  Dots that start the last component
    belong to no extension. -/
def splitExtension (p : Path) : Path × Text :=
  let base := baseName p
  let dots := base.takeWhile (· == CodePoint.ofChar '.')
  let stem := base.drop dots.length
  match Text.findLast? "." stem with
  | some i =>
    let n := p.length - stem.length + i
    (p.take n, p.drop n)
  | none => (p, [])

/-- The extension of a path with its dot. -/
def extension (p : Path) : Text := (splitExtension p).2

/-- The components of a path without empty ones, with `.` left out and `..` carried out as
    far as there is something to leave; the components kept are given from the last to the
    first. -/
def normalComponents (absolute : Bool) : (kept : List Text) → List Text → List Text
  | kept, [] => kept.reverse
  | kept, c :: rest =>
    if c = [] ∨ c = here then normalComponents absolute kept rest
    else if c = up then
      match kept with
      | [] => normalComponents absolute (if absolute then [] else [up]) rest
      | k :: ks =>
        if k = up then normalComponents absolute (up :: kept) rest
        else normalComponents absolute ks rest
    else normalComponents absolute (c :: kept) rest

/-- How many slashes a normal path starts with: exactly two are kept. -/
def leadingSlashes (p : Path) : Text :=
  if !isAbsolute p then []
  else if Text.startsWith p "//" && !Text.startsWith p "///" then "//"
  else "/"

def normalize (p : Path) : Path :=
  let cs := normalComponents (isAbsolute p) [] (components p)
  let q := leadingSlashes p ++ Text.intercalate [slash] cs
  if q = [] then here else q

/-- The absolute form of a path that counts from a directory. -/
def absolute (cwd p : Path) : Path := normalize (if isAbsolute p then p else join cwd p)

/-- The absolute path of components counted from the root. -/
def ofLocation (cs : List Text) : Path := slash :: Text.intercalate [slash] cs

/-- The length of the longest common beginning of two lists. -/
def commonLength : List Text → List Text → Nat
  | a :: s, b :: t => if a = b then commonLength s t + 1 else 0
  | _, _ => 0

/-- The way from one directory to a path, both given by their components. -/
def way (start target : List Text) : Path :=
  let n := commonLength start target
  let cs := List.replicate (start.length - n) up ++ target.drop n
  if cs = [] then here else Text.intercalate [slash] cs

/-- The components of an absolute path that are not empty. -/
def names (p : Path) : List Text := (components p).filter fun c => !c.isEmpty

/-- The way from a directory to a path, links left aside. -/
def relative (cwd p start : Path) : Path :=
  way (names (absolute cwd start)) (names (absolute cwd p))

/-! ## The bytes of a path -/

/-- Whether a code point stands for a single byte of a name that is no UTF-8.  Such a byte is
    read as a lone surrogate and passed on as the byte it was. -/
def isEscape (c : CodePoint) : Bool := 0xDC80 ≤ c.val && c.val ≤ 0xDCFF

def charSize (c : CodePoint) : Nat := if isEscape c then 1 else Utf8.charSize c

/-- The number of bytes of a path. -/
def size : Path → Nat
  | [] => 0
  | c :: p => charSize c + size p

/-- The first surrogate of a path that stands for no byte, and how far the surrogates go on from
    there; offsets are counted from `start`. -/
def firstStray (start : Nat) : Path → Option Utf8.EncodeError
  | [] => none
  | c :: p =>
    if c.isSurrogate && !isEscape c then
      some ⟨c, start, 1 + (p.takeWhile CodePoint.isSurrogate).length⟩
    else firstStray (start + 1) p

end Path

end Arabize

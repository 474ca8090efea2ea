import Arabize.Mapping
import Arabize.Disk.Path
import Arabize.Document.Rendition

/-! # Kinds of files and the names of their renditions

What a file is shows in the extension of its name.  The rendition of a file stands beside
it: `home.json` is rendered as `home-ar.json`, and a name with `-ar.` in it is taken for
one of a rendition.
-/

namespace Arabize

inductive FileKind
  | document (format : Format)
  /-- A style sheet, whose sides are swapped and whose words stay as they are. -/
  | stylesheet
  | unknown
  deriving DecidableEq, Repr

namespace FileKind

def name : FileKind → Text
  | .document format => format.name
  | .stylesheet => "css"
  | .unknown => "unknown"

/-- The extensions of each kind, in lower case. -/
def extensions : List (FileKind × List String) :=
  [(.document .json, [".json"]),
   (.document (.program .js), [".js", ".jsx", ".mjs", ".cjs"]),
   (.document (.program .ts), [".ts"]),
   (.document (.program .tsx), [".tsx"]),
   (.document .html, [".html", ".htm"]),
   (.stylesheet, [".css", ".scss", ".less"])]

/-- The kind of an extension; letter case does not matter. -/
def ofExtension (extension : Text) : FileKind :=
  match extensions.find? fun row => (row.2.map Text.ofString).contains extension.lower with
  | some row => row.1
  | none => .unknown

/-- The kind of the file at a path. -/
def ofPath (p : Path) : FileKind := ofExtension (Path.extension p)

/-- How many of some paths there are of each kind, in the order of first sight. -/
def tally (paths : List Path) : Mapping Nat :=
  paths.foldl (fun counts p =>
    let kind := (ofPath p).name
    counts.insert kind ((counts.find? kind).getD 0 + 1)) []

end FileKind

namespace Path

def renditionMark : Text := "-ar"

/-- The path of the rendition of a file. -/
def rendition (p : Path) : Path :=
  (splitExtension p).1 ++ renditionMark ++ (splitExtension p).2

/-- Whether a path has the name of a rendition. -/
def isRendition (p : Path) : Bool := Text.occursIn (renditionMark ++ Text.ofString ".") (baseName p)

end Path

end Arabize

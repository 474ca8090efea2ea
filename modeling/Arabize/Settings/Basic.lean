import Arabize.Project.Scan
import Arabize.Service.Client

/-! # Settings

What a run needs to know: where the project and the program are, where words are kept,
and whom to ask for missing ones.  Settings that are left empty are completed from the
directory of the program.

A settings file may put any value where a path, a model or a name belongs.  Such a value is
kept as it is, and only a use of it fails.
-/

namespace Arabize

structure Settings where
  projectRoot : Path
  toolRoot : Path
  lexiconFile : Json
  handOffFile : Json
  asksService : Bool
  keys : List Text
  /-- The models to try besides those that the service lists. -/
  models : List Model
  timeout : Json
  excluded : List Json

namespace Settings

/-- A value or, if it counts as absent, the path of a file in a directory. -/
def fileOr (directory : Path) (name : Text) (value : Json) : Json :=
  if value.isTruthy then value else .str (Path.join directory name)

/-- The name of the file of fetched words. -/
def lexiconFileName : Text := "cached_words.json"

/-- The name of the file that hands missing texts over. -/
def handOffFileName : Text := "missing_words.json"

def modelsOf (version : String) (names : List String) : List Model :=
  names.map fun name => (.str version, .str (Text.ofString name))

/-- The models to try unless others are given. -/
def defaultModels : List Model :=
  modelsOf "v1beta" ["gemini-1.5-pro-latest", "gemini-1.5-flash-latest", "gemini-1.5-pro",
    "gemini-1.5-flash", "gemini-pro"]
  ++ modelsOf "v1" ["gemini-1.5-pro", "gemini-1.5-flash"]

/-- Completes settings that are left empty: the project is what the directory of the program
    is in. -/
def complete (s : Settings) : Settings :=
  { s with
    projectRoot := if s.projectRoot = [] then Path.directory s.toolRoot else s.projectRoot
    lexiconFile := fileOr s.toolRoot lexiconFileName s.lexiconFile
    handOffFile := fileOr s.toolRoot handOffFileName s.handOffFile }

/-- The settings of a program without a settings file, not yet completed. -/
def blank (toolRoot : Path) : Settings where
  projectRoot := []
  toolRoot
  lexiconFile := .str []
  handOffFile := .str []
  asksService := true
  keys := []
  models := defaultModels
  timeout := .int 120
  excluded := Project.excludedNames.map Json.str

/-- The settings of a program without a settings file. -/
def default (toolRoot : Path) : Settings := (blank toolRoot).complete

/-- The names of excluded directories; a value that is no text excludes nothing. -/
def excludedNames (s : Settings) : List Text := s.excluded.filterMap Json.text?

def client (s : Settings) : Client := ⟨s.models, s.timeout⟩

def search (s : Settings) : Project.Search := ⟨s.projectRoot, s.toolRoot, s.excludedNames⟩

end Settings

end Arabize

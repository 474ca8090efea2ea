import Arabize.Log
import Arabize.Settings.Basic

/-! # Loading settings

Settings come from the program itself, then from a settings file, then from the
environment, which a file of variables in the directory of the program may extend.  A
settings file that is missing or is no JSON document leaves everything as it is; one whose
bytes are no text, or that holds too long a number, is an error.
-/

namespace Arabize

/-! ## Faults -/

namespace Variables

/-- Why a variable cannot be set. -/
inductive VariableError
  /-- The name or the value holds the code point zero. -/
  | zero
  | illegalName
  deriving DecidableEq

def VariableError.message : VariableError → Text
  | .zero => "embedded null byte"
  | .illegalName => "illegal environment variable name"

end Variables

inductive SettingsError
  | access (e : AccessError)
  | json (e : Json.ReadError)
  | variable (e : Variables.VariableError)
  /-- The project is given by a value that is no text. -/
  | rootNotText (value : Json)

/-! ## The reader of variables -/

/-- What reads files of variables: it gives an environment with the variables of the file at a
    path, if there is such a file. -/
class Variables.Loader where
  load : Disk → (environment : Mapping Text) → Path → Except SettingsError (Mapping Text)

namespace Settings

/-! ## The settings file -/

def fileName : Text := "_settings.json"

def variablesFileName : Text := ".env"

/-- What is reported of a settings file that cannot be read. -/
def unreadable (p : Path) (why : Text) : LogEntry :=
  ⟨.warning, "Ignoring unreadable settings file " ++ p ++ ": " ++ why⟩

/-- The value in a settings file and what is to be reported; null if it cannot be read. -/
def readFile (d : Disk) (p : Path) : Except SettingsError (Json × Log) :=
  match d.readText p with
  | .error (.refused .notFound _) => .ok (.null, [])
  | .error (.refused why q) =>
    .ok (.null, [unreadable p (AccessError.refused why q).message])
  | .error e => .error (.access e)
  | .ok t =>
    match Json.read t with
    | .ok j => .ok (j, [])
    | .error (.numeralTooLong n) => .error (.json (.numeralTooLong n))
    | .error e => .ok (.null, [unreadable p e.message])

/-- The items of an array in a settings file. -/
def itemsOf (fields : Mapping Json) (key : Text) : Option (List Json) :=
  (fields.find? key).bind Json.items?

/-- The model that an item names: an array of two values. -/
def modelOf? : Json → Option Model
  | .arr [version, name] => some (version, name)
  | _ => none

/-- Whether a value is a number greater than zero; true counts as one. -/
def isPositive : Json → Bool
  | .bool b => b
  | .int n => 0 < n
  | .float x => x.isPositive
  | _ => false

/-- Settings overridden by the fields of a settings file, the project left aside. -/
def override (s : Settings) (fields : Mapping Json) : Settings :=
  { s with
    lexiconFile := (fields.find? "cached_words_path").getD s.lexiconFile
    handOffFile := (fields.find? "missing_words_path").getD s.handOffFile
    asksService := ((fields.find? "ai_enabled").map Json.isTruthy).getD s.asksService
    keys := ((itemsOf fields "api_keys").map fun items =>
      (items.filter Json.isTruthy).map Json.display).getD s.keys
    models := ((itemsOf fields "ai_models").map (·.filterMap modelOf?)).getD s.models
    timeout := ((fields.find? "ai_timeout").filter isPositive).getD s.timeout
    excluded := (itemsOf fields "exclude_dirs").getD s.excluded }

/-- The project that a settings file names, or else the one of the settings. -/
def rootIn (s : Settings) (fields : Mapping Json) : Json :=
  (fields.find? "project_root").getD (.str s.projectRoot)

/-! ## Keys from the environment -/

/-- The keys in a text that has commas between them. -/
def splitKeys (t : Text) : List Text :=
  ((Text.splitOn ',' t).map Text.strip).filter fun k => !k.isEmpty

/-- The keys in an environment: those of a list or, if it has none, a single one. -/
def keysIn (environment : Mapping Text) : List Text :=
  let listed := splitKeys ((environment.find? "GEMINI_API_KEYS").getD [])
  if listed ≠ [] then listed
  else
    match environment.find? "GEMINI_API_KEY" with
    | some key => if key = [] then [] else [key.strip]
    | none => []

/-! ## Loading -/

/-- The settings file of a program: the one given, or else the one in its directory. -/
def filePath (toolRoot given : Path) : Path :=
  if given = [] then Path.join toolRoot fileName else given

/-- Settings with the keys of an environment, if it has any. -/
def withKeys (s : Settings) (environment : Mapping Text) : Settings :=
  let found := keysIn environment
  if found = [] then s else { s with keys := found }

/-- Settings whose directories are absolute, the project given by a value. -/
def withRoots (s : Settings) (cwd : Path) : Json → Except SettingsError Settings
  | .str root =>
    .ok { s with
          projectRoot := Path.absolute cwd root
          toolRoot := Path.absolute cwd s.toolRoot }
  | value => .error (.rootNotText value)

/-- Loads the settings of a program, given the directory it is in, the settings file and
    the project; empty paths of these two stand for none. -/
def load [Variables.Loader] (d : Disk) (environment : Mapping Text)
    (toolRoot settingsFile project : Path) : Except SettingsError Settings × Log :=
  let s := default toolRoot
  match readFile d (filePath toolRoot settingsFile) with
  | .error e => (.error e, [])
  | .ok (value, log) =>
    let fields := value.fields?.getD []
    let loaded := do
      -- Keys in the environment take the place of those in the settings file.
      let environment ← Variables.Loader.load d environment (Path.join toolRoot variablesFileName)
      let s := (s.override fields).withKeys environment
      s.withRoots d.cwd (if project = [] then s.rootIn fields else .str project)
    (loaded, log)

end Settings

end Arabize

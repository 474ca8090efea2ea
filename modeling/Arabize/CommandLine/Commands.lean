import Arabize.Batch.Run
import Arabize.CommandLine.Arguments
import Arabize.CommandLine.Samples
import Arabize.Lexicon.Bundled
import Arabize.Script.Grammar.Reading
import Arabize.Settings.Variables

/-! # Commands

What the program does for a command line: it loads its settings, lists the files of a
project, translates them, or tries itself out on samples.  It prints as it goes, and a
fault that it is prepared for ends it with an exit code and a report.
-/

namespace Arabize.CommandLine

/-! ## Where the program runs -/

structure Place where
  environment : Mapping Text
  toolRoot : Path
  sandbox : Path

/-- What the program works on: the run of its batch, and what it has printed. -/
structure Console where
  /-- The disk, the log and the wire to the service. -/
  session : Batch.Session Wire
  printed : Text

/-- Why a command could not be carried out. -/
inductive CommandError
  | settings (e : SettingsError)
  | run (e : Failure)

def CommandError.message : CommandError → Text
  | .settings (.access e) => e.message
  | .settings (.json e) => e.message
  | .settings (.variable e) => e.message
  | .settings (.rootNotText value) => Failure.notPathMessage value
  | .run e => e.message

/-- Whether a fault is one that the program is prepared for. -/
def CommandError.isExpected : CommandError → Bool
  | .settings (.rootNotText _) => false
  | .settings _ => true
  | .run e => e.isExpected

/-- A step of a command; what was done before a fault stays done. -/
abbrev Shell := ExceptT CommandError (StateM Console)

/-! ## Small steps -/

def printLine (t : Text) : Shell Unit := fun c =>
  (.ok (), { c with printed := c.printed ++ t ++ Text.ofString "\n" })

def inBatch {α : Type} (step : Batch.Step Wire α) : Shell α := fun c =>
  match step c.session with
  | (.ok a, session) => (.ok a, { c with session })
  | (.error e, session) => (.error (.run e), { c with session })

def onDisk {α : Type} (change : Disk.Change α) : Shell α := fun c =>
  match change c.session.disk with
  | (.ok a, disk) => (.ok a, { c with session := { c.session with disk } })
  | (.error e, disk) =>
    (.error (.run (.access e)), { c with session := { c.session with disk } })

def readFile (p : Path) : Shell Text := fun c =>
  match c.session.disk.readText p with
  | .ok t => (.ok t, c)
  | .error e => (.error (.run (.access e)), c)

def loadSettings [Variables.Loader] (place : Place) (a : Arguments) : Shell Settings := fun c =>
  let (result, log) := Settings.load c.session.disk place.environment place.toolRoot a.settings
    a.project
  let c := { c with session := { c.session with log := c.session.log ++ log } }
  match result with
  | .ok s => (.ok (if a.noService then { s with asksService := false } else s), c)
  | .error e => (.error (.settings e), c)

def scanProject (s : Settings) : Shell (List Path) := fun c =>
  match Project.scan c.session.disk s.search with
  | .error e => (.error (.run (.project e)), c)
  | .ok (found, entry) =>
    (.ok found, { c with session := { c.session with log := c.session.log ++ [entry] } })

/-- Translates files with the help of the service. -/
def translateAll [Script.Parser] [Lexicon.Bundle] (s : Settings) (paths : List Path) :
    Shell Report :=
  inBatch (Batch.run s none (s.client.assistant s.keys) paths)

/-! ## Listing files -/

/-- How many files are listed one by one. -/
def maxListed : Nat := 20

def listLine (cwd root : Path) (number : Nat) (p : Path) : Text :=
  "  " ++ Text.ofNat number ++ ". " ++ Path.relative cwd p root

/-- The lines that list files, given the number of the first one. -/
def listLines (cwd root : Path) : (number : Nat) → List Path → List Text
  | _, [] => []
  | number, p :: rest => listLine cwd root number p :: listLines cwd root (number + 1) rest

/-- The line on files that are not listed, if there are any. -/
def unlistedLine (count : Nat) : List Text :=
  if maxListed < count then
    ["  ... and " ++ Text.ofNat (count - maxListed) ++ " more file(s)"]
  else []

/-- How many files there are of each kind. -/
def kindCounts (paths : List Path) : Text :=
  Text.intercalate ", " ((FileKind.tally paths).sorted.map fun kv =>
    kv.1 ++ Text.ofString ": " ++ Text.ofNat kv.2)

def foundLine (paths : List Path) : Text :=
  "Found " ++ Text.ofNat paths.length ++ " file(s) to translate:"

def totalLine (paths : List Path) : Text :=
  "Total: " ++ Text.ofNat paths.length ++ " file(s) (" ++ kindCounts paths ++ ")"

/-- The lines on the files of a project. -/
def foundLines (cwd root : Path) (paths : List Path) : List Text :=
  [foundLine paths, []] ++ listLines cwd root 1 (paths.take maxListed)
    ++ unlistedLine paths.length ++ [[], totalLine paths]

def printLines : List Text → Shell Unit
  | [] => return ()
  | t :: rest => do
    printLine t
    printLines rest

/-- Lists the files of the project and answers with them. -/
def scan (s : Settings) : Shell (List Path) := do
  printLines ["Scanning " ++ s.projectRoot ++ " for translatable files...", []]
  let files ← scanProject s
  if files = [] then
    printLine "No files found. Run from your project root or pass --project."
  else
    let cwd := (← get).session.disk.cwd
    printLines (foundLines cwd s.projectRoot files)
  return files

/-! ## Translating -/

/-- The exit code of a run: one if nothing succeeded and something failed. -/
def exitCode (r : Report) : Nat := if r.failed ≠ 0 ∧ r.succeeded = 0 then 1 else 0

/-- Translates files and answers with an exit code. -/
def translate [Script.Parser] [Lexicon.Bundle] (s : Settings) (files : List Path) : Shell Nat := do
  if files = [] then
    printLine "No files found to translate."
    return 0
  else
    let r ← translateAll s files
    printLines [[], r.summary]
    return exitCode r

/-! ## Trying it out -/

def rule : Text := List.replicate 50 '='

/-- Writes the sample files and answers with their paths. -/
def writeSamples (directory : Path) : List (Text × Text) → Shell (List Path)
  | [] => return []
  | (name, content) :: rest => do
    let p := Path.join directory name
    onDisk (Disk.writeText p content)
    let more ← writeSamples directory rest
    return p :: more

def printRenditions : List Path → Shell Unit
  | [] => return ()
  | p :: rest => do
    printLine ("--- " ++ Path.baseName (Path.rendition p) ++ " ---")
    let content ← readFile (Path.rendition p)
    printLines [content, []]
    printRenditions rest

def test [Script.Parser] [Lexicon.Bundle] (place : Place) (s : Settings) : Shell Nat := do
  onDisk (Disk.makeDirectory place.sandbox)
  printLines ["Created test sandbox: " ++ place.sandbox, []]
  let paths ← writeSamples place.sandbox samples
  let _ ← translateAll { s with projectRoot := place.sandbox } paths
  printLines [[], rule, "TRANSLATED FILES OUTPUT:", rule, []]
  printRenditions paths
  printLine ("Test files are in: " ++ place.sandbox)
  return 0

/-! ## The program -/

/-- Carries out a command; without one the files are listed, then translated. -/
def perform [Script.Parser] [Lexicon.Bundle] (place : Place) (s : Settings) :
    Option Command → Shell Nat
  | some .scan => do
    let _ ← scan s
    return 0
  | some .translate => do
    let files ← scanProject s
    translate s files
  | some .test => test place s
  | none => do
    let files ← scan s
    printLines [[], rule, []]
    translate s files

def act [Script.Parser] [Lexicon.Bundle] [Variables.Loader] (place : Place) (a : Arguments) :
    Shell Nat := do
  let s ← loadSettings place a
  perform place s a.command

/-- What is reported of a fault that ends the program. -/
def fatalEntry (e : CommandError) : LogEntry := ⟨.error, "Fatal error: " ++ e.message⟩

/-- Does what arguments ask for; a fault that the program is prepared for gives the exit
    code one. -/
def guarded [Script.Parser] [Lexicon.Bundle] [Variables.Loader] (place : Place)
    (a : Arguments) : Shell Nat := fun c =>
  match act place a c with
  | (.error e, c) =>
    if e.isExpected then
      (.ok 1, { c with session := { c.session with log := c.session.log ++ [fatalEntry e] } })
    else (.error e, c)
  | result => result

structure Exit where
  code : Nat
  /-- What is said of a command line at fault. -/
  complaint : Text

def run [Script.Parser] [Lexicon.Bundle] [Variables.Loader] (place : Place)
    (arguments : List Text) : Shell Exit :=
  match parse arguments with
  | .error .help => fun c => (.ok ⟨0, []⟩, { c with printed := c.printed ++ help })
  | .error (.usage e) => return ⟨2, usageReport e⟩
  | .ok a => do
    let code ← guarded place a
    return ⟨code, []⟩

end Arabize.CommandLine

namespace Arabize

/-! ## What the program runs with -/

instance (priority := low) : Script.Parser := Installed.parser

instance (priority := low) : Lexicon.Bundle := Installed.bundle

instance (priority := low) : Variables.Loader := Installed.loader

end Arabize

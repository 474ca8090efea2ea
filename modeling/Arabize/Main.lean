import Arabize.CommandLine.Commands
import Arabize.Disk.Difference

/-! # The program

The files that the program may see are named on its standard input, a path to a line;
directories end in a slash.  They are read, the command is carried out on the disk that
they make up, and what it changed there is written back.  What the command prints goes to
the standard output, its log and its complaints go to the standard error.

The service cannot be reached from here, so missing words stay missing.
-/

namespace Arabize.Main

/-- What a line of the input names: a path, and the bytes of the file there unless it is a
    directory or cannot be read. -/
def readEntry (line : String) : IO (Path × Option Bytes) := do
  if line.endsWith "/" then return (Text.ofString line, none)
  try
    let bytes ← IO.FS.readBinFile line
    return (Text.ofString line, some bytes.toList)
  catch _ => return (Text.ofString line, none)

/-- A disk with an entry more: a file, or a directory if there are no bytes. -/
def addEntry (d : Disk) (e : Path × Option Bytes) : Disk :=
  match e.2 with
  | none => (Disk.makeDirectories e.1 d).2
  | some bytes =>
    let d := (Disk.makeDirectories (Store.directoryOf e.1) d).2
    match d.find .target e.1 with
    | .ok (.free loc) => d.put loc (.file bytes)
    | .ok (.there loc _) => d.put loc (.file bytes)
    | .error _ => d

partial def readLines (input : IO.FS.Stream) : IO (List String) := do
  let line ← input.getLine
  if line.isEmpty then return []
  let rest ← readLines input
  return (line.dropEndWhile '\n').toString :: rest

/-- The variables of the environment that the program asks for. -/
def readEnvironment : List String → IO (Mapping Text)
  | [] => return []
  | name :: rest => do
    let value ← IO.getEnv name
    let more ← readEnvironment rest
    match value with
    | some v => return (Text.ofString name, Text.ofString v) :: more
    | none => return more

def writeBack (e : Location × Entry) : IO Unit := do
  let p := (Path.ofLocation e.1).toString
  match e.2 with
  | .directory => IO.FS.createDirAll p
  | .file bytes => IO.FS.writeBinFile p (ByteArray.mk bytes.toArray)
  | .link _ => return ()

def start (arguments : List String) : IO UInt32 := do
  let lines ← readLines (← IO.getStdin)
  let named ← lines.mapM readEntry
  let environment ← readEnvironment ["GEMINI_API_KEYS", "GEMINI_API_KEY"]
  let cwd := Text.ofString ((← IO.getEnv "PWD").getD "/")
  let home := Text.ofString ((← IO.getEnv "ARABIZE_HOME").getD "arabize")
  let toolRoot := Path.absolute cwd home
  let place : CommandLine.Place := ⟨environment, toolRoot, Path.join toolRoot "sandbox"⟩
  let before := named.foldl addEntry ⟨cwd, []⟩
  let wire : Wire := ⟨[], .unreachable "no network", []⟩
  let (result, console) := CommandLine.run place (arguments.map Text.ofString)
    ⟨⟨before, [], wire⟩, []⟩
  let after := console.session.disk
  (Disk.changed before after).forM writeBack
  (Disk.gone before after).forM fun loc => IO.FS.removeFile (Path.ofLocation loc).toString
  (← IO.getStdout).putStr console.printed.toString
  let errors ← IO.getStderr
  console.session.log.forM fun e =>
    errors.putStrLn ((e.level.name ++ Text.ofString ": " ++ e.text : Text).toString)
  match result with
  | .ok e =>
    errors.putStr e.complaint.toString
    return e.code.toUInt32
  | .error e =>
    errors.putStrLn e.message.toString
    return 1

end Arabize.Main

def main (arguments : List String) : IO UInt32 := Arabize.Main.start arguments

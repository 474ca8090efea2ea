import Arabize.Text.Quoted

/-! # Command line arguments

A command line holds at most one command and any number of options.  Options may be
shortened as long as only one of them is meant, one-letter options may be joined, a value
follows its option or an equals sign, and after `--` everything is a word.

Arguments are first sorted into tokens, then taken from the left; the first fault met in
either pass is the one reported.
-/

namespace Arabize.CommandLine

inductive Command
  | scan
  | translate
  | test
  deriving DecidableEq, Repr

def Command.name : Command → Text
  | .scan => "scan"
  | .translate => "translate"
  | .test => "test"

def Command.all : List Command := [.scan, .translate, .test]

def Command.ofName? (word : Text) : Option Command := Command.all.find? fun c => c.name = word

inductive Flag
  | help
  | project
  | noService
  | settings
  | verbose
  deriving DecidableEq, Repr

namespace Flag

def takesValue : Flag → Bool
  | .project => true
  | .settings => true
  | _ => false

/-- The spellings of the options, in the order in which they are tried. -/
def spellings : List (Text × Flag) :=
  List.map (fun row : String × Flag => (Text.ofString row.1, row.2))
    [("-h", .help), ("--help", .help), ("--project", .project), ("--target", .project),
     ("--no-ai", .noService), ("--settings", .settings), ("-v", .verbose),
     ("--verbose", .verbose)]

def ofSpelling? (t : Text) : Option Flag := (spellings.find? fun row => row.1 = t).map Prod.snd

/-- An option as messages name it: by all its spellings. -/
def name (f : Flag) : Text :=
  Text.intercalate "/" ((spellings.filter fun row => row.2 = f).map Prod.fst)

end Flag

inductive UsageError
  | ambiguous (given : Text) (spellings : List Text)
  | missingValue (f : Flag)
  /-- An option has a value that it does not take. -/
  | extraValue (f : Flag) (value : Text)
  | unknownCommand (word : Text)
  | unrecognized (arguments : List Text)
  deriving DecidableEq

def comma : Text := ", "

def UsageError.message : UsageError → Text
  | .ambiguous given spellings =>
    "ambiguous option: " ++ given ++ " could match " ++ Text.intercalate comma spellings
  | .missingValue f => "argument " ++ f.name ++ ": expected one argument"
  | .extraValue f value => "argument " ++ f.name ++ ": ignored explicit argument " ++ value.quoted
  | .unknownCommand word =>
    "argument command: invalid choice: " ++ word.quoted ++ " (choose from "
      ++ Text.intercalate comma (Command.all.map fun c => c.name.quoted) ++ ")"
  | .unrecognized arguments =>
    "unrecognized arguments: " ++ Text.intercalate " " arguments

/-! ## Tokens -/

inductive Token
  /-- A command, a value, or a word too many. -/
  | word (t : Text)
  | separator
  /-- An option, by its short or a long spelling, perhaps with something attached. -/
  | option (f : Flag) (short : Bool) (attached : Option Text)
  | unknown (t : Text)
  deriving DecidableEq

def dash : CodePoint := '-'

/-- The mark after which everything is a word. -/
def separatorMark : Text := "--"

/-- A text before and after its first equals sign. -/
def splitAtEquals? (t : Text) : Option (Text × Text) :=
  (Text.find? "=" t).map fun i => (t.take i, t.drop (i + 1))

def isShort (spelling : Text) : Bool := spelling[1]? != some dash

def longReadings (t : Text) : List (Text × Token) :=
  let (start, attached) := match splitAtEquals? t with
    | some (start, value) => (start, some value)
    | none => (t, none)
  Flag.spellings.filterMap fun row =>
    if Text.startsWith row.1 start then some (row.1, .option row.2 false attached) else none

/-- The readings of a short option with something attached. -/
def shortReadings (t : Text) : List (Text × Token) :=
  Flag.spellings.filterMap fun row =>
    if row.1 = t.take 2 then some (row.1, .option row.2 true (some (t.drop 2)))
    else if Text.startsWith row.1 t then some (row.1, .option row.2 (isShort row.1) none)
    else none

/-- The readings of an argument that starts with a dash and is no spelling of an option. -/
def readings (t : Text) : List (Text × Token) :=
  if isShort t then shortReadings t else longReadings t

/-- A text without the line break at its end. -/
def withoutBreak (t : Text) : Text := if t.getLast? = some '\n' then t.dropLast else t

/-- Whether a text is a negative number, with or without a fraction, in the digits of any
    script and perhaps with a line break at the end. -/
def isNegativeNumber (t : Text) : Bool :=
  match withoutBreak t with
  | [] => false
  | c :: digits =>
    c == dash && match Text.find? "." digits with
      | none => !digits.isEmpty && digits.all CodePoint.isDecimal
      | some i =>
        (digits.take i).all CodePoint.isDecimal && i + 1 < digits.length
          && (digits.drop (i + 1)).all CodePoint.isDecimal

/-- The token of an argument that starts with a dash and is no spelling of an option. -/
def tokenOfDashed (t : Text) : Except UsageError Token :=
  match readings t with
  | [r] => .ok r.2
  | [] =>
    if isNegativeNumber t || t.contains ' ' then .ok (.word t) else .ok (.unknown t)
  | several => .error (.ambiguous t (several.map Prod.fst))

/-- The token of an option with an equals sign, if what is before it is a spelling. -/
def tokenWithValue? (t : Text) : Option Token := do
  let (spelling, value) ← splitAtEquals? t
  let f ← Flag.ofSpelling? spelling
  return .option f (isShort spelling) (some value)

def tokenOf (t : Text) : Except UsageError Token :=
  if t.head? ≠ some dash then .ok (.word t)
  else
    match Flag.ofSpelling? t with
    | some f => .ok (.option f (isShort t) none)
    | none =>
      if t.length = 1 then .ok (.word t)
      else
        match tokenWithValue? t with
        | some token => .ok token
        | none => tokenOfDashed t

def tokens : List Text → Except UsageError (List Token)
  | [] => .ok []
  | t :: rest =>
    if t = separatorMark then .ok (.separator :: rest.map .word)
    else do
      let token ← tokenOf t
      let more ← tokens rest
      return token :: more

/-! ## Taking the tokens -/

/-- What a command line asks for; empty texts stand for what it does not name. -/
structure Arguments where
  command : Option Command
  project : Text
  settings : Text
  noService : Bool
  verbose : Bool
  deriving DecidableEq

def Arguments.none : Arguments := ⟨.none, [], [], false, false⟩

/-- Why a command line gives nothing to do. -/
inductive Stop
  | help
  | usage (e : UsageError)
  deriving DecidableEq

structure Taken where
  arguments : Arguments
  /-- Whether there was a word in the place of the command. -/
  hasCommand : Bool
  extras : List Text

/-- Takes a word in the place of the command. -/
def takeCommand (taken : Taken) (word : Text) : Except Stop Taken :=
  match Command.ofName? word with
  | some c =>
    .ok { taken with arguments := { taken.arguments with command := some c }, hasCommand := true }
  | .none => .error (.usage (.unknownCommand word))

/-- Takes a word: as the command, or as one too many. -/
def takeWord (taken : Taken) (word : Text) : Except Stop Taken :=
  if taken.hasCommand then .ok { taken with extras := taken.extras ++ [word] }
  else takeCommand taken word

def setFlag (f : Flag) (taken : Taken) : Except Stop Taken :=
  match f with
  | .help => .error .help
  | .noService => .ok { taken with arguments := { taken.arguments with noService := true } }
  | .verbose => .ok { taken with arguments := { taken.arguments with verbose := true } }
  | _ => .ok taken

/-- Carries out options without values, from the left. -/
def setFlags : List Flag → Taken → Except Stop Taken
  | [], taken => .ok taken
  | f :: rest, taken => do
    let taken ← setFlag f taken
    setFlags rest taken

def setValue (f : Flag) (value : Text) (taken : Taken) : Taken :=
  match f with
  | .project => { taken with arguments := { taken.arguments with project := value } }
  | .settings => { taken with arguments := { taken.arguments with settings := value } }
  | _ => taken

/-- The one-letter options joined to one, itself included.  One that is not followed by the
    letter of another has a value that it does not take. -/
def joined (f : Flag) : (attached : Text) → Except Stop (List Flag)
  | [] => .ok [f]
  | c :: rest =>
    match Flag.ofSpelling? [dash, c] with
    | none => .error (.usage (.extraValue f (c :: rest)))
    | some g => (joined g rest).map (f :: ·)

/-- The value of an option that stands in one argument with it: the separator is none. -/
def attachedValue (attached : Text) : Text := if attached = separatorMark then [] else attached

/-- Takes an option that something is attached to. -/
def takeAttached (f : Flag) (short : Bool) (attached : Text) (taken : Taken) :
    Except Stop Taken :=
  if f.takesValue then .ok (setValue f (attachedValue attached) taken)
  else if short = true ∧ attached ≠ [] then do
    let flags ← joined f attached
    setFlags flags taken
  else .error (.usage (.extraValue f attached))

/-- Whether an option, or what looks like one, is among tokens. -/
def hasOption (ts : List Token) : Bool := ts.any fun t =>
  match t with
  | .option .. => true
  | .unknown _ => true
  | _ => false

/-- A token as it was written, for those that can be left over behind all options. -/
def leftover : Token → Text
  | .word t => t
  | .unknown t => t
  | _ => separatorMark

/-- Takes the words behind all options: a command, unless there was one, with the separator
    before or behind it. -/
def takeRest (taken : Taken) (ts : List Token) : Except Stop Taken :=
  let extra (taken : Taken) (ts : List Token) : Taken :=
    { taken with extras := taken.extras ++ ts.map leftover }
  if taken.hasCommand then .ok (extra taken ts)
  else
    match ts with
    | .separator :: .word t :: rest => (takeCommand taken t).map fun taken => extra taken rest
    | .separator :: rest => .ok (extra taken rest)
    | .word t :: .separator :: rest => (takeCommand taken t).map fun taken => extra taken rest
    | .word t :: rest => (takeCommand taken t).map fun taken => extra taken rest
    | rest => .ok (extra taken rest)

def take (taken : Taken) (ts : List Token) : Except Stop Taken :=
  if hasOption ts then
    match ts with
    | [] => .ok taken
    | .word t :: rest => do
      let taken ← takeWord taken t
      take taken rest
    | .separator :: rest => take { taken with extras := taken.extras ++ [separatorMark] } rest
    | .unknown t :: rest => take { taken with extras := taken.extras ++ [t] } rest
    | .option f short (some attached) :: rest => do
      let taken ← takeAttached f short attached taken
      take taken rest
    | .option f _ none :: rest =>
      -- The value of an option is the next word, not one behind a separator.
      if f.takesValue then
        match rest with
        | .word value :: rest => take (setValue f value taken) rest
        | _ => .error (.usage (.missingValue f))
      else do
        let taken ← setFlag f taken
        take taken rest
  else takeRest taken ts
termination_by ts.length

def parse (arguments : List Text) : Except Stop Arguments := do
  let ts ← (tokens arguments).mapError .usage
  let taken ← take ⟨Arguments.none, false, []⟩ ts
  if taken.extras = [] then return taken.arguments
  else throw (.usage (.unrecognized taken.extras))

/-! ## Texts -/

def usage : Text :=
  Text.ofString "usage: main.py [-h] [--project PATH] [--no-ai] [--settings FILE] [-v]\n"
    ++ Text.ofString "               [\x7bscan,translate,test\x7d]\n"

/-- What is printed for a command line at fault. -/
def usageReport (e : UsageError) : Text :=
  usage ++ Text.ofString "main.py: error: " ++ e.message ++ Text.ofString "\n"

/-- The lines of help on commands and options. -/
def helpLines : List String :=
  ["",
   "Arabic Localization Helper: writes name-ar.ext translations next to each JSON,",
   "HTML, JS/TS and CSS file.",
   "",
   "positional arguments:",
   "  \x7bscan,translate,test\x7d",
   "                        scan: list files; translate: translate them; test: run",
   "                        on sample files (default: scan + translate)",
   "",
   "options:",
   "  -h, --help            show this help message and exit",
   "  --project PATH, --target PATH",
   "                        project root to scan (default: parent of the tool",
   "                        directory)",
   "  --no-ai               dictionary-only mode, never call the AI service",
   "  --settings FILE       settings file (default: _settings.json in the tool",
   "                        directory)",
   "  -v, --verbose         debug logging"]

def help : Text := usage ++ helpLines.flatMap fun line => Text.ofString line ++ Text.ofString "\n"

end Arabize.CommandLine

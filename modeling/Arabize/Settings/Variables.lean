import Arabize.Settings.Load

/-! # Files of variables

A file of variables sets one variable to a statement: a name, an equals sign and a value,
perhaps after the word `export` and before a comment.  A name or a value may be quoted; in
a value, `$` and a name in braces stand for the value of that variable, with a text after
`:-` for the case that it has none.

A statement that cannot be read says nothing and is passed over to the end of its line.
Variables that are set already keep their values.
-/

namespace Arabize.Variables

/-! ## Statements -/

/-- Whether a code point is a blank within a line. -/
def isInlineBlank (c : CodePoint) : Bool := c.isBlank && c != '\r' && c != '\n'

def isBreak (c : CodePoint) : Bool := c == '\r' || c == '\n'

/-- A text without the blanks that its first line starts with. -/
def dropInlineBlanks (t : Text) : Text := t.dropWhile isInlineBlank

def dropLine (t : Text) : Text :=
  let rest := t.dropWhile fun c => !isBreak c
  match rest with
  | [] => []
  | _ :: more => more

/-- A reading of a part of a statement: what was read and what follows, or what was left
    over at the point of failure. -/
abbrev Part (α : Type) := Except Text (α × Text)

/-- A text after the word `export` and blanks, if it starts with them. -/
def dropExport (t : Text) : Text :=
  match Text.after? t "export" with
  | some (c :: rest) => if isInlineBlank c then dropInlineBlanks rest else t
  | _ => t

def singleQuote : CodePoint := '\''

def doubleQuote : CodePoint := '"'

def hash : CodePoint := '#'

/-- The sign between a name and its value. -/
def equals : CodePoint := '='

/-- Reads a name in quotes, behind the opening one. -/
def readQuotedName (whole t : Text) : Part (Option Text) :=
  let name := t.takeWhile (· != singleQuote)
  match t.drop name.length with
  | [] => .error whole
  | _ :: rest => if name = [] then .error whole else .ok (some name, rest)

/-- Reads the name of a statement; a comment has none. -/
def readName (t : Text) : Part (Option Text) :=
  match t with
  | [] => .error t
  | c :: rest =>
    if c = hash then .ok (none, t)
    else if c = singleQuote then readQuotedName t rest
    else
      let name := t.takeWhile fun c => !(c == equals || c == hash || c.isBlank)
      if name = [] then .error t else .ok (some name, t.drop name.length)

/-- The offset of the first quote that no backslash stands before; `escaped` says whether
    one has just been passed. -/
def freeQuote? (quote : CodePoint) : (escaped : Bool) → Text → Option Nat
  | _, [] => none
  | escaped, c :: t =>
    if c = quote ∧ escaped = false then some 0
    else (freeQuote? quote (c == '\\') t).map (· + 1)

/-- The length of a quoted value: up to the first quote that no backslash stands before,
    and if there is none up to the last quote. -/
def quotedLength? (quote : CodePoint) (t : Text) : Option Nat :=
  (freeQuote? quote false t).or (Text.findLast? [quote] t)

/-- What an escape stands for in single quotes. -/
def singleEscape? (c : CodePoint) : Option CodePoint :=
  if c = '\\' ∨ c = singleQuote then some c else none

/-- What an escape stands for in double quotes. -/
def doubleEscape? (c : CodePoint) : Option CodePoint :=
  if c = '\\' ∨ c = singleQuote ∨ c = doubleQuote then some c
  else if c = 'a' then some 0x07
  else if c = 'b' then some 0x08
  else if c = 'f' then some 0x0C
  else if c = 'n' then some '\n'
  else if c = 'r' then some '\r'
  else if c = 't' then some '\t'
  else if c = 'v' then some 0x0B
  else none

/-- Replaces the escapes of a value; `pending` says that a backslash has just been read. -/
def unescape (escape? : CodePoint → Option CodePoint) : (pending : Bool) → Text → Text
  | false, [] => []
  | true, [] => "\\"
  | false, c :: t => if c = '\\' then unescape escape? true t else c :: unescape escape? false t
  | true, c :: t =>
    match escape? c with
    | some e => e :: unescape escape? false t
    | none => '\\' :: c :: unescape escape? false t

/-- Reads a value in quotes, behind the opening one. -/
def readQuoted (quote : CodePoint) (escape? : CodePoint → Option CodePoint) (whole t : Text) :
    Part Text :=
  match quotedLength? quote t with
  | some n => .ok (unescape escape? false (t.take n), t.drop (n + 1))
  | none => .error whole

/-- A value without the comment that blanks stand before. -/
def beforeComment : Text → Text
  | [] => []
  | c :: t =>
    if c.isBlank ∧ (Text.stripLeft t).head? = some hash then []
    else c :: beforeComment t

def readValue (t : Text) : Part Text :=
  match t with
  | [] => .ok ([], t)
  | c :: rest =>
    if c = singleQuote then readQuoted singleQuote singleEscape? t rest
    else if c = doubleQuote then readQuoted doubleQuote doubleEscape? t rest
    else
      let line := t.takeWhile fun c => !isBreak c
      .ok (Text.stripRight (beforeComment line), t.drop line.length)

/-- Reads an equals sign and a value, if there are any. -/
def readAssigned (t : Text) : Part (Option Text) :=
  match t with
  | [] => .ok (none, t)
  | c :: rest =>
    if c = equals then (readValue (dropInlineBlanks rest)).map fun r => (some r.1, r.2)
    else .ok (none, t)

/-- A text without the comment it starts with. -/
def dropComment (t : Text) : Text :=
  match dropInlineBlanks t with
  | [] => t
  | c :: rest => if c = hash then rest.dropWhile fun c => !isBreak c else t

def readEnd (t : Text) : Part Unit :=
  match dropInlineBlanks t with
  | [] => .ok ((), [])
  | c :: rest => if isBreak c then .ok ((), rest) else .error t

inductive Statement
  | blank
  | variable (name : Text) (value : Option Text)
  deriving DecidableEq

/-- Reads a statement behind the blanks in front of it. -/
def readBody (t : Text) : Except Text (Statement × Text) := do
  let (name, t) ← readName (dropExport t)
  let (value, t) ← readAssigned (dropInlineBlanks t)
  let (_, t) ← readEnd (dropComment t)
  return ((name.map fun n => Statement.variable n value).getD .blank, t)

/-- Reads a statement and answers with what follows it. -/
def readStatement (t : Text) : Statement × Text :=
  match Text.stripLeft t with
  | [] => (.blank, [])
  | c :: rest =>
    match readBody (c :: rest) with
    | .ok r => r
    | .error left => (.blank, dropLine left)

def readStatements : Nat → Text → List Statement
  | 0, _ => []
  | _ + 1, [] => []
  | fuel + 1, c :: t =>
    let (s, rest) := readStatement (c :: t)
    s :: readStatements fuel rest

/-- The statements of a text; each takes at least one code point. -/
def statements (t : Text) : List Statement := readStatements t.length t

/-! ## Values -/

structure Reference where
  name : Text
  /-- What stands for it if it has no value. -/
  fallback : Text
  width : Nat

def closingBrace : CodePoint := '\x7d'

/-- What ends the name in a reference that has a fallback. -/
def colon : CodePoint := ':'

/-- The fallback of a reference and how many code points there are up to the closing brace. -/
def readFallback? (t : Text) : Option (Text × Nat) :=
  match t with
  | [] => none
  | c :: _ =>
    if c = closingBrace then some ([], 0)
    else
      match Text.after? t ":-" with
      | none => none
      | some rest =>
        let fallback := rest.takeWhile (· != closingBrace)
        if fallback.length < rest.length then some (fallback, fallback.length + 2) else none

def reference? (t : Text) : Option Reference :=
  match Text.after? t "$\x7b" with
  | none => none
  | some rest =>
    let name : Text := rest.takeWhile fun c => !(c == closingBrace || c == colon)
    (readFallback? (rest.drop name.length)).map fun r =>
      ⟨name, r.1, 2 + name.length + r.2 + 1⟩

/-- Puts values in the place of references; the first number counts the code points of a
    reference that are still to be passed over. -/
def interpolateFrom (value? : Text → Option Text) : (skip : Nat) → Text → Text
  | _, [] => []
  | skip + 1, _ :: t => interpolateFrom value? skip t
  | 0, c :: t =>
    match reference? (c :: t) with
    | some r => (value? r.name).getD r.fallback ++ interpolateFrom value? (r.width - 1) t
    | none => c :: interpolateFrom value? 0 t

/-- What is known of a variable while a file is being read: its value in the environment,
    else the one in the file, which is empty if the file gives none. -/
def valueIn (environment : Mapping Text) (new : Mapping (Option Text)) (name : Text) :
    Option Text :=
  (environment.find? name).or ((new.find? name).map fun v => v.getD [])

/-- The variables of a file in order, references replaced by values. -/
def resolve (environment : Mapping Text) (all : List Statement) : Mapping (Option Text) :=
  all.foldl (fun new s =>
    match s with
    | .variable name value =>
      new.insert name (value.map (interpolateFrom (valueIn environment new) 0))
    | .blank => new) []

/-! ## Setting variables -/

/-- Sets a variable that is not set yet. -/
def setNew (environment : Mapping Text) (name value : Text) :
    Except VariableError (Mapping Text) :=
  if environment.has name then .ok environment
  else if name.contains 0 || value.contains 0 then .error .zero
  else if name.contains equals then .error .illegalName
  else .ok (environment.insert name value)

/-- Sets variables that are not set yet; one without a value stays unset. -/
def setAll : (environment : Mapping Text) → Mapping (Option Text) →
    Except VariableError (Mapping Text)
  | environment, [] => .ok environment
  | environment, (_, none) :: rest => setAll environment rest
  | environment, (name, some value) :: rest => do
    let environment ← setNew environment name value
    setAll environment rest

/-- The environment with the variables of a text. -/
def extend (environment : Mapping Text) (t : Text) : Except VariableError (Mapping Text) :=
  setAll environment (resolve environment (statements t))

/-- The environment with the variables of a file, if there is such a file. -/
def extendByFile (d : Disk) (environment : Mapping Text) (p : Path) :
    Except SettingsError (Mapping Text) :=
  match d.locate .target p with
  | .ok (.there _ (.file _)) =>
    match d.readText p with
    | .error e => .error (.access e)
    | .ok t => (extend environment t).mapError .variable
  | _ => .ok environment

end Arabize.Variables

namespace Arabize.Installed

/-- The reader of variables of this library itself. -/
scoped instance loader : Variables.Loader := ⟨Variables.extendByFile⟩

end Arabize.Installed

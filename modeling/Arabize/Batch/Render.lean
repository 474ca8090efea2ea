import Arabize.Batch.Failure
import Arabize.Project.Report
import Arabize.Settings.Basic

/-! # Rendering a file

A file is read, translated or mirrored, and its rendition is written beside it.  A fault
that the program is prepared for becomes the outcome of the file.
-/

namespace Arabize.Batch

structure Bench where
  disk : Disk
  /-- What is remembered and what was reported so far. -/
  run : Run

/-- A step of the rendering of a file; what was done before a fault stays done. -/
abbrev BenchStep := ExceptT Failure (StateM Bench)

def note (e : LogEntry) : BenchStep Unit := fun b =>
  (.ok (), { b with run := { b.run with log := b.run.log ++ [e] } })

def readSource (s : Settings) (p : Path) : BenchStep Text := fun b =>
  match Project.read b.disk s.projectRoot s.toolRoot p with
  | .ok content => (.ok content, b)
  | .error e => (.error (.project e), b)

def writeRendition (s : Settings) (p : Path) (content : Text) : BenchStep Unit := fun b =>
  match Project.write s.projectRoot p content b.disk with
  | (.ok (), disk) => (.ok (), { b with disk })
  | (.error e, disk) => (.error (.project e), { b with disk })

def mirrored (mirror : Mirror) (content : Text) : BenchStep Text := fun b =>
  match mirror content with
  | .ok out => (.ok out, b)
  | .error e => (.error (.style e), b)

def translated [Script.Parser] (words : Vocabulary) (format : Format) (content : Text) :
    BenchStep Rendition :=
  fun b =>
    match translateBy words format content b.run with
    | (.ok r, run) => (.ok r, { b with run })
    | (.error e, run) => (.error (.document e), { b with run })

/-- What is reported of a file that was rendered. -/
def renderedEntry (p : Path) : LogEntry :=
  ⟨.info, "Translated: " ++ Path.baseName p ++ " -> " ++ Path.baseName (Path.rendition p)⟩

/-- Renders a style sheet, if there is something to mirror it with. -/
def renderStylesheet (s : Settings) (mirror : Option Mirror) (p : Path) (content : Text) :
    BenchStep Outcome :=
  match mirror with
  | none => do
    note ⟨.info, "Skipped " ++ Path.baseName p ++ " (no CSS transformer configured)"⟩
    return ⟨p, .stylesheet, .skipped, [], []⟩
  | some mirror => do
    let out ← mirrored mirror content
    writeRendition s (Path.rendition p) out
    note (renderedEntry p)
    return ⟨p, .stylesheet, .rendered .translated, Path.rendition p, []⟩

/-- Renders a document.  A program that cannot be read is copied, any other such document
    has no rendition. -/
def renderDocument [Script.Parser] (s : Settings) (words : Vocabulary) (format : Format) (p : Path)
    (content : Text) : BenchStep Outcome := do
  let r ← translated words format content
  if format = .json && !r.ok then
    note ⟨.warning, "Failed to translate " ++ Path.baseName p ++ ": " ++ r.error⟩
    return ⟨p, .document format, .failed, [], r.error⟩
  else
    writeRendition s (Path.rendition p) r.content
    if r.ok then
      note (renderedEntry p)
      return ⟨p, .document format, .rendered r.status, Path.rendition p, []⟩
    else
      note ⟨.warning, "Copied " ++ Path.baseName p ++ " unchanged: " ++ r.error⟩
      return ⟨p, .document format, .rendered .unreadable, Path.rendition p, r.error⟩

def render [Script.Parser] (s : Settings) (mirror : Option Mirror) (words : Vocabulary) (p : Path) :
    BenchStep Outcome := do
  let content ← readSource s p
  match FileKind.ofPath p with
  | .document format => renderDocument s words format p content
  | .stylesheet => renderStylesheet s mirror p content
  | .unknown => throw (.project (.unsupported p))

/-- The outcome of a file with a fault. -/
def failedOutcome (p : Path) (e : Failure) : Outcome :=
  ⟨p, FileKind.ofPath p, .failed, [], e.message⟩

/-- What is reported of a file with a fault. -/
def failedEntry (p : Path) (e : Failure) : LogEntry :=
  ⟨.error, "Failed to translate " ++ p ++ ": " ++ e.message⟩

/-- Renders a file; a fault that the program is prepared for is its outcome. -/
def outcome [Script.Parser] (s : Settings) (mirror : Option Mirror) (words : Vocabulary)
    (p : Path) : BenchStep Outcome := fun b =>
  match render s mirror words p b with
  | (.ok o, b) => (.ok o, b)
  | (.error e, b) =>
    if e.isExpected then (do note (failedEntry p e); return failedOutcome p e : BenchStep _) b
    else (.error e, b)

def outcomes [Script.Parser] (s : Settings) (mirror : Option Mirror) (words : Vocabulary) :
    List Path → BenchStep (List Outcome)
  | [] => return []
  | p :: rest => do
    let o ← outcome s mirror words p
    let os ← outcomes s mirror words rest
    return o :: os

end Arabize.Batch

import Arabize.Batch.Failure
import Arabize.Project.Survey
import Arabize.Service.Client
import Arabize.Settings.Basic

/-! # Preparing the vocabulary of a run

A run starts from the bundled lexicon with the words fetched by earlier runs.  What its
files lack is handed over to an assistant in a file of its own, which is removed whatever
the assistant says; what it answers is kept for later runs and completes the lexicon.

The assistant is shown the disk and the path of the hand-off file; it answers with
translations, which need not be texts, or says why it cannot, and whatever it does is done to
a state of its own.
-/

namespace Arabize

/-! ## Whoever translates missing words -/

structure Advice where
  words : Except Text (Mapping Json)
  log : Log

/-- Whoever translates missing words, with a state of type `σ`. -/
structure Assistant (σ : Type) where
  isReady : Bool
  /-- Asks for the words of the hand-off file at a path. -/
  ask : Disk → Path → StateM σ Advice

/-- The service as an assistant, reached by a wire. -/
def Client.assistant (c : Client) (keys : List Text) : Assistant Wire where
  isReady := (KeyRing.ofKeys keys).keys ≠ []
  ask d p := fun wire =>
    let (answer, line) := c.translateHandOff d p ⟨KeyRing.ofKeys keys, wire, []⟩
    (⟨(answer.mapError ServiceError.message).map Json.textValues, line.log⟩, line.wire)

namespace Batch

/-- What a run works on: the disk, the log so far, and the state of the assistant. -/
structure Session (σ : Type) where
  disk : Disk
  log : Log
  peer : σ

/-- A step of a run; what was done before a fault stays done. -/
abbrev Step (σ : Type) := ExceptT Failure (StateM (Session σ))

variable {σ : Type}

/-! ## Small steps -/

def report (entries : Log) : Step σ Unit := fun s =>
  (.ok (), { s with log := s.log ++ entries })

def inform (text : Text) : Step σ Unit := report [⟨.info, text⟩]

def pathOf (value : Json) : Step σ Path := fun s =>
  match value with
  | .str p => (.ok p, s)
  | other => (.error (.notPath other), s)

def loadLexicon [Lexicon.Bundle] (file : Path) : Step σ Lexicon := fun s =>
  let (lexicon, log) := Store.lexicon s.disk file
  (.ok lexicon, { s with log := s.log ++ log })

/-- The vocabulary of the run, with words that have just been fetched. -/
def loadVocabulary [Lexicon.Bundle] (file : Path) (fetched : Mapping Json) :
    Step σ Vocabulary := fun s =>
  let (vocabulary, log) := Store.vocabulary s.disk file fetched
  (.ok vocabulary, { s with log := s.log ++ log })

def collectMissing [Script.Parser] (root : Path) (lexicon : Lexicon) (paths : List Path) :
    Step σ Missing.Words := fun s =>
  match Project.survey s.disk root lexicon paths ⟨[], []⟩ with
  | (.ok (), found) => (.ok found.words, { s with log := s.log ++ found.log })
  | (.error e, found) => (.error (.document e), { s with log := s.log ++ found.log })

/-! ## Asking -/

/-- Writes the hand-off file and asks the assistant; the translations, or why there are
    none. -/
def handOver (a : Assistant σ) (words : Missing.Words) (p : Path) (s : Session σ) :
    Except Text (Mapping Json) × Session σ :=
  match Store.saveHandOff words p s.disk with
  | (.error e, disk) => (.error e.message, { s with disk })
  | (.ok (), disk) =>
    let (advice, peer) := a.ask disk p s.peer
    (advice.words, ⟨disk, s.log ++ advice.log, peer⟩)

/-- What is reported when asking came to nothing. -/
def askingFailed (why : Text) : LogEntry :=
  ⟨.warning, "AI translation failed: " ++ why
    ++ ". Continuing with dictionary-only mode."⟩

/-- What is reported of a hand-off file that cannot be removed. -/
def notRemoved (p : Path) (e : AccessError) : LogEntry :=
  ⟨.warning, "Could not remove " ++ p ++ ": " ++ e.message⟩

/-- Removes the hand-off file.  That the system refuses to is only reported. -/
def clearHandOff (p : Path) : Step σ Unit := fun s =>
  match Store.deleteHandOff p s.disk with
  | (.ok (), disk) => (.ok (), { s with disk })
  | (.error e, disk) =>
    if e.isRefusal then (.ok (), { s with disk, log := s.log ++ [notRemoved p e] })
    else (.error (.access e), { s with disk })

/-- Asks the assistant for words by way of a hand-off file; no translations if that fails. -/
def fetchAt (a : Assistant σ) (words : Missing.Words) (p : Path) :
    Step σ (Mapping Json) := do
  let answer ← (fun s => let (answer, s) := handOver a words p s; (.ok answer, s) : Step σ _)
  match answer with
  | .ok translations =>
    clearHandOff p
    return translations
  | .error why =>
    report [askingFailed why]
    clearHandOff p
    return []

/-- Asks the assistant for words; a hand-off file that is given by no path fails twice: to
    be written, which is reported, and to be removed. -/
def fetch (a : Assistant σ) (words : Missing.Words) (file : Json) :
    Step σ (Mapping Json) :=
  match file with
  | .str p => fetchAt a words p
  | other => do
    report [askingFailed (Failure.notPathMessage other)]
    throw (.notPath other)

/-! ## What came back -/

/-- Keeps translations for later runs.  That the system refuses to is only reported. -/
def keep (file : Path) (translations : Mapping Json) : Step σ Unit := fun s =>
  match Store.append file translations ⟨s.disk, s.log⟩ with
  | (.ok _, desk) => (.ok (), { s with disk := desk.disk, log := desk.log })
  | (.error e, desk) =>
    let s := { s with disk := desk.disk, log := desk.log }
    if e.isRefusal then
      (.ok (), { s with
        log := s.log ++ [⟨.warning, "Could not persist AI translations: " ++ e.message⟩] })
    else (.error (.access e), s)

/-- How many texts are listed one by one. -/
def maxListed : Nat := 10

/-- What is reported of texts that were asked for and did not come back. -/
def unanswered (words : Missing.Words) (translations : Mapping Json) : Log :=
  let left := Text.sort (words.filter fun w => !translations.has w)
  let warning (text : Text) : LogEntry := ⟨.warning, text⟩
  if left = [] then []
  else
    warning (Text.ofNat left.length ++ " word(s) were requested from AI but not returned:")
      :: (left.take maxListed).map (fun w => warning ("  - \"" ++ w ++ "\""))
      ++ (if maxListed < left.length then
        [warning ("  ... and " ++ Text.ofNat (left.length - maxListed) ++ " more")] else [])

/-- The vocabulary of a run and its numbers. -/
structure Preparation where
  vocabulary : Vocabulary
  missing : Nat
  fetched : Nat

/-- Completes a lexicon by asking for the words it lacks. -/
def complete [Lexicon.Bundle] (s : Settings) (a : Assistant σ) (lexicon : Lexicon)
    (words : Missing.Words) : Step σ Preparation := do
  inform ("Found " ++ Text.ofNat words.length ++ " missing word(s). Attempting AI translation...")
  let translations ← fetch a words s.handOffFile
  -- That nothing came back is no fault.
  if translations.isEmpty then
    inform "No AI translations received. Continuing with dictionary-only mode."
    return ⟨⟨lexicon, []⟩, words.length, 0⟩
  else
    let file ← pathOf s.lexiconFile
    keep file translations
    inform ("AI translated " ++ Text.ofNat translations.length
      ++ " word(s). Added to dictionary.")
    report (unanswered words translations)
    let completed ← loadVocabulary file translations
    return ⟨completed, words.length, translations.length⟩

def prepare [Script.Parser] [Lexicon.Bundle] (s : Settings) (a : Assistant σ) (paths : List Path) :
    Step σ Preparation := do
  let file ← pathOf s.lexiconFile
  let lexicon ← loadLexicon file
  inform "Pre-scanning files for missing words..."
  let words ← collectMissing s.projectRoot lexicon paths
  if words = [] then
    inform "All words found in dictionary. No AI translation needed."
    return ⟨⟨lexicon, []⟩, 0, 0⟩
  else if s.asksService && a.isReady then complete s a lexicon words
  else
    inform ("Found " ++ Text.ofNat words.length
      ++ " missing word(s). AI translation is disabled.")
    return ⟨⟨lexicon, []⟩, words.length, 0⟩

end Batch

end Arabize

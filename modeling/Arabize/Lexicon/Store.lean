import Arabize.Disk.Access
import Arabize.Json.Pieces
import Arabize.Json.Reader
import Arabize.Lexicon.Basic
import Arabize.Lexicon.Vocabulary
import Arabize.Log

/-! # Lexicon files

Two files hold texts as the keys of a JSON object.  The store of fetched words keeps
translations from run to run; the hand-off file names the texts that are to be translated
and lives only while they are asked for.

A store that cannot be read counts as empty, and that is reported; a hand-off file that
cannot be read is an error.
-/

namespace Arabize

inductive StoreKind
  | lexicon
  | handOff
  deriving DecidableEq, Repr

/-- Why such a file cannot be dealt with. -/
inductive StoreError
  | access (e : AccessError)
  | json (e : Json.ReadError)
  | notObject (kind : StoreKind) (path : Path)
  deriving DecidableEq

def StoreKind.name : StoreKind → Text
  | .lexicon => "Dictionary"
  | .handOff => "Missing words"

def StoreError.message : StoreError → Text
  | .access e => e.message
  | .json e => e.message
  | .notObject kind p => kind.name ++ " file is not a JSON object: " ++ p

def StoreError.isAbsence : StoreError → Bool
  | .access (.refused .notFound _) => true
  | _ => false

namespace Store

/-- The fields of the object in a file. -/
def readFields (d : Disk) (kind : StoreKind) (p : Path) : Except StoreError (Mapping Json) :=
  match d.readText p with
  | .error e => .error (.access e)
  | .ok t =>
    match Json.read t with
    | .error e => .error (.json e)
    | .ok (.obj fields) => .ok fields
    | .ok _ => .error (.notObject kind p)

/-- The directory of a file, the working directory if the path names none. -/
def directoryOf (p : Path) : Path :=
  if Path.directory p = [] then Path.here else Path.directory p

/-- Writes texts and their translations into a file and makes the directories it is in. -/
def write (p : Path) (m : Mapping Json) : Disk.Change Unit := do
  Disk.makeDirectories (directoryOf p)
  Disk.writePieces p (Json.pieces m)

/-! ## Fetched words -/

/-- What is reported of a store that cannot be read. -/
def unreadable (p : Path) (e : StoreError) : LogEntry :=
  ⟨.warning, "Could not load cached words from " ++ p ++ ": " ++ e.message⟩

/-- The words of a store and what is to be reported; without a file there are none. -/
def load (d : Disk) (p : Path) : Lexicon × Log :=
  match readFields d .lexicon p with
  | .ok fields => (Json.textFields fields, [])
  | .error e => ([], if e.isAbsence then [] else [unreadable p e])

/-- What is reported of words added to a store. -/
def appended (p : Path) (new total : Nat) : LogEntry :=
  ⟨.info, "Saved " ++ Text.ofNat new ++ " new words to " ++ p ++ " (" ++ Text.ofNat total
    ++ " total)"⟩

/-- A disk, and a log of what is done with it. -/
structure Desk where
  disk : Disk
  log : Log

abbrev Work := ExceptT AccessError (StateM Desk)

/-- Adds words to a store, new ones over old ones, and answers with all of them. -/
def append (p : Path) (new : Mapping Json) : Work (Mapping Json) := fun desk =>
  let (old, warnings) := load desk.disk p
  -- New words come last, or in place of old ones.
  let merged := (Json.textValues old).update new
  match write p merged desk.disk with
  | (.error e, disk) => (.error e, ⟨disk, desk.log ++ warnings⟩)
  | (.ok (), disk) =>
    (.ok merged, ⟨disk, desk.log ++ warnings ++ [appended p new.length merged.length]⟩)

/-- The lexicon that a run starts from: the bundled one, overridden by a store. -/
def lexicon [Lexicon.Bundle] (d : Disk) (p : Path) : Lexicon × Log :=
  let (stored, log) := load d p
  (Lexicon.merge [some Lexicon.Bundle.lexicon, some stored], log)

/-- The vocabulary of a run: its lexicon, overridden by what has just been fetched. -/
def vocabulary [Lexicon.Bundle] (d : Disk) (p : Path) (fetched : Mapping Json) : Vocabulary × Log :=
  let (stored, log) := load d p
  (Vocabulary.ofTiers [some Lexicon.Bundle.lexicon, some stored] fetched, log)

/-! ## The hand-off file -/

/-- Names texts in a hand-off file, in increasing order. -/
def saveHandOff (words : List Text) (p : Path) : Disk.Change Unit :=
  write p (Mapping.ofPairs ((Text.sort words).map fun w => (w, .str [])))

/-- The texts that a hand-off file names; without a file there are none. -/
def loadHandOff (d : Disk) (p : Path) : Except StoreError (List Text) :=
  match readFields d .handOff p with
  | .ok fields => .ok (Mapping.keys fields)
  | .error e => if e.isAbsence then .ok [] else .error e

/-- Removes a hand-off file; one that is not there is as good as removed. -/
def deleteHandOff (p : Path) : Disk.Change Unit := fun d =>
  match Disk.remove p d with
  | (.error (.refused .notFound _), d) => (.ok (), d)
  | result => result

end Store

end Arabize

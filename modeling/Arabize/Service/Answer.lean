import Arabize.Json.Reader
import Arabize.Lexicon.Basic
import Arabize.Text.Blank

/-! # Reading answers

The service is asked for JSON and answers with text that may wrap it.  The text is read as
it is; else without the fences of a code block; else the first balanced block of brackets
in it is read.  An answer is an object, or an array of objects that each hold some of the
pairs; only strings that are not blank are kept.
-/

namespace Arabize.Answer

/-! ## Fences -/

/-- The mark that opens and closes a block of code. -/
def fence : Text := "```"

/-- What may follow a fence: the name of the format, and blanks. -/
def afterFence (t : Text) : Text := Text.stripLeft ((Text.afterAnyCase? t "json").getD t)

/-- A text without fences and what follows them; the first argument counts the code points
    of a fence that are still to be passed over. -/
def dropFencesFrom : (skip : Nat) → Text → Text
  | _, [] => []
  | skip + 1, _ :: t => dropFencesFrom skip t
  | 0, c :: t =>
    match Text.after? (c :: t) fence with
    | some rest => dropFencesFrom (t.length - (afterFence rest).length) t
    | none => c :: dropFencesFrom 0 t

/-- A text without fences, not even such as its removal has made, and without blanks at
    its ends. -/
def withoutFences (t : Text) : Text := Text.strip (Text.replaceAll (dropFencesFrom 0 t) fence [])

/-! ## Blocks -/

/-- The length of the shortest beginning that closes as many brackets as it opens, with
    `depth` of them open before it. -/
def closingLength (opening closing : CodePoint) : (depth : Nat) → Text → Option Nat
  | _, [] => none
  | depth, c :: t =>
    if c = opening then (closingLength opening closing (depth + 1) t).map (· + 1)
    else if c = closing then
      if depth = 1 then some 1 else (closingLength opening closing (depth - 1) t).map (· + 1)
    else (closingLength opening closing depth t).map (· + 1)

def isOpening (c : CodePoint) : Bool := c = '[' || c = '\x7b'

def closingOf (opening : CodePoint) : CodePoint := if opening = '[' then ']' else '\x7d'

/-- The block that starts at the start of a text: up to where its bracket is closed, or,
    if it never is, up to the last closing bracket. -/
def blockAt (opening : CodePoint) (t : Text) : Option Text :=
  let closing := closingOf opening
  match closingLength opening closing 0 t with
  | some n => some (t.take n)
  | none => (Text.findLast? [closing] t).map fun i => t.take (i + 1)

def block? (t : Text) : Option Text :=
  match t.dropWhile fun c => !isOpening c with
  | [] => none
  | opening :: rest => blockAt opening (opening :: rest)

/-! ## Pairs -/

/-- The pairs of one item of an array: the word and its translation if the item names them,
    else its fields apart from such names. -/
def itemPairs (item : Mapping Json) : Mapping Json :=
  match item.find? "word", item.find? "translated" with
  | some (.str word), some (.str translated) => [(word, .str translated)]
  | _, _ => item.filter fun kv => kv.1 ≠ Text.ofString "word" ∧ kv.1 ≠ Text.ofString "translated"

def flatten : Json → Mapping Json
  | .obj fields => fields
  | .arr items =>
    items.foldl (fun m item => Mapping.update m ((item.fields?.map itemPairs).getD [])) []
  | _ => []

/-- Whether a value is one that an answer can be. -/
def isAnswer : Json → Bool
  | .obj _ => true
  | .arr _ => true
  | _ => false

inductive AnswerError
  | unusable (raw : Text)
  /-- It holds a whole number of too many digits. -/
  | numeralTooLong (digits : Nat)
  deriving DecidableEq

def AnswerError.message : AnswerError → Text
  | .unusable raw => "Could not parse JSON from AI response: " ++ raw.take 200
  | .numeralTooLong n => (Json.ReadError.numeralTooLong n).message

/-- A reading that gives nothing where the text is malformed. -/
def readIfWellFormed (t : Text) : Except AnswerError (Option Json) :=
  match Json.read t with
  | .ok j => .ok (some j)
  | .error (.malformed ..) => .ok none
  | .error (.numeralTooLong n) => .error (.numeralTooLong n)

/-- Reads the first block of a text, if it has one that is well formed. -/
def readBlock (t : Text) : Except AnswerError (Option Json) :=
  match block? t with
  | some block => readIfWellFormed block
  | none => .ok none

/-- Reads a text without its fences, or else its first block. -/
def readUnfenced (raw : Text) : Except AnswerError (Option Json) := do
  match ← readIfWellFormed (withoutFences raw) with
  | some j => return some j
  | none => readBlock (withoutFences raw)

/-- The JSON value in an answer; a bare null is looked for further. -/
def value? (raw : Text) : Except AnswerError (Option Json) := do
  match ← readIfWellFormed raw with
  | some .null => readUnfenced raw
  | some j => return some j
  | none => readUnfenced raw

/-- The translations in an answer: its strings that are not blank. -/
def kept (m : Mapping Json) : Lexicon := (Json.textFields m).filter fun kv => !Text.isBlank kv.2

def parse (raw : Text) : Except AnswerError Lexicon := do
  match ← value? raw with
  | some j => if isAnswer j then return kept (flatten j) else throw (.unusable raw)
  | none => throw (.unusable raw)

/-! ## Replies -/

def first? (j : Json) : Option Json := j.items?.bind List.head?

/-- The field that holds the text of a reply. -/
def textOfReply? (reply : Json) : Option Json := do
  let candidate ← (← reply.field? "candidates") |> first?
  let content ← candidate.field? "content"
  let part ← (← content.field? "parts") |> first?
  part.field? "text"

/-- The text in a reply, empty if there is none; nothing keeps a reply from having another
    value in its place. -/
def textOfReply (reply : Json) : Json := (textOfReply? reply).getD (.str [])

end Arabize.Answer

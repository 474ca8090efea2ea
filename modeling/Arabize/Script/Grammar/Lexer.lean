import Arabize.Script.Grammar.Item
import Arabize.Script.Grammar.LineEnd

/-! # The next token

Which token comes next depends on what is expected: the same slash may divide, or start a
regular expression.  Ends that are not written and text between tags are looked for first;
then, behind blanks, the best of all expected tokens is taken, and a comment is as good as
any of them.  A name that is spelled like an expected word is that word.  Without types,
words are reserved where a name is expected, unless any word may be a name there.
-/

namespace Arabize.Script.Grammar

inductive Lexed
  | token (terminal : Nat)
  | comment
  deriving DecidableEq

/-- A token or a comment and where it stands. -/
structure Token where
  what : Lexed
  lead : Nat
  width : Nat
  deriving DecidableEq

/-- A way to read the next token, with what makes it better than others. -/
structure Candidate where
  token : Token
  precedence : Nat
  weight : Nat

def Candidate.beats (a b : Candidate) : Bool :=
  b.precedence < a.precedence
    || (a.precedence == b.precedence
      && (b.token.width < a.token.width
        || (a.token.width == b.token.width && b.weight < a.weight)))

/-- The better of two candidates, the first one if neither is. -/
def Candidate.better (a b : Candidate) : Candidate := if b.beats a then b else a

def bestOf : List Candidate → Option Candidate
  | [] => none
  | c :: rest => some (rest.foldl Candidate.better c)

/-- Whether a kind of token has to stand directly behind the last one. -/
def Lexeme.isImmediate : Lexeme → Bool
  | .doubleQuotedText | .singleQuotedText | .escape | .regexBody | .regexEnd | .regexFlags
  | .doubleQuotedValue | .singleQuotedValue => true
  | _ => false

/-- The precedence of a kind of token: what stands between quotes is no comment, and what
    could be a comment is no regular expression. -/
def Lexeme.precedence : Lexeme → Nat
  | .doubleQuotedText | .singleQuotedText | .doubleQuotedValue | .singleQuotedValue
  | .regexEnd => 2
  | .regexBody => 0
  | _ => 1

/-- Whether a kind of token is found by looking ahead, before all others. -/
def Lexeme.isSought : Lexeme → Bool
  | .elementText | .templateText | .lineEnd | .signatureEnd | .questionMark => true
  | _ => false

def isWord (s : Text) : Bool := s.all CodePoint.isLowerLetter

/-- Whether a terminal is read as a name first. -/
def Terminal.isNameLike : Terminal → Bool
  | .finish => false
  | .lexeme l => l == .name || l == .memberName
  | .spelled w => isWord w

def reservedWords : List Text :=
  List.map Text.ofString
    ["break", "case", "catch", "class", "const", "continue", "debugger", "default", "delete",
     "do", "else", "export", "extends", "false", "finally", "for", "function", "if", "import",
     "in", "instanceof", "new", "null", "return", "super", "switch", "this", "throw", "true",
     "try", "typeof", "var", "void", "while", "with"]

def lexemeToken (l : Lexeme) (lead width : Nat) : Token :=
  ⟨.token (Terminal.lexeme l).number, lead, width⟩

namespace State

/-- Whether a state expects a kind of token. -/
def expects (s : State) (l : Lexeme) : Bool := s.expected.has (Terminal.lexeme l).number

def expectsNames (s : State) : Bool :=
  Terminal.numbered.any fun (t, n) => s.expected.has n && t.isNameLike

/-- Whether an operator may follow, as can be told from a single one. -/
def operatorMayFollow (s : State) : Bool := s.expected.has (Terminal.spelled "||").number

/-- A comment of the old form that hid programs from pages: the signs at either end of it,
    each with the rest of its line.  It stands only where no operator may follow. -/
def hidingComment? (s : State) (rest : Text) : Option Token :=
  let n := runLength isSpace rest
  let here := rest.drop n
  if s.operatorMayFollow || s.expects .escape || s.expects .regexBody then none
  else if Text.startsWith here "<!--" || Text.startsWith here "-->" then
    some ⟨.comment, n, 3 + runLength (fun c => !isBreak c) (here.drop 3)⟩
  else none

/-- The candidates for a comment and for a name. -/
def commonCandidates (s : State) (lead : Nat) (here : Text) : List Candidate :=
  let comment := match commentLength here with
    | 0 => []
    | n + 1 => [⟨⟨.comment, lead, n + 1⟩, 1, 0⟩]
  let name :=
    if s.expectsNames then
      match nameLength here with
      | 0 => []
      | n + 1 => [⟨lexemeToken .name lead (n + 1), 1, 0⟩]
    else []
  name ++ comment

end State

/-- The candidate for a terminal, if it can be read behind so many blanks. -/
def Terminal.candidate? (lead : Nat) (rest here : Text) (t : Terminal) (number : Nat) :
    Option Candidate :=
  match t with
  | .finish => none
  | .spelled w =>
    if !isWord w && Text.startsWith here w then
      some ⟨⟨.token number, lead, w.length⟩, 1, 2⟩
    else none
  | .lexeme l =>
    if l.isSought || l == .name || l == .memberName then none
    else
      -- What follows without a blank is read from where the blanks begin.
      let (lead, weight, text) := if l.isImmediate then (0, 1, rest) else (lead, 0, here)
      match l.measure text with
      | 0 => none
      | n + 1 =>
        some ⟨⟨.token number, lead, n + 1⟩, l.precedence, if l == .regexEnd then 3 else weight⟩

namespace Table

variable (t : Table)

/-! ## Tokens that are looked for first -/

/-- The question mark of a choice, so many code points ahead. -/
def choiceMark? (lead : Nat) (rest : Text) : Option Token :=
  let n := runLength isSpace rest
  if isChoiceMark t.dialect.hasTypes (rest.drop n) then
    some (lexemeToken .questionMark (lead + n) 1)
  else none

/-- The end of a statement that is not written, or else the question mark that was met in
    looking for it. -/
def lineEnd? (s : State) (rest : Text) : Option Token :=
  let expected : LineEndContext := ⟨s.operatorMayFollow, s.expects .signatureEnd⟩
  let g := lookForEnd t.dialect.hasTypes expected rest
  if g.ended then some (lexemeToken .lineEnd 0 0)
  else
    let behind := rest.drop g.passed
    if !g.sawComment && s.expects .questionMark && behind.head? == some (CodePoint.ofChar '?')
    then t.choiceMark? g.passed behind
    else none

/-- The token that is looked for before all others, if there is one. -/
def sought? (s : State) (rest : Text) : Option Token :=
  if s.expects .templateText then
    match (templateTextLength rest).getD 0 with
    | 0 => none
    | n + 1 => some (lexemeToken .templateText 0 (n + 1))
  else if t.dialect.hasElements && s.expects .elementText && elementTextLength rest != 0 then
    some (lexemeToken .elementText 0 (elementTextLength rest))
  else if s.expects .lineEnd || s.expects .signatureEnd then t.lineEnd? s rest
  else if s.expects .questionMark then t.choiceMark? 0 rest
  else s.hidingComment? rest

/-! ## All other tokens -/

/-- The number of the terminal that a name stands for: an expected word, or a name if the
    word is not reserved there. -/
def wordNumber (s : State) (name : Text) : Option Nat :=
  let n := (Terminal.spelled name).number
  if s.expected.has n then some n
  else if !t.dialect.hasTypes && !s.expects .memberName && reservedWords.contains name then
    none
  else some (Terminal.lexeme .name).number

def plainToken? (s : State) (rest : Text) : Option Token :=
  let lead := runLength isBlank rest
  let here := rest.drop lead
  let others := Terminal.numbered.filterMap fun (t, n) =>
    if s.expected.has n then t.candidate? lead rest here n else none
  match bestOf (s.commonCandidates lead here ++ others) with
  | some c =>
    if c.token.what = .token (Terminal.lexeme .name).number then
      (t.wordNumber s (here.take c.token.width)).map fun n => { c.token with what := .token n }
    else some c.token
  | none =>
    if here = [] then some ⟨.token Terminal.finish.number, lead, 0⟩ else none

/-- The next token of a text in a state. -/
def nextToken (s : State) (rest : Text) : Option Token :=
  match t.sought? s rest with
  | some token => some token
  | none => t.plainToken? s rest

end Table

end Arabize.Script.Grammar

import Arabize.Script.Grammar.Measure

/-! # Ends that are not written

A statement may end without a semicolon: at the end of the program, before a closing brace,
and at a line break if what follows cannot go on with the statement.  Whether it can is
guessed from the first code points of the next line, and the guess depends on whether an
operator may follow at all.

The same look ahead may stop at a question mark, which is then told apart from the marks
that only begin with one.
-/

namespace Arabize.Script.Grammar

/-! ## Passing over blanks and comments -/

/-- Why blanks and comments came to an end. -/
inductive SkimStop
  | token
  /-- A comment without a line break has just ended. -/
  | comment
  | slash
  deriving DecidableEq, Repr

/-- What passing over blanks and comments came to. -/
structure Skim where
  passed : Nat
  stop : SkimStop
  sawComment : Bool

def Skim.behind (n : Nat) (sawComment : Bool) (s : Skim) : Skim :=
  { s with passed := n + s.passed, sawComment := sawComment || s.sawComment }

/-- Passes over blanks and comments.  Without types it stops behind a long comment that no
    slash follows, unless it is to go through; `broken` says whether a line has ended in a
    comment.  The fuel bounds how many comments there may be. -/
def skim (typed through : Bool) : Nat → (broken : Bool) → Text → Skim
  | 0, _, _ => ⟨0, .token, false⟩
  | fuel + 1, broken, t =>
    let n := runLength isSpace t
    match t.drop n with
    | c :: d :: u =>
      if c ≠ '/' then ⟨n, .token, false⟩
      else if d = '/' then
        let m := runLength (fun e => if typed then e != '\n' else !isBreak e) u
        (skim typed through fuel broken (u.drop m)).behind (n + 2 + m) true
      else if d = '*' then
        match Text.find? "*/" u with
        | none => ⟨n + 2 + u.length, .token, false⟩
        | some m =>
          -- A line that ends inside a comment ends all the same.
          let nowBroken := broken || (u.take m).any isBreak
          let rest := u.drop (m + 2)
          if typed then (skim typed through fuel nowBroken rest).behind (n + m + 4) false
          else if !through && rest.head? ≠ some '/' then
            ⟨n + m + 4, if nowBroken then .token else .comment, true⟩
          else (skim typed through fuel nowBroken rest).behind (n + m + 4) true
      else ⟨n + 1, .slash, false⟩
    | [c] => if c = '/' then ⟨n + 1, .slash, false⟩ else ⟨n, .token, false⟩
    | [] => ⟨n, .token, false⟩

/-! ## Where a statement ends -/

/-- What looking ahead for the end of a statement came to. -/
structure Glance where
  ended : Bool
  passed : Nat
  sawComment : Bool

def Glance.behind (n : Nat) (sawComment : Bool) (g : Glance) : Glance :=
  { g with passed := n + g.passed, sawComment := sawComment || g.sawComment }

/-- Whether a word starts a text that no letter follows. -/
def startsLoneWord (t : Text) (word : Text) : Bool :=
  Text.startsWith t word && !((t.drop word.length).head?.any isLetter)

/-- Looks at the beginning of a line that may go on with a statement: signs that can only
    go on with it do, and the words `in` and `instanceof` do. -/
def lineStart (t : Text) : Glance :=
  match t with
  | [] => ⟨true, 0, false⟩
  | c :: u =>
    if c = '+' ∨ c = '-' then ⟨u.head? == some c, 1, false⟩
    else if c = '!' then ⟨u.head? != some (CodePoint.ofChar '='), 1, false⟩
    else if startsLoneWord t "in" then ⟨false, 2, false⟩
    else if startsLoneWord t "instanceof" then ⟨false, 10, false⟩
    else ⟨true, 1, false⟩

/-- Looks at the beginning of a line, without types. -/
def untypedLineStart (t : Text) : Glance :=
  match t with
  | [] => ⟨true, 0, false⟩
  | c :: u =>
    if (Text.ofString "`,:;*%><=[(?^|&/").contains c then ⟨false, 0, false⟩
    else if c = '.' then ⟨u.head?.any CodePoint.isDigit, 1, false⟩
    else lineStart t

/-- What may be expected where a statement may end. -/
structure LineEndContext where
  operator : Bool
  signature : Bool

/-- Looks at the beginning of a line, with types: brackets and parentheses go on with a
    statement only where an operator could, and a brace is the body of a function. -/
def typedLineStart (expected : LineEndContext) (t : Text) : Glance :=
  if t.head?.any fun c => (Text.ofString "`,.;*%><=?^|&/:").contains c then ⟨false, 0, false⟩
  else if t.head? = some '\x7b' ∧ expected.signature = true then ⟨false, 0, false⟩
  else if (t.head? = some '(' ∨ t.head? = some '[') ∧ expected.operator = true then
    ⟨false, 0, false⟩
  else lineStart t

def pastBreak (typed : Bool) (start : Text → Glance) (t : Text) : Glance :=
  let s := skim typed true (t.length + 1) false t
  if s.stop = .slash then ⟨false, s.passed, s.sawComment⟩
  else (start (t.drop s.passed)).behind s.passed s.sawComment

/-- Looks for the end of a statement among blanks, without types. -/
def untypedBlankEnd (t : Text) (next : Text → Glance) : Glance :=
  match t with
  | [] => ⟨false, 0, false⟩
  | c :: u =>
    if c = '\x7d' then ⟨true, 0, false⟩
    else if isBreak c then (pastBreak false untypedLineStart u).behind 1 false
    else if !isSpace c then ⟨false, 0, false⟩
    else (next u).behind 1 false

/-- Looks for the end of a statement, without types.  Where no operator may follow, a
    comment with a line break ends the statement, unless a comma or an equals sign goes on
    with it.  The fuel bounds how many blanks there may be. -/
def untypedLineEnd (operator : Bool) : Nat → Text → Glance
  | 0, _ => ⟨false, 0, false⟩
  | fuel + 1, t =>
    if t = [] then ⟨true, 0, false⟩
    else if t.head? = some '/' then
      let s := skim false false (t.length + 1) false t
      let rest := t.drop s.passed
      if s.stop = .slash then ⟨false, s.passed, s.sawComment⟩
      else if s.stop = .token ∧ operator = false
          ∧ rest.head? ≠ some ',' ∧ rest.head? ≠ some '=' then
        ⟨true, s.passed, s.sawComment⟩
      else (untypedBlankEnd rest (untypedLineEnd operator fuel)).behind s.passed s.sawComment
    else untypedBlankEnd t (untypedLineEnd operator fuel)

/-- Looks for the end of a statement, with types.  A colon behind a closing brace goes on
    with the statement, unless an operator may follow. -/
def typedLineEnd (expected : LineEndContext) : Text → Glance
  | [] => ⟨true, 0, false⟩
  | c :: t =>
    if c = '\x7d' then
      let n := runLength isSpace t
      ⟨(t.drop n).head? != some (CodePoint.ofChar ':') || expected.operator, n + 1, false⟩
    else if !isSpace c then ⟨false, 0, false⟩
    else if c = '\n' then (pastBreak true (typedLineStart expected) t).behind 1 false
    else (typedLineEnd expected t).behind 1 false

def lookForEnd (typed : Bool) (expected : LineEndContext) (t : Text) : Glance :=
  if typed then typedLineEnd expected t else untypedLineEnd expected.operator (t.length + 1) t

/-! ## Question marks -/

/-- Whether the question mark that starts a text is that of a choice between expressions. -/
def isChoiceMark (typed : Bool) (t : Text) : Bool :=
  match t with
  | [] => false
  | c :: u =>
    let digitAfterPoint (v : Text) : Bool := (v.drop 1).head?.any CodePoint.isDigit
    if c ≠ '?' ∨ u.head? = some '?' then false
    else if typed then
      let v := u.drop (runLength isSpace u)
      if u.head? = some '.' then false
      else if v.head? = some '.' then digitAfterPoint v
      else !(v.head?.any fun d => (Text.ofString ":),").contains d)
    else if u.head? = some '.' then digitAfterPoint u
    else true

end Arabize.Script.Grammar

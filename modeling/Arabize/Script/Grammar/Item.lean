import Arabize.Script.Grammar.Table

/-! # States

While a program is read, a state says what may come next: it holds the forms that have been
begun, how far each has got, and what may follow each.  The forms that may be begun next
are not listed; they are found through the goals that the begun ones wait for.

Two readings are in the same state exactly when their items are the same.  `advance` lists
items from those that have got furthest, and among equals in the order of the forms, so
that equal sets of items are equal lists.
-/

namespace Arabize.Script.Grammar

structure Item where
  production : Nat
  dot : Nat
  follow : TokenSet
  deriving DecidableEq

structure State where
  items : List Item
  /-- The goals that they wait for, by their numbers, and what may follow each. -/
  openings : List (Nat × TokenSet)
  expected : TokenSet
  deriving DecidableEq

namespace Table

variable (t : Table)

def form (i : Item) : Production := t.productions.getD i.production default

/-- Adds what may follow a goal to the openings of a state. -/
def addOpening (goal : Nat) (follow : TokenSet) : List (Nat × TokenSet) → List (Nat × TokenSet)
  | [] => [(goal, follow)]
  | (g, known) :: rest =>
    if g = goal then (g, known.union follow) :: rest
    else (g, known) :: addOpening goal follow rest

/-- The goals that some items wait for, and what may follow each. -/
def openingsOf : List Item → List (Nat × TokenSet)
  | [] => []
  | i :: rest =>
    let p := t.form i
    match p.symbols[i.dot]? with
    | none => openingsOf rest
    | some s =>
      if s < Terminal.count then openingsOf rest
      else
        addOpening (s - Terminal.count) (p.starts.getD (i.dot + 1) i.follow) (openingsOf rest)

/-- The terminals that may come next, given some items. -/
def expectedOf : List Item → TokenSet
  | [] => 0
  | i :: rest => ((t.form i).starts.getD i.dot i.follow).union (expectedOf rest)

def stateOf (items : List Item) : State := ⟨items, t.openingsOf items, t.expectedOf items⟩

def initialState : State :=
  let finish := NumberSet.single Terminal.finish.number
  t.stateOf (t.productions.toList.zipIdx.filterMap fun (p, n) =>
    if p.goal = .program then some ⟨n, 0, finish⟩ else none)

/-- The items that have got past a symbol. -/
def moved (symbol : Nat) (items : List Item) : List Item :=
  items.filterMap fun i =>
    if (t.form i).symbols[i.dot]? = some symbol then some { i with dot := i.dot + 1 } else none

/-- What may follow a form of a goal that is begun in a place where goals are waited for;
    nothing if it cannot be begun there. -/
def followIn (goal : Nat) : List (Reach × TokenSet) → Option TokenSet
  | [] => none
  | (reach, outer) :: rest =>
    match reach.getD goal none, followIn goal rest with
    | none, known => known
    | some f, known =>
      let here := if f.passes then f.after.union outer else f.after
      some (here.union (known.getD 0))

/-- The items that are begun by a symbol. -/
def begun (symbol : Nat) (openings : List (Nat × TokenSet)) : List Item :=
  let doors := openings.map fun (g, follow) =>
    (((t.reaches[g]?).map fun reach => reach.get).getD #[], follow)
  (t.heads.getD symbol []).filterMap fun n =>
    (followIn ((t.productions.getD n default).goal.number) doors).map fun follow =>
      ⟨n, 1, follow⟩

def advance (s : State) (symbol : Nat) : State :=
  t.stateOf (t.moved symbol s.items ++ t.begun symbol s.openings)

end Table

end Arabize.Script.Grammar

import Arabize.Script.Grammar.Item
import Arabize.Script.Grammar.Rank

/-! # What to do next

In a state and with a token ahead, a reading may go past the token, or take a form that is
complete for its goal.  Where more than one of these is possible, ranks and sides decide as
far as they can.  What they leave open is a genuine choice, and all of it is tried.
-/

namespace Arabize.Script.Grammar

/-- What may be done with a token ahead. -/
structure Choice where
  shift : Bool
  /-- The forms that may be taken for their goals, the preferred ones first. -/
  reductions : List Nat
  deriving DecidableEq

/-- Complete forms that none of the others beats. -/
structure Survivors where
  forms : List Nat
  rank : Option Rank
  goals : List Goal
  sides : List (Option Side)

namespace Survivors

def none : Survivors := ⟨[], .none, [], []⟩

def contender (s : Survivors) : Contender := ⟨s.rank, s.goals⟩

/-- Takes one more form in: it may beat the others, join them, or be beaten. -/
def admitForm (orders : List (List Standing)) (s : Survivors) (number : Nat) (p : Production) :
    Survivors :=
  if s.forms = [] then ⟨[number], p.rank, [p.goal], [p.side]⟩
  else
    match compareBy orders ⟨p.rank, [p.goal]⟩ s.contender with
    | .gt => ⟨[number], p.rank, [p.goal], [p.side]⟩
    | .eq => ⟨number :: s.forms, p.rank, p.goal :: s.goals, p.side :: s.sides⟩
    | .lt => s

end Survivors

namespace Table

variable (t : Table)

/-- The complete forms of a state that a terminal may follow and that none beats. -/
def survivors (orders : List (List Standing)) (s : State) (terminal : Nat) : Survivors :=
  s.items.foldl (fun known i =>
    let p := t.form i
    if i.dot = p.symbols.size ∧ i.follow.has terminal then
      known.admitForm orders i.production p
    else known) .none

/-- Whether an item can go on with a terminal. -/
def goesOn (terminal : Nat) (i : Item) : Bool :=
  match (t.form i).starts[i.dot]? with
  | some start => start.has terminal
  | none => false

/-- How the begun forms that can go on with a terminal compare with complete ones. -/
def comparisons (orders : List (List Standing)) (s : State) (terminal : Nat)
    (complete : Contender) : List Ordering :=
  (s.items.filter fun i => 0 < i.dot && t.goesOn terminal i).map fun i =>
    let p := t.form i
    compareBy orders ⟨p.rank, [p.goal]⟩ complete

/-- What may be done in a state with a terminal ahead. -/
def choose (s : State) (terminal : Nat) : Choice :=
  let rows := orders t.dialect
  let kept := t.survivors rows s terminal
  let shift := s.items.any (t.goesOn terminal)
  if shift = false ∨ kept.forms = [] then ⟨shift, kept.forms⟩
  else
    -- Only begun forms that can go on stand against the complete ones.
    let outcomes := t.comparisons rows s terminal kept.contender
    let higher := outcomes.contains .gt
    let lower := outcomes.contains .lt
    if higher && !lower then ⟨true, []⟩
    else if lower && !higher then ⟨false, kept.forms⟩
    else if higher && lower then ⟨true, kept.forms⟩
    else if kept.sides.all (· == some .left) then ⟨false, kept.forms⟩
    else if kept.sides.all (· == some .right) then ⟨true, []⟩
    else ⟨true, kept.forms⟩

end Table

end Arabize.Script.Grammar

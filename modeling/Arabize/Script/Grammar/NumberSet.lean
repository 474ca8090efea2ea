import Arabize.Text.Basic

/-! # Sets of small numbers

A set of numbers is itself a number: its bits are the members.  `closure` gathers all that a
step leads to, one member at a time; the members that wait are always among those found.
-/

namespace Arabize.Script.Grammar

abbrev NumberSet := Nat

namespace NumberSet

def empty : NumberSet := 0

def single (n : Nat) : NumberSet := 1 <<< n

def has (s : NumberSet) (n : Nat) : Bool := Nat.testBit s n

def union (s t : NumberSet) : NumberSet := s ||| t

def common (s t : NumberSet) : NumberSet := s &&& t

/-- The members of the first set that are not in the second one. -/
def minus (s t : NumberSet) : NumberSet := s - common s t

def unionAll : List NumberSet → NumberSet
  | [] => empty
  | s :: rest => s.union (unionAll rest)

def ofList (ns : List Nat) : NumberSet := unionAll (ns.map single)

/-- What is found from the waiting members by a step and by further steps, together with
    what is known already; the fuel bounds how many members are looked at. -/
def closure (next : Nat → NumberSet) : Nat → (waiting known : NumberSet) → NumberSet
  | 0, _, known => known
  | fuel + 1, waiting, known =>
    if waiting = empty then known
    else
      let n := Nat.log2 waiting
      let found := (next n).minus known
      closure next fuel ((waiting.minus (single n)).union found) (known.union found)

end NumberSet

end Arabize.Script.Grammar

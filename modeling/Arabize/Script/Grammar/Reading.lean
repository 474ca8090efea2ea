import Arabize.Script.Grammar.Choice
import Arabize.Script.Grammar.Lexer
import Arabize.Text.Utf8

/-! # Reading a program

A reading is a way to understand the beginning of a program as a row of symbols, with the
nodes that stand for each and the state behind it.  A token carries a reading on in as many
ways as there are choices, and readings that cannot go on are dropped.

Readings that have come to the same state in the same place go on alike, however they got
there, so they are kept as one: a spot knows all the ways that lead to it.  That keeps the
number of readings below that of the states.  Two ways that agree in all states are two
understandings of the same text, and the first one is kept.

The reading that is least far is always carried on first, so that two readings meet as soon
as they can.
-/

namespace Arabize.Script.Grammar

structure Segment where
  start : Nat
  stop : Nat
  /-- The nodes that stand for it, the last one first. -/
  nodes : List Node

mutual

inductive Spot
  /-- A spot with its state, the offset behind its last symbol, and the ways to it. -/
  | mk (state : State) (offset : Nat) (ways : List Way)

inductive Way
  /-- The last symbol of a way, and the spot before it. -/
  | mk (segment : Segment) (before : Spot)

end

def Spot.state : Spot → State
  | .mk state _ _ => state

def Spot.offset : Spot → Nat
  | .mk _ offset _ => offset

def Spot.ways : Spot → List Way
  | .mk _ _ ways => ways

def Way.segment : Way → Segment
  | .mk segment _ => segment

/-- The spot before the last symbol of a way. -/
def Way.before : Way → Spot
  | .mk _ before => before

namespace Spot

/-- Whether two spots have the same state in the same place. -/
def meets (a b : Spot) : Bool := a.offset == b.offset && a.state == b.state

/-- Adds the ways of a second spot to those of a first one, unless they come from where one
    of those comes from. -/
def union (a b : Spot) : Spot :=
  .mk a.state a.offset
    (a.ways ++ b.ways.filter fun w => !(a.ways.any fun v => v.before.meets w.before))

/-- Adds a way to others; if one of them comes from the same place, the two become one. -/
def addWay (w : Way) : List Way → List Way
  | [] => [w]
  | v :: ways =>
    if v.before.meets w.before then .mk v.segment (v.before.union w.before) :: ways
    else v :: addWay w ways

def merge (a b : Spot) : Spot :=
  .mk a.state a.offset (b.ways.foldl (fun ways w => addWay w ways) a.ways)

/-- The last so many symbols of all ways to a spot, the last one first, each with the spot
    before them. -/
def paths : Nat → Spot → List (List Segment × Spot)
  | 0, s => [([], s)]
  | n + 1, s => s.ways.flatMap fun w =>
    (paths n w.before).map fun (segments, base) => (w.segment :: segments, base)

end Spot

/-- Ways to understand the beginning of a program that have come to one spot. -/
structure Reading where
  spot : Spot
  rest : Text
  offset : Nat

inductive Outcome
  | going (r : Reading)
  /-- The program is complete; its nodes, the last one first. -/
  | complete (nodes : List Node)

namespace Reading

/-- Whether two readings have come to the same state in the same place. -/
def meets (a b : Reading) : Bool := a.offset == b.offset && a.spot.state == b.spot.state

/-- Adds a reading to others; if it meets one of them, the two become one. -/
def join (r : Reading) : List Reading → List Reading
  | [] => [r]
  | s :: rs => if s.meets r then { s with spot := s.spot.merge r.spot } :: rs else s :: join r rs

def skip (r : Reading) (n : Nat) : Reading :=
  { r with rest := r.rest.drop n, offset := r.offset + Utf8.size (r.rest.take n) }

end Reading

/-- The kind of node that stands for a token, by the number of its terminal, if one does. -/
def tokenKind? (terminal : Nat) : Option Kind :=
  if terminal = (Terminal.lexeme .elementText).number then some .elementText else none

/-- The nodes of a symbol, given those of its parts with the last one first. -/
def nodesOf (kind : Option Kind) (start stop : Nat) (parts : List Node) : List Node :=
  match kind with
  | none => parts
  | some .other => if parts.isEmpty then [] else [Node.branch .other start stop parts.reverse]
  | some k => [Node.branch k start stop parts.reverse]

namespace Table

variable (t : Table)

def shift (r : Reading) (terminal : Nat) (token : Token) : Reading :=
  let start := r.offset + Utf8.size (r.rest.take token.lead)
  let next := r.skip (token.lead + token.width)
  let segment : Segment :=
    ⟨start, next.offset, nodesOf (tokenKind? terminal) start next.offset []⟩
  { next with
    spot := .mk (t.advance r.spot.state terminal) next.offset [.mk segment r.spot] }

/-- Takes a complete form for its goal, given its symbols with the last one first and the
    spot before them. -/
def reduce (r : Reading) (p : Production) (segments : List Segment) (base : Spot) : Outcome :=
  let nodes := segments.flatMap Segment.nodes
  match p.goal, segments, segments.getLast? with
  | .program, _, _ => .complete nodes
  | goal, last :: _, some first =>
    let segment : Segment :=
      ⟨first.start, last.stop, nodesOf p.kind first.start last.stop nodes⟩
    .going { r with
      spot := .mk (t.advance base.state goal.symbol) last.stop [.mk segment base] }
  | _, _, _ => .going r

/-- Carries a reading on past a token, taking complete forms for their goals first; the fuel
    bounds how many of them. -/
def carry (terminal : Nat) (token : Token) : Nat → Reading → List Outcome
  | 0, _ => []
  | fuel + 1, r =>
    let choice := t.choose r.spot.state terminal
    (if choice.shift then [.going (t.shift r terminal token)] else [])
      ++ choice.reductions.flatMap fun number =>
        let p := t.productions.getD number default
        (r.spot.paths p.symbols.size).flatMap fun (segments, base) =>
          match t.reduce r p segments base with
          | .complete nodes => [.complete nodes]
          | .going next => carry terminal token fuel next

/-- Carries a reading on past the next token or comment. -/
def step (fuel : Nat) (r : Reading) : List Outcome :=
  match t.nextToken r.spot.state r.rest with
  | none => []
  | some token =>
    match token.what with
    | .comment => [.going (r.skip (token.lead + token.width))]
    | .token terminal => t.carry terminal token fuel r

/-- Sorts outcomes: the readings that go on are joined to others, and the first complete
    program is picked out. -/
def sortOutcomes : List Outcome → List Reading → List Reading × Option (List Node)
  | [], rs => (rs, none)
  | .going r :: rest, rs => sortOutcomes rest (r.join rs)
  | .complete nodes :: _, rs => (rs, some nodes)

def leastOffset : List Reading → Nat → Nat
  | [], n => n
  | r :: rest, n => leastOffset rest (if r.offset < n then r.offset else n)

/-- Carries readings on until one of them is complete or none is left; the fuel bounds how
    often. -/
def carryAll (fuel : Nat) : Nat → List Reading → Option (List Node)
  | 0, _ => none
  | _, [] => none
  | rounds + 1, r :: rs =>
    let here := leastOffset rs r.offset
    let (now, later) := (r :: rs).partition fun s => s.offset == here
    match sortOutcomes (now.flatMap (t.step fuel)) later with
    | (_, some nodes) => some nodes
    | (next, none) => carryAll fuel rounds next

/-- The nodes of a program in order, if it can be read. -/
def read (program : Text) : Option (List Node) :=
  let n := program.length + 1
  (t.carryAll (64 * n) (4 * n + 16) [⟨.mk t.initialState 0 [], program, 0⟩]).map List.reverse

end Table

end Arabize.Script.Grammar

/-! ## The tree of a source -/

namespace Arabize.Script

/-- The syntax tree of a source, as far as the literals and the texts of elements go.  A source
    that the grammar refuses gives a tree with an error and no place for it. -/
def outline (dialect : Grammar.Dialect) (source : Text) : Node :=
  match (Grammar.Table.get dialect).read source with
  | some nodes => Node.branch .other 0 (Utf8.size source) nodes
  | none => Node.unreadable (Utf8.size source)

end Arabize.Script

namespace Arabize.Installed

/-- The parser of this library itself. -/
scoped instance parser : Script.Parser := ⟨Script.outline⟩

end Arabize.Installed

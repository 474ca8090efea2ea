import Arabize.Script.Grammar.Element
import Arabize.Script.Grammar.NumberSet
import Arabize.Script.Grammar.Spelling
import Arabize.Script.Grammar.Statement
import Arabize.Script.Grammar.Type

/-! # Tables

The grammar of a dialect in numbers, worked out once: goals are numbered after the
terminals, and the forms of all goals in the order of the rules.

From the forms come the goals that each goal may start with, the terminals that it may start
with, and what may follow a goal that another one starts with.  No goal but the program
itself can be empty, so that the first symbol of a form alone says what it starts with.
-/

namespace Arabize.Script.Grammar

/-- The rules of a dialect.  Types come last, and later forms are preferred where a text can
    be read in two ways: what may be a row of types is none of comparisons. -/
def definitions (d : Dialect) : List Definition :=
  statementDefinitions d ++ moduleDefinitions d ++ expressionDefinitions d
    ++ accessDefinitions d ++ operatorDefinitions ++ collectionDefinitions d
    ++ literalDefinitions ++ functionDefinitions d ++ classDefinitions d
    ++ decoratorDefinitions d ++ (if d.hasElements then elementDefinitions d else [])
    ++ [dottedNameDefinition] ++ (if d.hasTypes then typeDefinitions d else [])

/-! ## Numbers -/

abbrev TokenSet := NumberSet

abbrev GoalSet := NumberSet

def Goal.number (g : Goal) : Nat := g.ctorIdx

def Goal.count : Nat := Goal.number .functionType + 1

def Goal.symbol (g : Goal) : Nat := Terminal.count + g.number

/-- A value for every goal, by its number. -/
def forGoals {α : Type} (f : Nat → α) : Array α := ((List.range Goal.count).map f).toArray

namespace Symbol

/-- The number of a symbol; a name that may be any word counts as a name. -/
def number : Symbol → Nat
  | .goal g => g.symbol
  | .terminal (.lexeme .memberName) => (Terminal.lexeme .name).number
  | .terminal t => t.number

def goal? : Symbol → Option Nat
  | .goal g => some g.number
  | .terminal _ => none

/-- The terminals that a symbol may start with, given those that goals may start with.  A
    name that may be any word is marked as well. -/
def start (firsts : Array TokenSet) : Symbol → TokenSet
  | .goal g => firsts.getD g.number NumberSet.empty
  | .terminal (.lexeme .memberName) =>
    NumberSet.ofList [(Terminal.lexeme .memberName).number, (Terminal.lexeme .name).number]
  | .terminal t => NumberSet.single t.number

end Symbol

/-! ## What goals start with -/

/-- The symbols that the forms of a goal start with. -/
def leadersOf (ds : List Definition) (goal : Nat) : List Symbol :=
  (ds.filter fun d => d.goal.number == goal).flatMap fun d =>
    d.rule.filterMap fun f => f.symbols.head?

/-- The goals that each goal may start with, at any depth; each one starts with itself. -/
def reachableOf (ds : List Definition) : Array GoalSet :=
  let next := forGoals fun g => NumberSet.ofList ((leadersOf ds g).filterMap Symbol.goal?)
  forGoals fun g =>
    NumberSet.closure (fun n => next.getD n NumberSet.empty) Goal.count
      (NumberSet.single g) (NumberSet.single g)

/-- The terminals that each goal may start with. -/
def firstsOf (ds : List Definition) (reachable : Array GoalSet) : Array TokenSet :=
  let own := forGoals fun g => NumberSet.unionAll ((leadersOf ds g).map (Symbol.start #[]))
  forGoals fun g =>
    let inside := reachable.getD g NumberSet.empty
    NumberSet.unionAll (((List.range Goal.count).filter inside.has).map fun n =>
      own.getD n NumberSet.empty)

/-! ## Forms in numbers -/

structure Production where
  goal : Goal
  kind : Option Kind
  symbols : Array Nat
  starts : Array TokenSet
  rank : Option Rank
  side : Option Side

instance : Inhabited Production := ⟨⟨.program, none, #[], #[], none, none⟩⟩

def productionsOf (ds : List Definition) (firsts : Array TokenSet) : Array Production :=
  (ds.flatMap fun d => d.rule.map fun f =>
    { goal := d.goal
      kind := d.kind
      symbols := (f.symbols.map Symbol.number).toArray
      starts := (f.symbols.map (Symbol.start firsts)).toArray
      rank := f.rank
      side := f.side : Production }).toArray

/-- For each symbol the numbers of the forms that start with it. -/
def headsOf (ps : Array Production) : Array (List Nat) :=
  let leaders := ps.toList.zipIdx.map fun (p, n) => (p.symbols[0]?, n)
  ((List.range (Terminal.count + Goal.count)).map fun s =>
    leaders.filterMap fun (first, n) => if first = some s then some n else none).toArray

/-! ## What follows a goal that another one starts with -/

/-- What may follow a goal that another one starts with. -/
structure Follow where
  after : TokenSet
  /-- Whether what follows the outer goal may follow too. -/
  passes : Bool
  deriving DecidableEq

/-- The goals that a goal may start with, by their numbers, and what may follow them. -/
abbrev Reach := Array (Option Follow)

/-- For each goal those that may be nothing but it, at any depth; each may be itself. -/
def outersOf (ps : Array Production) (heads : Array (List Nat)) : Array GoalSet :=
  let next := forGoals fun g => NumberSet.ofList
    ((heads.getD (Terminal.count + g) []).filterMap fun n =>
      let p := ps.getD n default
      if p.symbols.size = 1 then some p.goal.number else none)
  forGoals fun g =>
    NumberSet.closure (fun n => next.getD n NumberSet.empty) Goal.count
      (NumberSet.single g) (NumberSet.single g)

/-- The goals that a goal may start with, and what may follow them: what stands behind one
    that may be nothing but such a goal, and what follows the outer goal if that may be
    nothing but it. -/
def reachOf (ps : Array Production) (heads : Array (List Nat)) (inside : GoalSet)
    (outers : Array GoalSet) (goal : Nat) : Reach :=
  let behind := forGoals fun g => NumberSet.unionAll
    ((heads.getD (Terminal.count + g) []).filterMap fun n =>
      let p := ps.getD n default
      if inside.has p.goal.number then p.starts[1]? else none)
  forGoals fun g =>
    if inside.has g then
      let outer := outers.getD g NumberSet.empty
      let among := inside.common outer
      some ⟨NumberSet.unionAll (((List.range Goal.count).filter among.has).map fun n =>
        behind.getD n NumberSet.empty), outer.has goal⟩
    else none

/-! ## The table of a dialect -/

structure Table where
  dialect : Dialect
  productions : Array Production
  /-- For each symbol the forms that start with it. -/
  heads : Array (List Nat)
  /-- For each goal the goals that it may start with. -/
  reaches : Array (Thunk Reach)

namespace Table

def ofDialect (d : Dialect) : Table :=
  let ds := definitions d
  let reachable := reachableOf ds
  let productions := productionsOf ds (firstsOf ds reachable)
  let heads := headsOf productions
  let outers := outersOf productions heads
  { dialect := d
    productions
    heads
    reaches := forGoals fun g => Thunk.mk fun _ =>
      reachOf productions heads (reachable.getD g NumberSet.empty) outers g }

/-- The tables of all dialects, each worked out when it is first asked for. -/
def all : List (Dialect × Thunk Table) :=
  Dialect.all.map fun d => (d, Thunk.mk fun _ => ofDialect d)

/-- The table of a dialect, from those kept. -/
def get (d : Dialect) : Table :=
  match all.lookup d with
  | some table => table.get
  | none => ofDialect d

end Table

end Arabize.Script.Grammar

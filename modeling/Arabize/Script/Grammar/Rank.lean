import Arabize.Script.Grammar.Rule

/-! # The order of ranks

Ranks are ordered by several rows, each from the highest down.  A row may name a goal
instead of a rank: it then speaks of the forms of that goal, whatever their rank.  The
first row that knows both sides decides, so that rows need not agree with one another and
two ranks that never meet need not be compared at all.
-/

namespace Arabize.Script.Grammar

inductive Standing
  | rank (r : Rank)
  | goal (g : Goal)
  deriving DecidableEq

def sharedOrders : List (List Standing) :=
  [[.rank .member, .rank .templateCall, .rank .call, .goal .update, .rank .unary, .rank .power,
      .rank .product, .rank .addition, .rank .shift, .rank .relation, .rank .equality,
      .rank .bitAnd, .rank .bitXor, .rank .bitOr, .rank .logicalAnd, .rank .logicalOr,
      .rank .ternary, .goal .sequence, .goal .arrowFunction],
   [.rank .assignment, .goal .primary],
   [.rank .member, .rank .templateCall, .rank .construction, .rank .call, .goal .expression],
   [.rank .declaration, .rank .literal],
   [.goal .primary, .goal .block, .rank .object],
   [.goal .metaProperty, .goal .importWord],
   [.goal .importStatement, .goal .importWord],
   [.goal .exportStatement, .goal .primary],
   [.goal .lexicalDeclaration, .goal .primary]]

/-- The rows that only dialects with types have. -/
def typedOrders : List (List Standing) :=
  [[.rank .call, .rank .instantiation, .rank .assertion, .rank .ascription,
      .goal .awaitExpression, .goal .arrowFunction],
   [.rank .extension, .rank .instantiation],
   [.goal .intersectionType, .goal .unionType, .goal .conditionalType, .goal .functionType,
      .rank .ascription, .goal .predicate, .goal .readonlyType],
   [.goal .mappedClause, .goal .primary],
   [.goal .accessModifier, .goal .primary],
   [.rank .unary, .goal .expression],
   [.goal .extendsClause, .goal .primary],
   [.rank .assertion, .rank .assignment],
   [.rank .declaration, .goal .expression],
   [.goal .predefinedType, .goal .unary],
   [.goal .type, .goal .maybeType],
   [.goal .tupleType, .goal .arrayType, .goal .pattern, .goal .type],
   [.goal .readonlyType, .goal .pattern],
   [.goal .readonlyType, .goal .primary],
   [.goal .typeQuery, .goal .subscript, .goal .expression],
   [.goal .typeQuery, .goal .queriedSubscript],
   [.goal .nestedTypeName, .goal .genericType, .goal .primaryType, .goal .lookupType,
      .goal .indexQuery, .goal .type],
   [.goal .asExpression, .goal .satisfiesExpression, .goal .primaryType],
   [.goal .queriedMember, .goal .member],
   [.goal .member, .goal .importedMember],
   [.goal .queriedMember, .goal .primary],
   [.goal .queriedSubscript, .goal .subscript],
   [.goal .queriedSubscript, .goal .primary],
   [.goal .queriedCall, .goal .primary],
   [.goal .queriedInstantiation, .goal .primary],
   [.goal .typeQuery, .goal .primary],
   [.goal .overrideModifier, .goal .primary],
   [.goal .decoratorCall, .goal .decorator],
   [.goal .literalType, .goal .pattern],
   [.goal .predefinedType, .goal .pattern],
   [.goal .call, .goal .queriedCall],
   [.goal .call, .goal .importedCall],
   [.goal .construction, .goal .primary],
   [.goal .metaProperty, .goal .primary],
   [.goal .constructSignature, .goal .propertyName],
   [.rank .signed, .goal .primary]]

def orders (d : Dialect) : List (List Standing) :=
  if d.hasTypes then sharedOrders ++ typedOrders else sharedOrders

/-- One side of a comparison: a rank and the goals whose forms have it. -/
structure Contender where
  rank : Option Rank
  goals : List Goal

/-- Whether a row means a contender where it says something. -/
def Standing.means : Standing → Contender → Bool
  | .rank r, c => c.rank == some r
  | .goal g, c => c.goals.contains g

/-- Compares two contenders by a row, given which of them it has named so far: the one that
    it names first is the greater one, if it names both. -/
def compareIn : (seenLeft seenRight : Bool) → List Standing → Contender → Contender → Ordering
  | _, _, [], _, _ => .eq
  | seenLeft, seenRight, s :: row, a, b =>
    if s.means a then
      if seenRight then .lt else compareIn true seenRight row a b
    else if s.means b then
      if seenLeft then .gt else compareIn seenLeft true row a b
    else compareIn seenLeft seenRight row a b

/-- Compares two contenders by the first row that knows both. -/
def compareBy : List (List Standing) → Contender → Contender → Ordering
  | [], _, _ => .eq
  | row :: rows, a, b =>
    match compareIn false false row a b with
    | .eq => compareBy rows a b
    | o => o

end Arabize.Script.Grammar

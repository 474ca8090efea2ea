import Arabize.Script.Grammar.Name

/-! # Expressions and patterns -/

namespace Arabize.Script.Grammar

open Rule

def anyElement : Rule := oneOf [goal .element, goal .selfClosingElement]

/-- The operators between two operands with their ranks. -/
def binaryOperators : List (String × Rank) := [
  ("&&", .logicalAnd), ("||", .logicalOr), (">>", .shift), (">>>", .shift), ("<<", .shift),
  ("&", .bitAnd), ("^", .bitXor), ("|", .bitOr), ("+", .addition), ("-", .addition),
  ("*", .product), ("/", .product), ("%", .product), ("<", .relation), ("<=", .relation),
  ("==", .equality), ("===", .equality), ("!=", .equality), ("!==", .equality),
  (">=", .relation), (">", .relation), ("??", .ternary), ("instanceof", .relation)]

def operatorDefinitions : List Definition := [
  .node .ternary (rightward (ranked .ternary (seq [
    goal .expression, token .questionMark, goal .expression, ":", goal .expression]))),
  .node .binary (oneOf [
    oneOf (binaryOperators.map fun (w, k) =>
      leftward (ranked k (seq [goal .expression, spelled w, goal .expression]))),
    rightward (ranked .power (seq [goal .expression, "**", goal .expression])),
    leftward (ranked .relation (seq [
      oneOf [goal .expression, token .privateName], "in", goal .expression]))]),
  .node .unary (leftward (ranked .unary (seq [
    anyOf ["!", "~", "-", "+", "typeof", "void", "delete"], goal .expression]))),
  .node .update (leftward (oneOf [
    seq [goal .expression, anyOf ["++", "--"]],
    seq [anyOf ["++", "--"], goal .expression]])),
  .node .awaitExpression (ranked .unary (seq ["await", goal .expression])),
  .node .yieldExpression
    (rightward (seq ["yield", oneOf [seq ["*", goal .expression], maybe (goal .expression)]])),
  .node .sequence (rightward (separated (goal .expression) .moreExpressions)),
  .row .moreExpressions (seq [",", goal .expression])]

def accessDefinitions (d : Dialect) : List Definition := [
  .nodeOf .call .call (oneOf [
    ranked .call (seq [
      oneOf [goal .expression, goal .importWord], maybeTyped d (goal .typeArguments),
      goal .arguments]),
    ranked .templateCall (seq [oneOf [goal .primary, goal .construction], goal .template]),
    ranked .member (seq [
      goal .primary, if d.hasTypes then "?." else goal .optionalChain,
      maybeTyped d (goal .typeArguments), goal .arguments])]),
  .node .optionalChain "?.",
  .node .construction (rightward (ranked .construction (oneOf [
    untyped d (seq ["new", oneOf [goal .primary, goal .construction], maybe (goal .arguments)]),
    typed d (seq [
      "new", goal .primary, maybe (goal .typeArguments), maybe (goal .arguments)])]))),
  .node .member (ranked .member (seq [
    oneOf [goal .expression, goal .primary, goal .importWord],
    oneOf [".", goal .optionalChain],
    oneOf [token .privateName, token .memberName]])),
  .node .subscript (rightward (ranked .member (seq [
    oneOf [goal .expression, goal .primary], maybe (goal .optionalChain), "[", expressions,
    "]"]))),
  .node .arguments
    (seq ["(", sparse (oneOf [goal .expression, goal .spread]) .moreElements, ")"]),
  .node .spread (seq ["...", goal .expression]),
  .node .assignment (rightward (ranked .assignment (seq [
    maybe "using", oneOf [goal .parenthesized, target d], "=", goal .expression]))),
  .hidden .augmentedTarget (oneOf [
    goal .member, goal .subscript, softName d, goal .parenthesized, typed d (goal .nonNull)]),
  .node .augmentedAssignment (rightward (ranked .assignment (seq [
    goal .augmentedTarget,
    anyOf ["+=", "-=", "*=", "/=", "%=", "^=", "&=", "|=", ">>=", ">>>=", "<<=", "**=", "&&=",
      "||=", "??="],
    goal .expression]))),
  .hidden .initializer (seq ["=", goal .expression])]

/-- Objects, arrays and the patterns that take them apart. -/
def collectionDefinitions (d : Dialect) : List Definition :=
  let member : Rule := oneOf [goal .pair, goal .spread, goal .method, softName d]
  let memberPattern : Rule :=
    oneOf [goal .pairPattern, goal .restPattern, goal .memberDefault, softName d]
  let elementPattern : Rule := oneOf [goal .pattern, goal .assignmentPattern]
  [.node .object (ranked .object (seq ["\x7b", sparse member .moreMembers, "\x7d"])),
   .row .moreMembers (seq [",", maybe member]),
   .node .objectPattern
     (ranked .object (seq ["\x7b", sparse memberPattern .moreMemberPatterns, "\x7d"])),
   .row .moreMemberPatterns (seq [",", maybe memberPattern]),
   .node .assignmentPattern (seq [goal .pattern, "=", goal .expression]),
   .node .memberDefault
     (seq [oneOf [softName d, goal .destructuring], "=", goal .expression]),
   .node .array
     (seq ["[", sparse (oneOf [goal .expression, goal .spread]) .moreElements, "]"]),
   .row .moreElements (seq [",", maybe (oneOf [goal .expression, goal .spread])]),
   .node .arrayPattern (seq ["[", sparse elementPattern .moreElementPatterns, "]"]),
   .row .moreElementPatterns (seq [",", maybe elementPattern]),
   .node .pair (seq [goal .propertyName, ":", goal .expression]),
   .node .pairPattern (seq [goal .propertyName, ":", elementPattern]),
   .hidden .propertyName (oneOf [
     token .memberName, softWords d, token .privateName, goal .string, token .number,
     goal .computedName]),
   .node .computedName (seq ["[", goal .expression, "]"]),
   .hidden .destructuring (oneOf [goal .objectPattern, goal .arrayPattern]),
   .hidden .pattern (oneOf [target d, goal .restPattern]),
   .node .restPattern (rightward (seq ["...", target d]))]

def literalDefinitions : List Definition := [
  .nodeOf .string .string (oneOf [
    seq ["\"", maybe (goal .doubleQuotedParts), "\""],
    seq ["'", maybe (goal .singleQuotedParts), "'"]]),
  .row .doubleQuotedParts (oneOf [token .doubleQuotedText, token .escape]),
  .row .singleQuotedParts (oneOf [token .singleQuotedText, token .escape]),
  .nodeOf .template .template (seq ["`", maybe (goal .templateParts), "`"]),
  .row .templateParts (oneOf [token .templateText, token .escape, goal .substitution]),
  .node .substitution (seq ["$\x7b", expressions, "\x7d"]),
  .node .regex (seq ["/", token .regexBody, token .regexEnd, maybe (token .regexFlags)])]

def expressionDefinitions (d : Dialect) : List Definition := [
  .node .parenthesized (seq ["(",
    oneOf [seq [goal .expression, maybeTyped d (goal .typeClause)], goal .sequence], ")"]),
  .hidden .expression (oneOf [
    goal .primary, if d.hasElements then anyElement else never, goal .assignment,
    goal .augmentedAssignment, goal .awaitExpression, goal .unary, goal .binary, goal .ternary,
    goal .update, goal .construction, goal .yieldExpression,
    typed d (oneOf [
      goal .asExpression, goal .satisfiesExpression, goal .instantiation, goal .internalModule,
      if d.hasElements then never else goal .typeAssertion])]),
  .hidden .primary (oneOf [
    goal .subscript, goal .member, goal .parenthesized, valueName d, "this", "super",
    token .number, goal .string, goal .template, goal .regex, "true", "false", "null",
    goal .object, goal .array, goal .functionExpression, goal .arrowFunction,
    goal .generatorExpression, goal .classExpression, goal .metaProperty, goal .call,
    typed d (goal .nonNull)]),
  .node .metaProperty (oneOf [seq ["new", ".", "target"], seq ["import", ".", "meta"]])]

end Arabize.Script.Grammar

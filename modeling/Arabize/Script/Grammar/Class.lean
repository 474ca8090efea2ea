import Arabize.Script.Grammar.Name

/-! # Functions, classes and decorators -/

namespace Arabize.Script.Grammar

open Rule

/-- The words in front of a method, its name and its heading, in dialects with types. -/
def methodHeading : Rule := seq [
  maybe (goal .accessModifier), maybe "static", maybe (goal .overrideModifier), maybe "readonly",
  maybe "async", maybe (anyOf ["get", "set", "*"]), goal .propertyName, maybe "?",
  goal .signature]

/-- The words in front of a field, in dialects with types. -/
def fieldWords : Rule := seq [
  maybe (oneOf [
    seq ["declare", maybe (goal .accessModifier)],
    seq [goal .accessModifier, maybe "declare"]]),
  oneOf [
    nothing,
    seq ["static", maybe (goal .overrideModifier), maybe "readonly"],
    seq [goal .overrideModifier, maybe "readonly"],
    "readonly",
    seq ["abstract", maybe "readonly"],
    seq ["readonly", "abstract"],
    "accessor"]]

def functionDefinitions (d : Dialect) : List Definition :=
  let expression (mark : Rule) : Rule := ranked .literal (seq [
    maybe "async", "function", mark, maybe (token .name), heading d, goal .block])
  let declaration (mark : Rule) : Rule := rightward (ranked .declaration (seq [
    maybe "async", "function", mark, token .name, heading d, goal .block,
    maybe (token .lineEnd)]))
  let parameter : Rule :=
    if d.hasTypes then goal .parameter else oneOf [goal .pattern, goal .assignmentPattern]
  [.node .functionExpression (expression nothing),
   .node .functionDeclaration (declaration nothing),
   .node .generatorExpression (expression "*"),
   .node .generatorDeclaration (declaration "*"),
   .node .arrowFunction (seq [
     maybe "async", oneOf [softName d, heading d], "=>",
     oneOf [goal .expression, goal .block]]),
   .node .parameters (seq ["(", maybe (listed parameter .moreParameters), ")"]),
   .row .moreParameters (seq [",", parameter])]

def methodDefinition (d : Dialect) : Definition := .node .method (oneOf [
  untyped d (seq [
    maybe (goal .decorators), maybe (oneOf ["static", token .staticGet]), maybe "async",
    maybe (anyOf ["get", "set", "*"]), goal .propertyName, goal .parameters, goal .block]),
  typed d (leftward (seq [methodHeading, goal .block]))])

def fieldDefinition (d : Dialect) : Definition := .node .field (oneOf [
  untyped d (seq [
    maybe (goal .decorators), maybe "static", goal .propertyName, maybe (goal .initializer)]),
  typed d (seq [
    maybe (goal .decorators), fieldWords, goal .propertyName, maybe (anyOf ["?", "!"]),
    maybe (goal .typeClause), maybe (goal .initializer)])])

/-- One item of the body of a class. -/
def classMember (d : Dialect) : Rule := oneOf [
  untyped d (oneOf [
    seq [goal .method, maybe ";"], seq [goal .field, semicolon], goal .staticBlock, ";"]),
  typed d (oneOf [
    goal .decorator,
    seq [goal .method, maybe semicolon],
    seq [goal .methodSignature, token .signatureEnd],
    goal .staticBlock,
    seq [
      oneOf [goal .abstractMethodSignature, goal .indexSignature, goal .methodSignature,
        goal .field],
      oneOf [semicolon, ","]],
    ";"])]

def classDefinitions (d : Dialect) : List Definition :=
  let parts (name : Rule) : Rule := seq [
    "class", name, maybeTyped d (goal .typeParameters), maybe (goal .classHeritage),
    goal .classBody]
  let sided : Rule → Rule := if d.hasTypes then leftward else id
  [.node .classExpression
     (ranked .literal (seq [maybe (goal .decorators), parts (maybe (token .name))])),
   .node .classDeclaration (sided (ranked .declaration (seq [
     maybe (goal .decorators), parts (token .name), maybe (token .lineEnd)]))),
   .node .classHeritage (oneOf [
     untyped d (seq ["extends", goal .expression]),
     typed d (oneOf [
       seq [goal .extendsClause, maybe (goal .implementsClause)], goal .implementsClause])]),
   .node .classBody (seq ["\x7b", maybe (goal .classMembers), "\x7d"]),
   .row .classMembers (classMember d),
   methodDefinition d,
   fieldDefinition d,
   .node .staticBlock (seq ["static", maybe (token .lineEnd), goal .block])]

def decoratorDefinitions (d : Dialect) : List Definition :=
  let named : Rule := oneOf [token .name, goal .decoratorMember]
  [.row .decorators (goal .decorator),
   .node .decorator (seq ["@", oneOf [
     named, goal .decoratorCall, typed d (goal .decoratorParenthesized)]]),
   .node .decoratorMember (ranked .member (seq [named, ".", token .name])),
   .node .decoratorCall
     (ranked .call (seq [named, maybeTyped d (goal .typeArguments), goal .arguments])),
   .node .decoratorParenthesized (seq ["(", oneOf [named, goal .decoratorCall], ")"])]

end Arabize.Script.Grammar

import Arabize.Script.Grammar.Class

/-! # Types

Types are read and dropped, apart from what stands in them.  A literal that stands for a
type is put under a node that says so, while a string that names a member, or is handed to
an import, is a literal like any other.  The word for the type of strings is a string
itself in the tree.
-/

namespace Arabize.Script.Grammar

open Rule

/-- The parts of a parameter behind its name. -/
def parameterValue : Rule := seq [maybe (goal .typeClause), maybe (goal .initializer)]

def typedDeclarationDefinitions : List Definition := [
  .hidden .parameter (oneOf [goal .requiredParameter, goal .optionalParameter]),
  .node .requiredParameter (seq [goal .parameterName, parameterValue]),
  .node .optionalParameter (seq [goal .parameterName, "?", parameterValue]),
  .hidden .parameterName (seq [
    maybe (goal .decorators), maybe (goal .accessModifier), maybe (goal .overrideModifier),
    maybe "readonly", oneOf [goal .pattern, "this"]]),
  .hidden .signature (seq [
    maybe (goal .typeParameters), goal .parameters,
    maybe (oneOf [goal .typeClause, goal .assertionClause, goal .predicateClause])]),
  .node .functionSignature (seq [
    maybe "async", "function", token .name, goal .signature,
    oneOf [semicolon, token .signatureEnd]]),
  .node .methodSignature methodHeading,
  .node .abstractMethodSignature (seq [
    maybe (goal .accessModifier), "abstract", maybe (goal .overrideModifier),
    maybe (anyOf ["get", "set", "*"]), goal .propertyName, maybe "?", goal .signature]),
  .node .internalModule (seq ["namespace", goal .moduleBody]),
  .node .moduleDeclaration (seq ["module", goal .moduleBody]),
  .hidden .moduleBody (rightward (seq [
    oneOf [goal .string, token .name, goal .dottedName], maybe (goal .block)])),
  .node .importRequire (seq [token .name, "=", "require", "(", goal .string, ")"]),
  .hidden .importName (oneOf [token .name, "type"]),
  .node .extendsClause
    (seq ["extends", separated (goal .extendedClass) .moreExtendedClasses]),
  .hidden .extendedClass
    (ranked .extension (seq [goal .expression, maybe (goal .typeArguments)])),
  .row .moreExtendedClasses (seq [",", goal .extendedClass]),
  .node .implementsClause (seq ["implements", separated (goal .type) .moreTypes]),
  .node .ambientDeclaration (seq ["declare", oneOf [
    goal .declaration,
    seq ["global", goal .block],
    seq ["module", ".", token .name, ":", goal .type, semicolon]]]),
  .node .abstractClassDeclaration (ranked .declaration (seq [
    maybe (goal .decorators), "abstract", "class", token .name, maybe (goal .typeParameters),
    maybe (goal .classHeritage), goal .classBody])),
  .node .importAlias (seq [
    "import", token .name, "=", oneOf [token .name, goal .dottedName], semicolon]),
  .node .interfaceDeclaration (seq [
    "interface", token .name, maybe (goal .typeParameters), maybe (goal .extendedTypes),
    goal .objectType]),
  .node .extendedTypes (seq ["extends", separated
    (oneOf [token .name, goal .nestedTypeName, goal .genericType]) .moreExtendedTypes]),
  .row .moreExtendedTypes
    (seq [",", oneOf [token .name, goal .nestedTypeName, goal .genericType]]),
  .node .enumDeclaration (seq [maybe "const", "enum", token .name, goal .enumBody]),
  .node .enumBody (seq ["\x7b", maybe (listed
    (oneOf [goal .propertyName, goal .enumAssignment]) .moreEnumMembers), "\x7d"]),
  .row .moreEnumMembers (seq [",", oneOf [goal .propertyName, goal .enumAssignment]]),
  .node .enumAssignment (seq [goal .propertyName, goal .initializer]),
  .node .typeAlias (seq [
    "type", token .name, maybe (goal .typeParameters), "=", goal .type, semicolon]),
  .node .accessModifier (anyOf ["public", "private", "protected"]),
  .node .overrideModifier "override"]

def typedExpressionDefinitions : List Definition := [
  .node .nonNull (leftward (ranked .assertion (seq [goal .expression, "!"]))),
  .node .typeAssertion
    (leftward (ranked .assertion (seq [goal .typeArguments, goal .expression]))),
  .node .asExpression (leftward (ranked .ascription (seq [
    goal .expression, "as", oneOf ["const", goal .type]]))),
  .node .satisfiesExpression
    (leftward (ranked .ascription (seq [goal .expression, "satisfies", goal .type]))),
  .node .instantiation
    (ranked .instantiation (seq [goal .expression, goal .typeArguments]))]

def typeClauseDefinitions : List Definition := [
  .node .typeClause (seq [":", oneOf [goal .type, goal .importedMember, goal .importedCall]]),
  .node .omittingTypeClause (seq ["-?:", goal .type]),
  .node .addingTypeClause (seq ["+?:", goal .type]),
  .node .optingTypeClause (seq ["?:", goal .type]),
  .node .importedMember (seq [
    oneOf [goal .importWord, goal .importedMember, goal .importedCall], ".",
    oneOf [token .privateName, token .name]]),
  .node .importedCall
    (seq [oneOf [goal .importWord, goal .importedMember], goal .arguments]),
  .node .assertion
    (seq ["asserts", oneOf [goal .predicate, token .name, "this"]]),
  .node .assertionClause (seq [":", goal .assertion]),
  .node .predicate
    (seq [oneOf [token .name, "this", goal .predefinedType], "is", goal .type]),
  .node .predicateClause (seq [":", goal .predicate])]

/-- The types of values that are asked for. -/
def queryDefinitions : List Definition :=
  let queried : Rule := oneOf [goal .queriedSubscript, goal .queriedMember, goal .queriedCall]
  let called : Rule :=
    oneOf [goal .importWord, token .name, goal .queriedMember, goal .queriedSubscript]
  [.node .queriedMember (seq [
     oneOf [token .name, "this", queried], anyOf [".", "?."],
     oneOf [token .privateName, token .name]]),
   .node .queriedSubscript (seq [
     oneOf [token .name, "this", queried], maybe "?.", "[",
     oneOf [goal .predefinedType, goal .string, token .number], "]"]),
   .node .queriedCall (seq [called, goal .arguments]),
   .node .queriedInstantiation (seq [called, goal .typeArguments]),
   .node .typeQuery (rightward (seq ["typeof", oneOf [
     queried, goal .queriedInstantiation, token .name, "this"]])),
   .node .indexQuery (seq ["keyof", goal .primaryType]),
   .node .lookupType (seq [goal .primaryType, "[", goal .type, "]"])]

/-- Types with words of their own and literals that stand for types. -/
def plainTypeDefinitions : List Definition := [
  .node .predefinedType (oneOf [
    anyOf ["any", "number", "boolean", "symbol", "void", "unknown", "never", "object"],
    seq ["unique", "symbol"]]),
  .nodeOf .predefinedType .string "string",
  .nodeOf .literalType .literalType (oneOf [
    goal .signedNumber, token .number, goal .string,
    anyOf ["true", "false", "null", "undefined"]]),
  .node .signedNumber
    (leftward (ranked .signed (seq [anyOf ["-", "+"], token .number]))),
  .node .existentialType "*",
  .node .maybeType (rightward (seq ["?", goal .primaryType])),
  .node .templateType
    (seq ["$\x7b", oneOf [goal .primaryType, goal .inferType], "\x7d"]),
  .node .templateLiteralType (seq ["`", maybe (goal .templateTypeParts), "`"]),
  .row .templateTypeParts (oneOf [token .templateText, goal .templateType])]

def compoundTypeDefinitions : List Definition := [
  .hidden .type (oneOf [
    goal .primaryType, goal .functionType, goal .readonlyType, goal .constructorType,
    goal .inferType]),
  .hidden .primaryType (oneOf [
    goal .parenthesizedType, goal .predefinedType, token .name, goal .nestedTypeName,
    goal .genericType, goal .objectType, goal .arrayType, goal .tupleType, goal .maybeType,
    goal .typeQuery, goal .indexQuery, "this", goal .existentialType, goal .literalType,
    goal .lookupType, goal .conditionalType, goal .templateLiteralType, goal .intersectionType,
    goal .unionType, "const"]),
  .row .moreTypes (seq [",", goal .type]),
  .node .constructorType (leftward (seq [
    maybe "abstract", "new", maybe (goal .typeParameters), goal .parameters, "=>",
    goal .type])),
  .node .functionType (leftward (seq [
    maybe (goal .typeParameters), goal .parameters, "=>",
    oneOf [goal .type, goal .assertion, goal .predicate]])),
  .node .inferType
    (rightward (seq ["infer", token .name, maybe (seq ["extends", goal .type])])),
  .node .conditionalType (rightward (seq [
    goal .type, "extends", goal .type, "?", goal .type, ":", goal .type])),
  .node .genericType (ranked .call (seq [
    oneOf [token .name, goal .nestedTypeName], goal .typeArguments])),
  .node .nestedTypeName (ranked .member (seq [
    oneOf [token .name, goal .dottedName], ".", token .name])),
  .node .arrayType (seq [goal .primaryType, "[", "]"]),
  .node .readonlyType (seq ["readonly", goal .type]),
  .node .unionType (leftward (seq [maybe (goal .type), "|", goal .type])),
  .node .intersectionType (leftward (seq [maybe (goal .type), "&", goal .type])),
  .node .parenthesizedType (seq ["(", goal .type, ")"]),
  .node .tupleType
    (seq ["[", maybe (separated (goal .tupleMember) .moreTupleMembers), maybe ",", "]"]),
  .row .moreTupleMembers (seq [",", goal .tupleMember]),
  .hidden .tupleMember (oneOf [
    goal .tupleParameter, goal .optionalTupleParameter, goal .optionalType, goal .restType,
    goal .type]),
  .node .tupleParameter
    (seq [oneOf [token .name, goal .restPattern], goal .typeClause]),
  .node .optionalTupleParameter (seq [token .name, "?", goal .typeClause]),
  .node .optionalType (seq [goal .type, "?"]),
  .node .restType (seq ["...", goal .type])]

def objectTypeDefinitions (d : Dialect) : List Definition :=
  let member : Rule := oneOf [
    goal .exportStatement, goal .propertySignature, goal .callSignature,
    goal .constructSignature, goal .indexSignature, goal .methodSignature]
  let separator : Rule := oneOf [",", semicolon]
  [.node .objectType (seq [
     anyOf ["\x7b", "\x7b|"],
     maybe (seq [
       maybe (anyOf [",", ";"]), separated member .moreTypeMembers, maybe separator]),
     anyOf ["\x7d", "|\x7d"]]),
   .row .moreTypeMembers (seq [separator, member]),
   .node .propertySignature (seq [
     maybe (goal .accessModifier), maybe "static", maybe (goal .overrideModifier),
     maybe "readonly", goal .propertyName, maybe "?", maybe (goal .typeClause)]),
   .node .callSignature (goal .signature),
   .node .constructSignature (seq [
     maybe "abstract", "new", maybe (goal .typeParameters), goal .parameters,
     maybe (goal .typeClause)]),
   .node .indexSignature (seq [
     maybe (seq [maybe (anyOf ["-", "+"]), "readonly"]),
     "[", oneOf [seq [softName d, ":", goal .type], goal .mappedClause], "]",
     oneOf [goal .typeClause, goal .omittingTypeClause, goal .addingTypeClause,
       goal .optingTypeClause]]),
   .node .mappedClause
     (seq [token .name, "in", goal .type, maybe (seq ["as", goal .type])])]

/-- Type parameters and the types put in their place. -/
def typeParameterDefinitions : List Definition := [
  .node .typeArguments (seq ["<", listed (goal .type) .moreTypes, ">"]),
  .node .typeParameters (seq ["<", listed (goal .typeParameter) .moreTypeParameters, ">"]),
  .row .moreTypeParameters (seq [",", goal .typeParameter]),
  .node .typeParameter (seq [
    maybe "const", token .name, maybe (goal .constraint), maybe (goal .defaultType)]),
  .node .defaultType (seq ["=", goal .type]),
  .node .constraint (seq [anyOf ["extends", ":"], goal .type])]

def typeDefinitions (d : Dialect) : List Definition :=
  typedDeclarationDefinitions ++ typedExpressionDefinitions ++ typeClauseDefinitions
    ++ queryDefinitions ++ plainTypeDefinitions ++ compoundTypeDefinitions
    ++ objectTypeDefinitions d ++ typeParameterDefinitions

end Arabize.Script.Grammar

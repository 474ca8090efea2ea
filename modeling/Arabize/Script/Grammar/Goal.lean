import Arabize.Script.Grammar.Dialect

/-! # The goals of the grammar

A goal is a part that programs are made of.  What a goal may be made of is said by the
rules, module by module; here the goals are only named, so that the rules can refer to one
another in circles.  A goal whose name begins with `more` is a row of items with a comma in
front of each, and a goal in the plural a row of items without one.
-/

namespace Arabize.Script.Grammar

inductive Goal
  -- Statements.
  | program
  | statements
  | statement
  | declaration
  | expressionStatement
  | variableDeclaration
  | lexicalDeclaration
  | moreDeclarators
  | declarator
  | block
  | ifStatement
  | elseClause
  | switchStatement
  | switchBody
  | switchCases
  | switchCase
  | switchDefault
  | forStatement
  | forInStatement
  | forHeader
  | whileStatement
  | doStatement
  | tryStatement
  | catchClause
  | finallyClause
  | withStatement
  | breakStatement
  | continueStatement
  | debuggerStatement
  | returnStatement
  | throwStatement
  | emptyStatement
  | labeledStatement
  -- Modules.
  | exportStatement
  | namespaceExport
  | exportClause
  | moreExports
  | exportSpecifier
  | moduleExportName
  | importWord
  | importStatement
  | importClause
  | fromClause
  /-- Everything that a module exports, imported under one name. -/
  | namespaceImport
  | namedImports
  | moreImports
  | importSpecifier
  | importAttribute
  -- Expressions.
  | parenthesized
  | expression
  | primary
  | yieldExpression
  | object
  /-- Further members of an object, any of which may be missing. -/
  | moreMembers
  | objectPattern
  | moreMemberPatterns
  | assignmentPattern
  | memberDefault
  | array
  | moreElements
  | arrayPattern
  | moreElementPatterns
  /-- A call, or a template that a function is applied to. -/
  | call
  /-- The mark of an access that is skipped when the object is missing. -/
  | optionalChain
  | construction
  | awaitExpression
  | member
  | subscript
  | assignment
  | augmentedTarget
  | augmentedAssignment
  | initializer
  | destructuring
  | spread
  | ternary
  | binary
  | unary
  | update
  | sequence
  | moreExpressions
  | string
  /-- A row of the parts of a string in double quotes. -/
  | doubleQuotedParts
  /-- A row of the parts of a string in single quotes. -/
  | singleQuotedParts
  | template
  | templateParts
  | substitution
  | regex
  | metaProperty
  | arguments
  | pattern
  | restPattern
  -- Functions and classes.
  | functionExpression
  | functionDeclaration
  | generatorExpression
  | generatorDeclaration
  | arrowFunction
  | parameters
  | moreParameters
  /-- A member of an object or a pattern with a colon. -/
  | pair
  | pairPattern
  | method
  | propertyName
  | computedName
  | classExpression
  | classDeclaration
  | classHeritage
  | classBody
  | classMembers
  | field
  | staticBlock
  | decorators
  | decorator
  | decoratorMember
  | decoratorCall
  | decoratorParenthesized
  -- Elements.
  | element
  | children
  | openingTag
  | closingTag
  | selfClosingElement
  | attributes
  | attribute
  | attributeName
  | attributeString
  /-- A row of the parts of a value in double quotes. -/
  | doubleQuotedValue
  /-- A row of the parts of a value in single quotes. -/
  | singleQuotedValue
  | namespacedName
  | dottedName
  | embedded
  -- Declarations with types.
  | parameter
  | requiredParameter
  | optionalParameter
  | parameterName
  /-- Type parameters, parameters and the type of the result. -/
  | signature
  | functionSignature
  | methodSignature
  | abstractMethodSignature
  | typeAssertion
  | asExpression
  | satisfiesExpression
  | instantiation
  | nonNull
  | internalModule
  | moduleDeclaration
  | moduleBody
  /-- An import of a whole module by a call. -/
  | importRequire
  | importName
  | extendsClause
  | extendedClass
  | moreExtendedClasses
  | implementsClause
  | ambientDeclaration
  | abstractClassDeclaration
  | importAlias
  | interfaceDeclaration
  | extendedTypes
  | moreExtendedTypes
  | enumDeclaration
  | enumBody
  | moreEnumMembers
  | enumAssignment
  | typeAlias
  | accessModifier
  | overrideModifier
  -- Types.
  | typeClause
  | omittingTypeClause
  | addingTypeClause
  /-- The type of a member that may be missing. -/
  | optingTypeClause
  | importedMember
  | importedCall
  /-- That an argument is of a type when the function returns. -/
  | assertion
  | assertionClause
  /-- That an argument is of a type when the function says so. -/
  | predicate
  | predicateClause
  | type
  | moreTypes
  | primaryType
  | tupleParameter
  /-- A named member of a tuple that may be missing. -/
  | optionalTupleParameter
  /-- A member of a tuple that may be missing. -/
  | optionalType
  | restType
  | tupleMember
  | moreTupleMembers
  | constructorType
  | templateType
  | templateLiteralType
  /-- A row of the parts of such a template. -/
  | templateTypeParts
  | inferType
  | conditionalType
  | genericType
  | nestedTypeName
  /-- A member of a value whose type is asked for. -/
  | queriedMember
  /-- A member selected by a literal whose type is asked for. -/
  | queriedSubscript
  | queriedCall
  /-- A value applied to types whose type is asked for. -/
  | queriedInstantiation
  | typeQuery
  | indexQuery
  | lookupType
  /-- What a member of a mapped type ranges over. -/
  | mappedClause
  | literalType
  | signedNumber
  | existentialType
  | maybeType
  | parenthesizedType
  | predefinedType
  | typeArguments
  | objectType
  | moreTypeMembers
  | propertySignature
  | callSignature
  | constructSignature
  | indexSignature
  | typeParameters
  | moreTypeParameters
  | typeParameter
  /-- The type that a type parameter stands for otherwise. -/
  | defaultType
  | constraint
  | arrayType
  | tupleType
  | readonlyType
  | unionType
  | intersectionType
  | functionType
  deriving DecidableEq

end Arabize.Script.Grammar

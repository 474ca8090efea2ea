import Arabize.Script.Grammar.Name

/-! # Statements and modules -/

namespace Arabize.Script.Grammar

open Rule

def statementDefinitions (d : Dialect) : List Definition := [
  .node .program (seq [maybe (token .interpreterLine), maybe (goal .statements)]),
  .row .statements (goal .statement),
  .hidden .statement (oneOf [
    goal .exportStatement, goal .importStatement, goal .debuggerStatement,
    goal .expressionStatement, goal .declaration, goal .block, goal .ifStatement,
    goal .switchStatement, goal .forStatement, goal .forInStatement, goal .whileStatement,
    goal .doStatement, goal .tryStatement, goal .withStatement, goal .breakStatement,
    goal .continueStatement, goal .returnStatement, goal .throwStatement, goal .emptyStatement,
    goal .labeledStatement]),
  .hidden .declaration (oneOf [
    goal .functionDeclaration, goal .generatorDeclaration, goal .classDeclaration,
    goal .lexicalDeclaration, goal .variableDeclaration,
    typed d (oneOf [
      goal .functionSignature, goal .abstractClassDeclaration, goal .moduleDeclaration,
      ranked .declaration (goal .internalModule), goal .typeAlias, goal .enumDeclaration,
      goal .interfaceDeclaration, goal .importAlias, goal .ambientDeclaration])]),
  .node .expressionStatement (seq [expressions, semicolon]),
  .node .variableDeclaration (seq ["var", separated (goal .declarator) .moreDeclarators, semicolon]),
  .node .lexicalDeclaration
    (seq [anyOf ["let", "const"], separated (goal .declarator) .moreDeclarators, semicolon]),
  .row .moreDeclarators (seq [",", goal .declarator]),
  .node .declarator (oneOf [
    seq [binding, maybeTyped d (goal .typeClause), maybe (goal .initializer)],
    typed d (ranked .declaration (seq [token .name, "!", goal .typeClause]))]),
  .node .block (rightward (seq ["\x7b", maybe (goal .statements), "\x7d", maybe (token .lineEnd)])),
  .node .ifStatement
    (rightward (seq ["if", goal .parenthesized, goal .statement, maybe (goal .elseClause)])),
  .node .elseClause (seq ["else", goal .statement]),
  .node .switchStatement (seq ["switch", goal .parenthesized, goal .switchBody]),
  .node .switchBody (seq ["\x7b", maybe (goal .switchCases), "\x7d"]),
  .row .switchCases (oneOf [goal .switchCase, goal .switchDefault]),
  .node .switchCase (seq ["case", expressions, ":", maybe (goal .statements)]),
  .node .switchDefault (seq ["default", ":", maybe (goal .statements)]),
  .node .forStatement (seq [
    "for", "(",
    oneOf [goal .lexicalDeclaration, goal .variableDeclaration, seq [expressions, ";"],
      goal .emptyStatement],
    oneOf [seq [expressions, ";"], goal .emptyStatement],
    maybe expressions, ")", goal .statement]),
  .node .forInStatement (seq ["for", maybe "await", goal .forHeader, goal .statement]),
  .hidden .forHeader (seq [
    "(",
    oneOf [
      target d, goal .parenthesized,
      seq ["var", binding, maybe (goal .initializer)],
      seq [anyOf ["let", "const"], binding, maybe (token .lineEnd)]],
    anyOf ["in", "of"], expressions, ")"]),
  .node .whileStatement (seq ["while", goal .parenthesized, goal .statement]),
  .node .doStatement
    (rightward (seq ["do", goal .statement, "while", goal .parenthesized, maybe semicolon])),
  .node .tryStatement
    (seq ["try", goal .block, maybe (goal .catchClause), maybe (goal .finallyClause)]),
  .node .catchClause (seq [
    "catch", maybe (seq ["(", binding, maybeTyped d (goal .typeClause), ")"]), goal .block]),
  .node .finallyClause (seq ["finally", goal .block]),
  .node .withStatement (seq ["with", goal .parenthesized, goal .statement]),
  .node .breakStatement (seq ["break", maybe (token .name), semicolon]),
  .node .continueStatement (seq ["continue", maybe (token .name), semicolon]),
  .node .debuggerStatement (seq ["debugger", semicolon]),
  .node .returnStatement (seq ["return", maybe expressions, semicolon]),
  .node .throwStatement (seq ["throw", expressions, semicolon]),
  .node .emptyStatement ";",
  .node .labeledStatement (seq [softName d, ":", goal .statement])]

/-- What is imported, where the name of an import is read by `name`. -/
def importedNames (name : Rule) : Rule :=
  let several : Rule := oneOf [goal .namespaceImport, goal .namedImports]
  oneOf [several, seq [name, maybe (seq [",", several])]]

def moduleDefinitions (d : Dialect) : List Definition := [
  .node .exportStatement (oneOf [
    seq ["export",
      oneOf [
        seq [oneOf ["*", goal .namespaceExport, goal .exportClause], goal .fromClause],
        goal .exportClause],
      semicolon],
    seq [maybe (goal .decorators), "export",
      oneOf [
        goal .declaration,
        seq ["default", oneOf [goal .declaration, seq [goal .expression, semicolon]]]]],
    typed d (oneOf [
      seq ["export", "type", goal .exportClause, maybe (goal .fromClause), semicolon],
      seq ["export", "import", goal .importAlias],
      seq ["export", "=", goal .expression, semicolon],
      seq ["export", "as", "namespace", token .name, semicolon]])]),
  .node .namespaceExport (seq ["*", "as", goal .moduleExportName]),
  .node .exportClause
    (seq ["\x7b", maybe (separated (goal .exportSpecifier) .moreExports), maybe ",", "\x7d"]),
  .row .moreExports (seq [",", goal .exportSpecifier]),
  .node .exportSpecifier (seq [
    maybeTyped d (anyOf ["type", "typeof"]), goal .moduleExportName,
    maybe (seq ["as", goal .moduleExportName])]),
  .hidden .moduleExportName (oneOf [token .name, goal .string, untyped d "default"]),
  .node .importWord "import",
  .node .importStatement (seq [
    "import", maybeTyped d (anyOf ["type", "typeof"]),
    oneOf [
      seq [goal .importClause, goal .fromClause], typed d (goal .importRequire), goal .string],
    maybe (goal .importAttribute), semicolon]),
  .node .importClause (importedNames (if d.hasTypes then goal .importName else token .name)),
  .hidden .fromClause (seq ["from", goal .string]),
  .node .namespaceImport (seq ["*", "as", token .name]),
  .node .namedImports
    (seq ["\x7b", maybe (separated (goal .importSpecifier) .moreImports), maybe ",", "\x7d"]),
  .row .moreImports (seq [",", goal .importSpecifier]),
  .node .importSpecifier (oneOf [
    untyped d (oneOf [token .name, seq [goal .moduleExportName, "as", token .name]]),
    typed d (seq [
      maybe (anyOf ["type", "typeof"]),
      oneOf [
        goal .importName,
        seq [oneOf [goal .moduleExportName, "type"], "as", goal .importName]]])]),
  .node .importAttribute (seq ["with", goal .object])]

end Arabize.Script.Grammar

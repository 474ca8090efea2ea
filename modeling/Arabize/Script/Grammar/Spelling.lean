import Arabize.Script.Grammar.Rule

/-! # Terminals in numbers

All dialects number their terminals alike: the end of the program first, then the kinds of
tokens, then the signs and words in the order of the lists below.  A spelling that is in
neither list has the first number that no terminal has.
-/

namespace Arabize.Script.Grammar

def signs : List Text :=
  List.map Text.ofString
    ["!", "!=", "!==", "\"", "$\x7b", "%", "%=", "&", "&&", "&&=", "&=", "'", "(", ")", "*",
      "**", "**=", "*=", "+", "++", "+=", "+?:", ",", "-", "--", "-=", "-?:", ".", "...", "/",
      "/=", "/>", ":", ";", "<", "</", "<<", "<<=", "<=", "=", "==", "===", "=>", ">", ">=", ">>",
      ">>=", ">>>", ">>>=", "?", "?.", "?:", "??", "??=", "@", "[", "]", "^", "^=", "`", "\x7b",
      "\x7b|", "|", "|=", "||", "||=", "|\x7d", "\x7d", "~"]

def words : List Text :=
  List.map Text.ofString
    ["abstract", "accessor", "any", "as", "asserts", "async", "await", "boolean", "break",
     "case", "catch", "class", "const", "continue", "debugger", "declare", "default", "delete",
     "do", "else", "enum", "export", "extends", "false", "finally", "for", "from", "function",
     "get", "global", "if", "implements", "import", "in", "infer", "instanceof", "interface",
     "is", "keyof", "let", "meta", "module", "namespace", "never", "new", "null", "number",
     "object", "of", "override", "private", "protected", "public", "readonly", "require",
     "return", "satisfies", "set", "static", "string", "super", "switch", "symbol", "target",
     "this", "throw", "true", "try", "type", "typeof", "undefined", "unique", "unknown", "using",
     "var", "void", "while", "with", "yield"]

def spellings : List Text := signs ++ words

/-- The kinds of tokens, in the order of their numbers. -/
def lexemes : List Lexeme :=
  [.name, .memberName, .privateName, .number, .doubleQuotedText, .singleQuotedText, .escape,
   .templateText, .regexBody, .regexEnd, .regexFlags, .elementText, .reference, .dashedName,
   .doubleQuotedValue, .singleQuotedValue, .lineEnd, .signatureEnd, .questionMark, .staticGet,
   .interpreterLine]

namespace Terminal

/-- The terminals in the order of their numbers. -/
def all : List Terminal := .finish :: lexemes.map .lexeme ++ spellings.map .spelled

def numbered : List (Terminal × Nat) := all.zipIdx

def count : Nat := 1 + lexemes.length + spellings.length

def number : Terminal → Nat
  | .finish => 0
  | .lexeme l => 1 + l.ctorIdx
  | .spelled s => 1 + lexemes.length + spellings.idxOf s

end Terminal

end Arabize.Script.Grammar

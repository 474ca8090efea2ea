import Arabize.Script.Grammar.Expression

/-! # Elements

Elements stand where an expression may stand.  A closing tag is not compared with the
opening one.  The value of an attribute is a string without escapes, an expression between
braces, or an element.
-/

namespace Arabize.Script.Grammar

open Rule

def tagWord : Rule := oneOf [token .dashedName, token .name]

def elementName : Rule := oneOf [tagWord, goal .dottedName, goal .namespacedName]

/-- The beginning of a tag: the name of the element, the types it is applied to and its
    attributes; a tag may also be empty. -/
def tagStart (d : Dialect) : Rule := seq ["<", maybe (seq [
  oneOf [
    token .dashedName, goal .namespacedName,
    seq [oneOf [token .name, goal .dottedName], maybeTyped d (goal .typeArguments)]],
  maybe (goal .attributes)])]

def elementDefinitions (d : Dialect) : List Definition := [
  .node .element (seq [goal .openingTag, maybe (goal .children), goal .closingTag]),
  .row .children
    (oneOf [token .elementText, token .reference, anyElement, goal .embedded]),
  .node .openingTag (seq [tagStart d, ">"]),
  .node .closingTag (seq ["</", maybe elementName, ">"]),
  .node .selfClosingElement (oneOf [
    untyped d (seq ["<", elementName, maybe (goal .attributes), "/>"]),
    typed d (seq [tagStart d, "/>"])]),
  .row .attributes (oneOf [goal .attribute, goal .embedded]),
  .nodeOf .attribute .attribute (seq [goal .attributeName, maybe (seq ["=", oneOf [
    goal .attributeString, goal .embedded, anyElement]])]),
  .nodeOf .attributeName .name (oneOf [tagWord, goal .namespacedName]),
  .nodeOf .attributeString .string (oneOf [
    seq ["\"", maybe (goal .doubleQuotedValue), "\""],
    seq ["'", maybe (goal .singleQuotedValue), "'"]]),
  .row .doubleQuotedValue (oneOf [token .doubleQuotedValue, token .reference]),
  .row .singleQuotedValue (oneOf [token .singleQuotedValue, token .reference]),
  .hidden .namespacedName (seq [tagWord, ":", tagWord]),
  .node .embedded (seq ["\x7b", maybe (oneOf [expressions, goal .spread]), "\x7d"])]

def dottedNameDefinition : Definition :=
  .node .dottedName (ranked .member (seq [
    oneOf [token .name, goal .dottedName], ".", token .name]))

end Arabize.Script.Grammar

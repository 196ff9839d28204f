import Scenario.Syntax.ExpressionRules
import Scenario.Text.Blank

namespace Scenario.Syntax

open Scenario.Syntax.Parser

/-- Whether a run of text between tags counts: it does not if every character is a line break or a
blank that follows one. -/
def textCounts (afterBreak : Bool) : List Char → Bool
  | [] => false
  | '\n' :: more => textCounts true more
  | c :: more => !(afterBreak && isBreakSpace c) || textCounts afterBreak more

def endsText (c : Char) : Bool := ['<', '>', '\x7b', '\x7d', '&'].contains c

namespace Parser

/-- A name that may have dashes in it. -/
def dashedWord : Parser String := do
  skip
  let cs ← ahead
  let isPlain (c : Char) : Bool := c.isAlphanum || c = '_' || c = '$'
  let first := cs.takeWhile isPlain
  if first ≠ [] && !first.head?.any Char.isDigit && (cs.drop first.length).head? = some '-' then
    return String.ofList (← run fun c => isPlain c || c = '-')
  else word

/-- The name of an element, a name with dots or a name in a namespace. -/
def elementName : Parser String := do
  skip
  let start ← here
  let _ ← dashedWord
  (do
    punct ":"
    let _ ← dashedWord)
  <|> (do
    let _ ← many do
      punct "."
      let _ ← word)
  return String.ofList ((start.upTo (← here)).filter (!Text.isBlank ·))

/-- The name of an attribute as it is written. -/
def attributeName : Parser String := do
  skip
  let start ← here
  let _ ← dashedWord
  let _ ← optional do
    punct ":"
    let _ ← dashedWord
  return String.ofList (start.upTo (← here))

/-- The string of an attribute, which has character references and no escapes. -/
def attributeString : Parser String := do
  match ← ahead with
  | q :: rest =>
    guard (q = '"' || q = '\'')
    match attributeStringLength? q rest with
    | some n =>
      let raw ← taken (n + 2)
      return String.ofList (Text.unescape ((raw.drop 1).take n))
    | none => failure
  | [] => failure

/-- A run of text between tags; it is nothing if it does not count. -/
def textRun : Parser (Option Node) := do
  let cs ← run (!endsText ·)
  guard (cs ≠ [])
  if textCounts false cs then return some (.text (String.ofList cs)) else return none

def referenceText : Parser Node := do
  match ← ahead with
  | '&' :: rest =>
    match referenceLength? rest with
    | some n => return .text (String.ofList (Text.unescape (← taken (n + 1))))
    | none => failure
  | _ => failure

end Parser

namespace Grammar

variable (g : Grammar)

/-- An expression in braces, or nothing in braces. -/
def container : Parser Node := do
  punct "\x7b"
  let line ← line
  let inner ← optional
    ((do return .unsupported "spread_element" [← g.spreadArgument] line) <|> g.expressions .inner)
  punct "\x7d"
  return .container (inner.getD .absent)

def attributeValue : Parser Node := do
  match ← peek with
  | some '\x7b' => g.container
  | some '<' => g.element
  | _ => return .string (← attributeString)

/-- An attribute. Braces without a spread item stand for none. -/
def attributeOrSpread : Parser (Option Node) := do
  if ← seesChar ['\x7b'] then
    match ← g.container with
    | .container (.unsupported "spread_element" [e] _) => return some (.spreadAttribute e)
    | _ => return none
  else
    let name ← attributeName
    let value ← optional do
      punct "="
      g.attributeValue
    return some (.attribute name value)

def child : Parser (Option Node) := do
  match (← ahead).head? with
  | some '<' => return some (← g.element)
  | some '\x7b' => return some (← g.container)
  | some '&' => return some (← referenceText)
  | _ => textRun

/-- What stands between an opening and a closing tag, with the closing tag. -/
def content : Parser (List Node) := do
  let children ← many g.child
  punct "</"
  let _ ← optional elementName
  punct ">"
  return children.filterMap id

def elementRule : Parser Node := do
  let line ← line
  punct "<"
  (do
    punct ">"
    return .fragment (← g.content) line)
  <|> (do
    let name ← elementName
    let _ ← optional g.typeArguments
    let attributes ← many g.attributeOrSpread
    let attributes := attributes.filterMap id
    (do
      punct "/>"
      return .element name attributes [] line)
    <|> (do
      punct ">"
      return .element name attributes (← g.content) line))

end Grammar

end Scenario.Syntax

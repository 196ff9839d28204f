import Scenario.Syntax.TypeRules

namespace Scenario.Syntax

open Scenario.Syntax.Parser

/-- The key of a member, as the different constructs see it. -/
structure Key where
  /-- The key of an object literal's member. -/
  member : Node
  /-- The key as a part of a class or of a pattern. -/
  part : Node
  /-- The key as it is written. -/
  spelling : String
  /-- The text of a key that is a name or a string. -/
  text : Option String

/-- The number that a numeral spells, if it can be read. -/
def numberNode (spelling : String) (line : Nat) : Node :=
  match Numeral.read spelling with
  | .ok n => .number n
  | .error _ => .unsupported "number" [] line

/-- A function's parameters and result as they are written. -/
structure Signature where
  typeParameters : Option Node
  parameters : List Parameter
  line : Nat
  result : Option Node

namespace Signature

def targets (s : Signature) : List Node := s.parameters.map (·.pattern.target)

def wholes (s : Signature) : List Node :=
  s.typeParameters.toList
    ++ .unsupported "formal_parameters" (s.parameters.map (·.whole)) s.line :: s.result.toList

end Signature

namespace Grammar

variable (g : Grammar)

def key : Parser Key := do
  let line ← line
  let place ← here
  (do
    let w ← word
    return { member := .identifier w, part := .identifier w, spelling := w, text := some w })
  <|> (do
    let (s, raw) ← stringLiteral
    return { member := .string s, part := .string s, spelling := .ofList raw, text := some s })
  <|> (do
    let n ← numeral
    let node := numberNode n line
    return { member := node, part := node, spelling := n, text := none })
  <|> (do
    punct "#"
    let w ← word
    return { member := .identifier ("#" ++ w), part := .unsupported "private_property_identifier" [] line,
             spelling := "#" ++ w, text := none })
  <|> (do
    let e ← between "[" "]" (g.expression .inner)
    return { member := e, part := .unsupported "computed_property_name" [e] line,
             spelling := .ofList (place.upTo (← here)), text := none })

def patternWithDefault : Parser Pattern := do
  let line ← line
  let p ← g.pattern
  match ← optional (g.initialiser .inner) with
  | some e => return .initialised p e line
  | none => return p

def restPattern : Parser Pattern := do
  let line ← line
  punct "..."
  return .rest (← g.pattern) line

def memberPattern : Parser Pattern := do
  let line ← line
  g.restPattern
  <|> (do
    let k ← g.key
    punct ":"
    return .pair k.part k.text (← g.patternWithDefault) line)
  <|> (do
    let w ← word
    match ← optional (g.initialiser .inner) with
    | some e => return .shorthandDefault w e line
    | none => return .shorthand w line)

def patternRule : Parser Pattern := do
  let line ← line
  match ← peek with
  | some '\x7b' => return .object (← between "\x7b" "\x7d" (commaHoles g.memberPattern)) line
  | some '[' => return .array (← between "[" "]" (commaHoles g.patternWithDefault)) line
  | some '.' => g.restPattern
  | _ =>
    (do
      let w ← word
      guard (!(← sees (punctBefore "." ['.'] <|> punct "[")))
      if w = "this" then return .this line
      else if w = "undefined" then return .place (.identifier w) w line
      else return .name w)
    <|> (do
      match ← g.expression .place with
      | .member x name computed =>
        let kind := if computed then "subscript_expression" else "member_expression"
        return .place (.member x name computed) kind line
      | _ => failure)

def block : Parser (List Node) := between "\x7b" "\x7d" (many g.statement)

def signature : Parser Signature := do
  let line ← line
  let generic ← optional g.typeParameters
  let place ← Parser.line
  let parameters ← g.parameters
  let result ← optional g.typing
  return { typeParameters := generic.map fun _ => .unsupported "type_parameters" [] line
           parameters, line := place, result }

def functionExpression (line : Nat) : Parser Node := do
  keyword "function"
  let _ ← optional (punct "*")
  let name ← optional word
  let s ← g.signature
  return .function name s.targets (.block (← g.block)) line

/-- The words that may stand before the name of a method. -/
def methodModifiers : List String :=
  ["public", "private", "protected", "static", "override", "readonly", "async", "get", "set"]

/-- A method: its modifiers, its key, its signature and its body. -/
def method : Parser (List Node × Key × Signature × List Node) := do
  let modifiers ← many (modifier methodModifiers)
  let _ ← optional (punct "*")
  let k ← g.key
  let _ ← optional (punct "?")
  let s ← g.signature
  let body ← g.block
  return (modifiers.filterMap id, k, s, body)

def spreadArgument : Parser Node := do
  punct "..."
  g.expression .inner

def objectMember : Parser Node := do
  let line ← line
  (do return .spread (← g.spreadArgument))
  <|> (do
    let (_, k, s, body) ← g.method
    return .property k.member (.function (some k.spelling) s.targets (.block body) line))
  <|> (do
    let k ← g.key
    punct ":"
    return .property k.member (← g.expression .inner))
  <|> (do
    let w ← word
    guard (← seesChar [',', '\x7d'])
    return .property (.identifier w) (.identifier w))

def objectLiteral : Parser Node := do
  return .object (← between "\x7b" "\x7d" (commaHoles g.objectMember))

def item : Parser Node :=
  (do return .spread (← g.spreadArgument)) <|> g.expression .inner

def arrayLiteral : Parser Node := do
  return .array (← between "[" "]" (commaHoles g.item))

def arguments : Parser (List Node) := between "(" ")" (commaHoles g.item)

def wholeArguments : Parser Node := do
  let line ← line
  let items ← between "(" ")" (commaHoles do
    let line ← Parser.line
    (do return .unsupported "spread_element" [← g.spreadArgument] line) <|> g.expression .inner)
  return .unsupported "arguments" items line

/-- Expressions with commas between them; several are one construct. -/
def expressions (context : Context) : Parser Node := do
  let line ← line
  match ← commaSeparated (g.expression context) with
  | [e] => return e
  | es => return .unsupported "sequence_expression" es line

def parenthesized : Parser Node := do
  punct "("
  let e ← g.expressions .inner
  let _ ← optional g.typing
  punct ")"
  return .parenthesized e

end Grammar

end Scenario.Syntax

import Scenario.Syntax.Grammar

namespace Scenario.Syntax

open Scenario.Syntax.Parser

structure Parameter where
  modifiers : List Node
  pattern : Pattern
  isOptional : Bool
  typing : Option Node
  default : Option Node
  line : Nat

namespace Parameter

def whole (p : Parameter) : Node :=
  .unsupported (if p.isOptional then "optional_parameter" else "required_parameter")
    (p.modifiers ++ p.pattern.whole :: (p.typing.toList ++ p.default.toList)) p.line

end Parameter

/-- A word of the given list in front of another name or pattern. Two kinds of words are parts of
the construct they stand in. -/
def Parser.modifier (ks : List String) : Parser (Option Node) := do
  let line ← line
  let w ← oneOf ks
  let named ← sees word
  let other ← seesChar ['\x7b', '[', '"', '\'', '#', '*']
  guard (named || other)
  if ["public", "private", "protected"].contains w then
    return some (.unsupported "accessibility_modifier" [] line)
  else if w = "override" then return some (.unsupported "override_modifier" [] line)
  else return none

namespace Grammar

variable (g : Grammar)

def typeArguments : Parser Unit := do
  punct "<"
  let _ ← commaSeparated g.type
  let _ ← optional (punct ",")
  punct ">"

def typeParameter : Parser Unit := do
  let _ ← optional do
    let _ ← oneOf ["const", "in", "out"]
    guard (← sees word)
  let _ ← word
  let _ ← optional do
    keyword "extends"
    g.type
  let _ ← optional do
    punct "="
    g.type

def typeParameters : Parser Unit := do
  punct "<"
  let _ ← commaSeparated g.typeParameter
  let _ ← optional (punct ",")
  punct ">"

/-- A type that may also be a test of a parameter, as the result of a function. -/
def resultType : Parser Unit :=
  (do
    let _ ← optional (keyword "asserts")
    let _ ← word
    keyword "is"
    g.type)
  <|> (do
    keyword "asserts"
    let _ ← word
    guard (!(← sees (punct "."))))
  <|> g.type

/-- A type behind a colon, as a node without parts. -/
def typing : Parser Node := do
  let line ← line
  punct ":"
  g.resultType
  return .unsupported "type_annotation" [] line

/-- An initial value behind an equals sign. -/
def initialiser (context : Context) : Parser Node := do
  punctBefore "=" ['=', '>']
  g.expression context

def parameter : Parser Parameter := do
  let line ← line
  let modifiers ← many (modifier ["public", "private", "protected", "override", "readonly"])
  let pattern ← g.pattern
  let isOptional := (← optional (punct "?")).isSome
  let typing ← optional g.typing
  let default ← optional (g.initialiser .inner)
  return { modifiers := modifiers.filterMap id, pattern, isOptional, typing, default, line }

def parameters : Parser (List Parameter) := between "(" ")" (commaList g.parameter)

def functionType : Parser Unit := do
  let _ ← optional g.typeParameters
  let _ ← g.parameters
  punct "=>"
  g.resultType

def dottedName : Parser Unit := do
  let _ ← many do
    punctBefore "." ['.']
    let _ ← word

def templateType : Parser Unit := do
  punct "`"
  let piece : Parser Unit := do
    match templateLength? (← ahead) with
    | some n => let _ ← taken n
    | none => failure
  piece
  let _ ← many do
    exactly ['$', '\x7b']
    g.type
    punct "\x7d"
    piece
  exactly ['`']

def tupleElement : Parser Unit := do
  let _ ← optional (punct "...")
  (do
    let _ ← word
    let _ ← optional (punct "?")
    punct ":"
    g.type)
  <|> (do
    g.type
    let _ ← optional (punct "?"))

/-- The name of a property: a word, a string, a numeral, a private name or a computed one. -/
def propertyName : Parser Unit :=
  (do let _ ← word)
  <|> (do let _ ← stringLiteral)
  <|> (do let _ ← numeral)
  <|> (do
    punct "#"
    let _ ← word)
  <|> (do
    let _ ← between "[" "]" (g.expression .inner))

def memberSignature : Parser Unit := do
  let _ ← optional g.typeParameters
  let _ ← g.parameters
  let _ ← optional g.typing

/-- A member in brackets: an index or a mapping over keys. -/
def indexMember : Parser Unit := do
  let _ ← optional (punct "+" <|> punct "-")
  let _ ← optional (keyword "readonly")
  punct "["
  let _ ← word
  (do
    punct ":"
    g.type)
  <|> (do
    keyword "in"
    g.type
    let _ ← optional do
      keyword "as"
      g.type)
  punct "]"
  let _ ← optional (punct "+" <|> punct "-")
  let _ ← optional (punct "?")
  let _ ← optional g.typing

def namedMember : Parser Unit := do
  let _ ← many (modifier ["readonly", "static", "public", "private", "protected", "get", "set",
    "async", "override"])
  g.propertyName
  let _ ← optional (punct "?")
  g.memberSignature <|> (do let _ ← optional g.typing)

def typeMember : Parser Unit :=
  (do
    let _ ← optional (keyword "new")
    g.memberSignature)
  <|> g.indexMember
  <|> g.namedMember

/-- The members of an object type in braces, with commas, semicolons or line breaks between them. -/
def objectType : Parser Unit := do
  punct "\x7b"
  let _ ← optional (punct "," <|> punct ";")
  let _ ← many do
    g.typeMember
    if ← sees (punct "\x7d") then pure ()
    else punct "," <|> semicolon false
  punct "\x7d"

def typeQuery : Parser Unit := do
  keyword "typeof"
  let _ ← word
  let _ ← optional (between "(" ")" (do let _ ← stringLiteral))
  dottedName
  let _ ← optional g.typeArguments

def namedType : Parser Unit := do
  let w ← word
  if w = "import" then
    let _ ← between "(" ")" stringLiteral
  dottedName
  if ← onSameLine then
    let _ ← optional g.typeArguments

/-- A type in parentheses, or the type of a function whose parameters stand in them. -/
def groupType : Parser Unit := do
  let start ← here
  match between "(" ")" g.type start with
  | some (_, stop) =>
    set stop
    if ← sees (punct "=>") then
      set start
      g.functionType <|> set stop
  | none => g.functionType

def primaryType : Parser Unit := do
  match ← peek with
  | some '(' => g.groupType
  | some '<' => g.functionType
  | some '\x7b' => g.objectType
  | some '[' => between "[" "]" (do let _ ← commaList g.tupleElement)
  | some '`' => g.templateType
  | some '-' => do
    punct "-"
    let _ ← numeral
  | some '?' => do
    punct "?"
    g.type
  | _ =>
    (do let _ ← stringLiteral)
    <|> (do let _ ← numeral)
    <|> (do
      let _ ← optional (keyword "abstract")
      keyword "new"
      g.functionType)
    <|> g.typeQuery
    <|> (do
      let _ ← oneOf ["keyof", "unique", "readonly", "infer"]
      guard (← onSameLine)
      g.type)
    <|> g.namedType

/-- A type with its array and index suffixes, which stand on the same line. -/
def operandType : Parser Unit := do
  g.primaryType
  let _ ← many do
    guard (← onSameLine)
    punct "["
    let _ ← optional g.type
    punct "]"

def unionMark : Parser Unit := punctBefore "|" ['|', '=', '\x7d'] <|> punctBefore "&" ['&', '=']

def unionType : Parser Unit := do
  let _ ← optional unionMark
  g.operandType
  let _ ← many do
    unionMark
    g.operandType

/-- Any type: a union, or a choice between two types by a third. -/
def typeRule : Parser Unit := do
  g.unionType
  let _ ← optional do
    guard (← onSameLine)
    keyword "extends"
    g.unionType
    punct "?"
    g.type
    punct ":"
    g.type

end Grammar

end Scenario.Syntax

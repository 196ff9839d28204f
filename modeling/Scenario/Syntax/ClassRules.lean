import Scenario.Syntax.FunctionRules

namespace Scenario.Syntax

open Scenario.Syntax.Parser

namespace Grammar

variable (g : Grammar)

/-- A type with its parts, as far as it is a name with arguments. -/
def heritageType : Parser Node := do
  let line ← line
  (do
    let _ ← word
    guard (!(← sees (punct ".")))
    let place ← Parser.line
    match ← optional g.typeArguments with
    | some _ =>
      return .unsupported "generic_type"
        [.unsupported "type_identifier" [] line, .unsupported "type_arguments" [] place] line
    | none => return .unsupported "type_identifier" [] line)
  <|> (do
    g.type
    return .unsupported "nested_type_identifier" [] line)

def extendsClause : Parser Node := do
  let line ← line
  keyword "extends"
  let parents ← commaSeparated do
    let parent ← g.expression .heritage
    let place ← Parser.line
    let arguments ← optional g.typeArguments
    return parent :: (arguments.map fun _ => Node.unsupported "type_arguments" [] place).toList
  return .unsupported "extends_clause" parents.flatten line

def implementsClause : Parser Node := do
  let line ← line
  keyword "implements"
  return .unsupported "implements_clause" (← commaSeparated g.heritageType) line

def heritage : Parser (Option Node) := do
  let line ← line
  let parents ← optional g.extendsClause
  let interfaces ← optional g.implementsClause
  match parents.toList ++ interfaces.toList with
  | [] => return none
  | clauses => return some (.unsupported "class_heritage" clauses line)

def staticBlock : Parser Node := do
  let line ← line
  keyword "static"
  return .unsupported "class_static_block" [.block (← g.block)] line

/-- The words that may stand before the name of a field. -/
def fieldModifiers : List String :=
  ["public", "private", "protected", "static", "override", "readonly", "declare", "abstract",
   "accessor", "async", "get", "set"]

def methodMember : Parser Node := do
  let line ← line
  let (modifiers, k, s, body) ← g.method
  let _ ← optional (punct ";")
  return .unsupported "method_definition" (modifiers ++ k.part :: s.wholes ++ [.block body]) line

def methodSignature : Parser Node := do
  let line ← line
  let modifiers ← many (modifier fieldModifiers)
  let k ← g.key
  let _ ← optional (punct "?")
  let s ← g.signature
  punct "," <|> semicolon false
  return .unsupported "method_signature" (modifiers.filterMap id ++ k.part :: s.wholes) line

def indexSignature : Parser Node := do
  let line ← line
  g.indexMember
  punct "," <|> semicolon false
  return .unsupported "index_signature" [] line

def field : Parser Node := do
  let line ← line
  let modifiers ← many (modifier fieldModifiers)
  let k ← g.key
  let _ ← optional (punct "?" <|> punctBefore "!" ['='])
  let typing ← optional g.typing
  let value ← optional (g.initialiser .final)
  punct "," <|> semicolon value.isSome
  return .unsupported "public_field_definition"
    (modifiers.filterMap id ++ k.part :: (typing.toList ++ value.toList)) line

def classMember : Parser (Option Node) :=
  (do
    punct ";"
    return none)
  <|> (some <$> (g.methodMember <|> g.staticBlock <|> g.methodSignature <|> g.indexSignature
    <|> g.field))

def classBody : Parser Node := do
  let line ← line
  let members ← between "\x7b" "\x7d" (many g.classMember)
  return .unsupported "class_body" (members.filterMap id) line

/-- The parts of a class behind `class`, with or without a name. -/
def classParts (named : Bool) : Parser (List Node) := do
  let line ← line
  let name ← optional do
    let w ← word
    guard (!(["extends", "implements"].contains w))
  guard (!named || name.isSome)
  let place ← Parser.line
  let generic ← optional g.typeParameters
  let parents ← g.heritage
  let body ← g.classBody
  return (name.map fun _ => Node.unsupported "type_identifier" [] line).toList
    ++ (generic.map fun _ => Node.unsupported "type_parameters" [] place).toList
    ++ parents.toList ++ [body]

def classExpression (line : Nat) : Parser Node := do
  keyword "class"
  return .unsupported "class" (← g.classParts false) line

end Grammar

end Scenario.Syntax

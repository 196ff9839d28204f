import Scenario.Syntax.Node

namespace Scenario.Syntax.Node

/-- The expression inside parentheses, type assertions and `{}` containers. -/
def unwrap : Node → Node
  | .parenthesized e => e.unwrap
  | .assertion e => e.unwrap
  | .container e => e.unwrap
  | n => n

theorem sizeOf_unwrap_le (n : Node) : sizeOf n.unwrap ≤ sizeOf n := by
  fun_induction unwrap n <;> simp <;> omega

/-- The name behind the dot of a member access. -/
def propertyName? : Node → Option String
  | .member _ (.identifier name) false => some name
  | _ => none

/-- The text of a string literal or of a template without substitutions. -/
def staticString? (n : Node) : Option String :=
  match n.unwrap with
  | .string s => some s
  | .template quasis [] => some (String.join quasis)
  | _ => none

/-- The names that a pattern takes: an identifier, or the keys of a destructuring. -/
def patternNames : Node → List String
  | .identifier name => [name]
  | .objectPattern keys => keys
  | _ => []

/-- The last attribute of a name, which is the one that counts. -/
def attribute? (attributes : List Node) (name : String) : Option Node :=
  attributes.reverse.find? fun
    | .attribute n _ => n == name
    | _ => false

/-- The parameters and the body of a function of any form. -/
def function? : Node → Option (List Node × Node)
  | .arrow params body _ => some (params, body)
  | .function _ params body _ => some (params, body)
  | .functionDeclaration _ params body _ => some (params, body)
  | _ => none

def isFunctionExpression : Node → Bool
  | .arrow .. | .function .. => true
  | _ => false

def kindName : Node → String
  | .absent => "NoneType"
  | .string _ => "StringLiteral"
  | .number _ => "NumericLiteral"
  | .boolean _ => "BooleanLiteral"
  | .null => "NullLiteral"
  | .identifier _ => "Identifier"
  | .template .. => "TemplateLiteral"
  | .property .. => "Property"
  | .spread _ => "SpreadElement"
  | .object _ => "ObjectExpression"
  | .array _ => "ArrayExpression"
  | .parenthesized _ => "ParenthesizedExpression"
  | .assertion _ => "TypeAssertion"
  | .member .. => "MemberExpression"
  | .call .. => "CallExpression"
  | .unary .. => "UnaryExpression"
  | .binary .. => "BinaryExpression"
  | .await _ => "AwaitExpression"
  | .objectPattern _ => "ObjectPattern"
  | .arrow .. => "ArrowFunction"
  | .function .. => "FunctionExpression"
  | .attribute .. => "JSXAttribute"
  | .spreadAttribute _ => "JSXSpreadAttribute"
  | .container _ => "JSXExpressionContainer"
  | .text _ => "JSXText"
  | .element .. => "JSXElement"
  | .fragment .. => "JSXFragment"
  | .block _ => "BlockStatement"
  | .expressionStatement _ => "ExpressionStatement"
  | .returnStatement _ => "ReturnStatement"
  | .ifStatement .. => "IfStatement"
  | .switchCase .. => "SwitchCase"
  | .switchStatement .. => "SwitchStatement"
  | .breakStatement => "BreakStatement"
  | .declarator .. => "VariableDeclarator"
  | .variableDeclaration .. => "VariableDeclaration"
  | .functionDeclaration .. => "FunctionDeclaration"
  | .exportSpecifier .. => "ExportSpecifier"
  | .exportNamed .. => "ExportNamedDeclaration"
  | .exportDefault _ => "ExportDefaultDeclaration"
  | .importDeclaration _ => "ImportDeclaration"
  | .unsupported .. => "Unsupported"
  | .program _ => "Program"

/-- The tags and the calls of a tree, depth first: an element gives its name and a call `()`, each
before what is inside it. -/
def outline (n : Node) : List String :=
  let inner := n.children.attach.flatMap fun ⟨c, _⟩ => c.outline
  match n with
  | .element name .. => name :: inner
  | .call .. => "()" :: inner
  | _ => inner
termination_by sizeOf n
decreasing_by exact sizeOf_lt_of_mem_children ‹_›

end Scenario.Syntax.Node

import Scenario.Number

namespace Scenario.Syntax

inductive Node where
  /-- Nothing: a hole in a list, or the inside of `{}`. It is no part of the node that holds it. -/
  | absent
  | string (value : String)
  | number (value : Number)
  | boolean (value : Bool)
  | null
  | identifier (name : String)
  /-- The text pieces stand around the expressions. -/
  | template (quasis : List String) (expressions : List Node)
  | property (key value : Node)
  | spread (argument : Node)
  | object (properties : List Node)
  | array (elements : List Node)
  | parenthesized (expression : Node)
  /-- `x as T`, `x satisfies T` and `x!`. -/
  | assertion (expression : Node)
  | member (object property : Node) (computed : Bool)
  | call (callee : Node) (arguments : List Node) (line : Nat)
  | unary (operator : String) (argument : Node)
  | binary (operator : String) (left right : Node)
  | await (argument : Node)
  /-- A destructuring pattern, by the keys that it takes from the source object. -/
  | objectPattern (keys : List String)
  | arrow (params : List Node) (body : Node) (line : Nat)
  | function (name : Option String) (params : List Node) (body : Node) (line : Nat)
  | attribute (name : String) (value : Option Node)
  | spreadAttribute (argument : Node)
  | container (expression : Node)
  | text (value : String)
  | element (name : String) (attributes children : List Node) (line : Nat)
  | fragment (children : List Node) (line : Nat)
  | block (body : List Node)
  | expressionStatement (expression : Node)
  | returnStatement (argument : Option Node)
  | ifStatement (test consequent : Node) (alternate : Option Node)
  /-- A clause of a switch; without a test it is the default. -/
  | switchCase (test : Option Node) (body : List Node)
  | switchStatement (discriminant : Node) (cases : List Node)
  | breakStatement
  | declarator (target : Node) (init : Option Node)
  | variableDeclaration (kind : String) (declarations : List Node)
  | functionDeclaration (name : String) (params : List Node) (body : Node) (line : Nat)
  | exportSpecifier (localName exported : String)
  | exportNamed (declaration : Option Node) (specifiers : List Node)
  | exportDefault (declaration : Node)
  | importDeclaration (source : String)
  | unsupported (kind : String) (parts : List Node) (line : Nat)
  | program (body : List Node)
  deriving Inhabited, Repr

namespace Node

def isAbsent : Node → Bool
  | .absent => true
  | _ => false

/-- The nodes that stand directly in a node's fields, in the order of the fields. -/
def fields : Node → List Node
  | .template _ expressions => expressions
  | .property key value => [key, value]
  | .spread argument => [argument]
  | .object properties => properties
  | .array elements => elements
  | .parenthesized expression => [expression]
  | .assertion expression => [expression]
  | .member base name _ => [base, name]
  | .call callee arguments _ => callee :: arguments
  | .unary _ argument => [argument]
  | .binary _ left right => [left, right]
  | .await argument => [argument]
  | .arrow params body _ => params ++ [body]
  | .function _ params body _ => params ++ [body]
  | .attribute _ value => value.toList
  | .spreadAttribute argument => [argument]
  | .container expression => [expression]
  | .element _ attributes children _ => attributes ++ children
  | .fragment children _ => children
  | .block body => body
  | .expressionStatement expression => [expression]
  | .returnStatement argument => argument.toList
  | .ifStatement test consequent alternate => test :: consequent :: alternate.toList
  | .switchCase test body => test.toList ++ body
  | .switchStatement discriminant cases => discriminant :: cases
  | .declarator target init => target :: init.toList
  | .variableDeclaration _ declarations => declarations
  | .functionDeclaration _ params body _ => params ++ [body]
  | .exportNamed declaration specifiers => declaration.toList ++ specifiers
  | .exportDefault declaration => [declaration]
  | .unsupported _ parts _ => parts
  | .program body => body
  | .absent | .string _ | .number _ | .boolean _ | .null | .identifier _ | .objectPattern _
  | .text _ | .breakStatement | .exportSpecifier .. | .importDeclaration _ => []

/-- The parts of a node, in the order of its fields. -/
def children (n : Node) : List Node := n.fields.filter (!·.isAbsent)

theorem sizeOf_lt_of_mem_fields {n c : Node} (h : c ∈ n.fields) : sizeOf c < sizeOf n := by
  cases n <;> simp [fields] at h <;>
    (try (refine Or.elim h ?_ ?_ <;> clear h <;> intro h)) <;>
    (try (refine Or.elim h ?_ ?_ <;> clear h <;> intro h)) <;>
    first
    | (subst h; simp <;> omega)
    | (have hlt := List.sizeOf_lt_of_mem h; simp; omega)

theorem sizeOf_lt_of_mem_children {n c : Node} (h : c ∈ n.children) : sizeOf c < sizeOf n :=
  sizeOf_lt_of_mem_fields (List.mem_filter.1 h).1

end Node

end Scenario.Syntax

import Scenario.Syntax.ClassRules
import Scenario.Syntax.Operators

namespace Scenario.Syntax

open Scenario.Syntax.Parser

/-- The operators and assignment marks, a longer one before its beginnings. -/
def operatorTokens : List String :=
  [">>>=", "===", "!==", "**=", "<<=", ">>=", ">>>", "&&=", "||=", "??=", "=>", "==", "!=", "<=",
   ">=", "&&", "||", "??", "**", "<<", ">>", "+=", "-=", "*=", "/=", "%=", "&=", "|=", "^=", "++",
   "--", "=", "<", ">", "&", "|", "^", "+", "-", "*", "/", "%"]

def assignmentKind? (token : String) : Option String :=
  if token = "=" then some "assignment_expression"
  else if token ≠ "=>" ∧ token.endsWith "=" ∧ (level? token).isNone then
    some "augmented_assignment_expression"
  else none

/-- What an assignment may stand behind. -/
def isPlace : Node → Bool
  | .identifier name => name != "undefined"
  | .member .. | .parenthesized _ | .assertion _ => true
  | _ => false

def isLabeled : Node → Bool
  | .unsupported kind .. => kind == "labeled_statement"
  | _ => false

namespace Parser

/-- The longest operator or assignment mark. -/
def operatorToken : Parser String := do
  skip
  let cs ← ahead
  match operatorTokens.find? fun t => t.toList.isPrefixOf cs with
  | some t =>
    exactly t.toList
    return t
  | none => failure

def binaryOperator : Parser String :=
  (do
    let t ← operatorToken
    guard (level? t).isSome
    return t)
  <|> oneOf ["in", "instanceof"]

/-- The mark between a test and the two expressions that it chooses from. It is no part of another
mark, and something has to follow it. -/
def questionMark : Parser Unit := do
  punct "?"
  let cs ← ahead
  guard (cs.head? ≠ some '?' && cs.head? ≠ some '.')
  match cs.dropWhile isBreakSpace with
  | '.' :: c :: _ => guard c.isDigit
  | c :: _ => guard (!(['.', ':', ')', ','].contains c))
  | [] => pure ()

def templatePiece : Parser String := do
  match templateLength? (← ahead) with
  | some n => return String.ofList (decodeBody (← taken n))
  | none => failure

end Parser

namespace Grammar

variable (g : Grammar)

def template : Parser Node := do
  punct "`"
  let first ← templatePiece
  let more ← many do
    exactly ['$', '\x7b']
    let e ← g.expressions .inner
    punct "\x7d"
    return (e, ← templatePiece)
  exactly ['`']
  return .template (first :: more.map (·.2)) (more.map (·.1))

/-- A block, or what `other` reads there if there is no block. Braces that start with a label are
rather read by `other`. -/
def blockOr (other : Parser Node) : Parser Node := do
  let start ← here
  match g.block start with
  | some (body, stop) =>
    let block : Parser Node := do
      set stop
      return .block body
    if body.head?.any isLabeled then other <|> block else block
  | none => other

def functionBody (context : Context) : Parser Node := do
  if ← seesChar ['\x7b'] then g.blockOr (g.expression context) else g.expression context

def arrowParameters (context : Context) : Parser (List Node) :=
  (do
    let w ← word
    return [.identifier w])
  <|> (do
    let _ ← optional g.typeParameters
    let parameters ← g.parameters
    if context.resultType then
      let _ ← optional g.typing
    return parameters.map (·.pattern.target))

/-- The beginning of an arrow function, up to its body. -/
def arrowHead (context : Context) : Parser (List Node) := do
  let plain : Parser (List Node) := do
    let parameters ← g.arrowParameters context
    punct "=>"
    return parameters
  (do
    keyword "async"
    plain)
  <|> plain

/-- An arrow function, or what `other` reads if there is none. -/
def arrowOr (context : Context) (other : Parser Node) : Parser Node := do
  let line ← line
  match ← optional (g.arrowHead context) with
  | some parameters => return .arrow parameters (← g.functionBody context) line
  | none => other

/-- An expression in parentheses, or the arrow function whose parameters stand in them. What follows
the parentheses tells whether it can be a function, so that most of them are read once. Parameters do
not start with a parenthesis. -/
def groupOrArrow (context : Context) : Parser Node := do
  let start ← here
  match g.parenthesized start with
  | some (e, stop) =>
    let group : Parser Node := do
      set stop
      return e
    set stop
    if ← sees (punct "=>" <|> punct ":") then
      set start
      g.arrowOr context group
    else return e
  | none =>
    guard (!(← sees (punct "(" *> punct "(")))
    g.arrowOr context failure

/-- An object or an array, or the pattern of an assignment that looks like one. -/
def literalOrPattern (context : Context) (literal : Parser Node) : Parser Node :=
  (do
    let e ← literal
    guard (!(← sees (punctBefore "=" ['=', '>'])))
    return e)
  <|> (do
    let line ← line
    let p ← g.pattern
    return .unsupported "assignment_expression" [p.whole, ← g.initialiser context] line)

def memberName : Parser String :=
  (do
    punct "#"
    return "#" ++ (← word))
  <|> word

def dotMember (x : Node) : Parser Node := do
  punctBefore "." ['.']
  return .member x (.identifier (← memberName)) false

def indexed (x : Node) : Parser Node := do
  return .member x (← between "[" "]" (g.expressions .inner)) true

/-- What `new` makes, behind the word. -/
def construction (line : Nat) : Parser Node :=
  (do
    punct "."
    keyword "target"
    return .unsupported "meta_property" [] line)
  <|> (do
    let maker ← g.expression .place
    let place ← Parser.line
    let generic ← optional g.typeArguments
    let arguments ← optional g.wholeArguments
    return .unsupported "new_expression"
      (maker :: (generic.map fun _ => Node.unsupported "type_arguments" [] place).toList
        ++ arguments.toList) line)

def yielded (context : Context) (line : Nat) : Parser Node := do
  let argument ←
    (do
      punct "*"
      return [← g.expression context])
    <|> (do
      guard (← goesOn context)
      return [← g.expression context])
    <|> pure []
  return .unsupported "yield_expression" argument line

/-- A named group of statements behind its word. -/
def moduleParts : Parser (List Node) := do
  let name ←
    (do
      let (s, _) ← stringLiteral
      return Node.string s)
    <|> (do
      let w ← word
      dottedName
      return Node.identifier w)
  return [name, .block (← g.block)]

/-- An operand that starts with a word. -/
def wordOperand (context : Context) : Parser Node := do
  let line ← line
  (do
    let _ ← optional (keyword "async")
    g.functionExpression line)
  <|> g.classExpression line
  <|> (do
    keyword "namespace"
    return .unsupported "internal_module" (← g.moduleParts) line)
  <|> (do
    match ← word with
    | "true" => return .boolean true
    | "false" => return .boolean false
    | "null" => return .null
    | "this" => return .unsupported "this" [] line
    | "super" => return .unsupported "super" [] line
    | "new" => g.construction line
    | "yield" => g.yielded context line
    | "import" =>
      (do
        punct "."
        keyword "meta"
        return .unsupported "meta_property" [] line)
      <|> (do
        guard (← seesChar ['('])
        return .unsupported "import" [] line)
    | "function" | "class" => failure
    | w => return .identifier w)

/-- An operand without what follows it. -/
def primary (context : Context) : Parser Node := do
  let line ← line
  match ← peek with
  | some '(' => g.groupOrArrow context
  | some '[' => g.literalOrPattern context g.arrayLiteral
  | some '\x7b' => g.literalOrPattern context g.objectLiteral
  | some '<' => g.arrowOr context g.element
  | some '`' => g.template
  | some '"' | some '\'' => return .string (← stringLiteral).1
  | some '/' =>
    regex
    return .unsupported "regex" [] line
  | some '#' =>
    let _ ← memberName
    return .unsupported "private_property_identifier" [] line
  | some c =>
    if c.isDigit || c = '.' then return numberNode (← numeral) line
    else g.arrowOr context (g.wordOperand context)
  | none => failure

def memberOf (x : Node) : Parser Node :=
  dotMember x <|> g.indexed x

def callOf (x : Operand) : Parser Node := do
  let _ ← optional g.typeArguments
  return .call x.node (← g.arguments) x.line

def optionalChain (x : Operand) : Parser Node := do
  punct "?."
  guard (!(← ahead).head?.any Char.isDigit)
  g.indexed x.node <|> g.callOf x
    <|> (do return .member x.node (.identifier (← memberName)) false)

/-- Type arguments behind an operand that is not called. -/
def instantiated (x : Operand) : Parser Node := do
  let line ← line
  g.typeArguments
  let next ← peek
  guard (next.all [')', ']', ',', ';', ':', '\x7d'].contains)
  return .unsupported "instantiation_expression" [x.node, .unsupported "type_arguments" [] line] x.line

/-- What may follow an operand and be one with it. -/
def suffix (x : Operand) : Parser Operand := do
  let node ←
    g.memberOf x.node <|> g.optionalChain x <|> g.callOf x
    <|> (do return .unsupported "call_expression" [x.node, ← g.template] x.line)
    <|> g.instantiated x
    <|> (do
      punct "++" <|> punct "--"
      return .unsupported "update_expression" [x.node] x.line)
  return ⟨node, x.line⟩

def prefixOperator : Parser Pending := do
  let line ← line
  (do
    punct "++" <|> punct "--"
    return .update line)
  <|> (do
    punct "!"
    return .unary "!" line)
  <|> (do
    punct "~"
    return .unary "~" line)
  <|> (do
    punct "-"
    return .unary "-" line)
  <|> (do
    punct "+"
    return .unary "+" line)
  <|> (do
    keyword "await"
    return .await line)
  <|> (do return .unary (← oneOf ["typeof", "void", "delete"]) line)

def assigned (context : Context) (x : Operand) : Parser Operand := do
  guard (isPlace x.node)
  match assignmentKind? (← operatorToken) with
  | some kind => return ⟨.unsupported kind [x.node, ← g.expression context] x.line, x.line⟩
  | none => failure

/-- A type assertion behind an operand. -/
def assertionMark : Parser Unit :=
  punctBefore "!" ['=']
  <|> (do
    let _ ← oneOf ["as", "satisfies"]
    g.type)

/-- Reads the next operand or operator of an expression. -/
def extend (context : Context) (u : Unfinished) : Parser Unfinished := do
  match u.operand with
  | none =>
    (do return { u with pending := (← prefixOperator) :: u.pending })
    <|> (do
      let line ← line
      return { u with operand := some ⟨← g.primary context, line⟩ })
  | some x =>
    guard (← goesOn context)
    (do return { u with operand := some (← g.suffix x) })
    <|> (do return { u with operand := some (← g.assigned context x) })
    <|> (do
      g.assertionMark
      return u.assert x)
    <|> (do return u.push x (← binaryOperator))

def choice (context : Context) (test : Operand) : Parser Node := do
  guard (← goesOn context)
  questionMark
  let consequence (resultType : Bool) : Parser Node := do
    let e ← g.expression { ends := false, resultType }
    punct ":"
    return e
  let first ← consequence true <|> consequence false
  return .unsupported "ternary_expression" [test.node, first, ← g.expression context] test.line

/-- A chain that starts with an operand. -/
def chain (link : Operand → Parser Node) : Parser Node := do
  let line ← line
  let first ← g.primary .inner
  let last ← iterate (fun x => do return ⟨← link x, line⟩) (⟨first, line⟩ : Operand)
  return last.node

def expressionRule (context : Context) : Parser Node := do
  match context.reach with
  | .members => g.chain fun x => g.memberOf x.node
  | .calls => g.chain fun x => g.memberOf x.node <|> g.callOf x
  | .whole =>
    let u ← iterate (g.extend context) .start
    match u.finish with
    | some x => g.choice context x <|> pure x.node
    | none => failure

end Grammar

end Scenario.Syntax

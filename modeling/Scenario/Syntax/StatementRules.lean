import Scenario.Syntax.MarkupRules

namespace Scenario.Syntax

open Scenario.Syntax.Parser

namespace Parser

def nextWord : Parser (Option String) := fun c =>
  match word c with
  | some (w, _) => some (some w, c)
  | none => some (none, c)

end Parser

namespace Grammar

variable (g : Grammar)

def expressionStatement : Parser Node := do
  let e ← g.expressions .final
  semicolon true
  return .expressionStatement e

def emptyStatement : Parser Node := do
  let line ← line
  punct ";"
  return .unsupported "empty_statement" [] line

def declarator (context : Context) : Parser Node :=
  (do
    let w ← word
    punctBefore "!" ['=']
    let _ ← g.typing
    return .declarator (.identifier w) none)
  <|> (do
    let p ← g.pattern
    let _ ← optional g.typing
    return .declarator p.target (← optional (g.initialiser context)))

def hasInitialiser : Node → Bool
  | .declarator _ init => init.isSome
  | _ => false

def declarators (context : Context) : Parser (String × List Node) := do
  let kind ← oneOf ["const", "let", "var"]
  return (kind, ← commaSeparated (g.declarator context))

def variableDeclaration : Parser Node := do
  let (kind, declarations) ← g.declarators .final
  semicolon (declarations.getLast?.any hasInitialiser)
  return .variableDeclaration kind declarations

/-- A function with a name. Without a body it is only a signature. -/
def functionDeclaration : Parser Node := do
  let line ← line
  let _ ← optional (keyword "async")
  keyword "function"
  let _ ← optional (punct "*")
  let name ← word
  let s ← g.signature
  if ← seesChar ['\x7b'] then
    return .functionDeclaration name s.targets (.block (← g.block)) line
  else
    semicolon false
    return .unsupported "function_signature" (.identifier name :: s.wholes) line

def classDeclaration : Parser Node := do
  let line ← line
  keyword "class"
  return .unsupported "class_declaration" (← g.classParts true) line

def abstractClass : Parser Unit := do
  keyword "abstract"
  keyword "class"
  let _ ← g.classParts true

def interfaceDeclaration : Parser Unit := do
  keyword "interface"
  let _ ← word
  let _ ← optional g.typeParameters
  let _ ← optional do
    keyword "extends"
    let _ ← commaSeparated g.type
  g.objectType

def typeAlias : Parser Unit := do
  keyword "type"
  let _ ← word
  let _ ← optional g.typeParameters
  punct "="
  g.type
  semicolon false

def enumDeclaration : Parser Unit := do
  let _ ← optional (keyword "const")
  keyword "enum"
  let _ ← word
  let _ ← between "\x7b" "\x7d" (commaList do
    g.propertyName
    let _ ← optional (g.initialiser .inner))

def moduleDeclaration : Parser Node := do
  let line ← line
  keyword "module"
  return .unsupported "module" (← g.moduleParts) line

def importAlias : Parser Node := do
  let line ← line
  keyword "import"
  let w ← word
  punct "="
  let v ← word
  dottedName
  semicolon false
  return .unsupported "import_alias" [.identifier w, .identifier v] line

/-- A declaration that has no meaning for a scenario and of which only the kind is kept. -/
def plainDeclaration (kind : String) (p : Parser Unit) : Parser Node := do
  let line ← line
  p
  return .unsupported kind [] line

/-- What `declare` may stand before. -/
def ambientDeclaration (declaration : Parser Node) : Parser Unit := do
  keyword "declare"
  (do let _ ← declaration)
  <|> (do
    keyword "global"
    let _ ← g.block)
  <|> (do
    let _ ← oneOf ["module", "namespace"]
    (do let _ ← stringLiteral)
    <|> (do
      let _ ← word
      dottedName)
    let _ ← optional g.block
    semicolon false <|> pure ())

/-- A declaration that may stand behind `declare`. -/
def ownDeclaration : Parser Node :=
  plainDeclaration "enum_declaration" g.enumDeclaration
  <|> g.variableDeclaration
  <|> g.functionDeclaration
  <|> g.classDeclaration
  <|> plainDeclaration "abstract_class_declaration" g.abstractClass
  <|> plainDeclaration "interface_declaration" g.interfaceDeclaration
  <|> plainDeclaration "type_alias_declaration" g.typeAlias
  <|> g.moduleDeclaration
  <|> importAlias

def declaration : Parser Node :=
  g.ownDeclaration
  <|> plainDeclaration "ambient_declaration" (g.ambientDeclaration g.ownDeclaration)

/-- The name of an export or an import, which may be a string. -/
def portName : Parser String :=
  (do
    let (_, raw) ← stringLiteral
    return String.ofList raw)
  <|> word

/-- A name that is given another one perhaps. -/
def portSpecifier : Parser (String × String) := do
  let plain : Parser (String × String) := do
    let name ← portName
    let other ← optional do
      keyword "as"
      portName
    guard (← seesChar [',', '\x7d'])
    return (name, other.getD name)
  plain
  <|> (do
    let _ ← oneOf ["type", "typeof"]
    plain)

def ports : Parser (List (String × String)) := between "\x7b" "\x7d" (commaList portSpecifier)

def fromClause : Parser String := do
  keyword "from"
  let (s, _) ← stringLiteral
  let _ ← optional do
    let _ ← oneOf ["with", "assert"]
    g.objectLiteral
  return s

/-- Exports from another module, which declare nothing here. -/
def reExport : Parser Node := do
  let _ ← optional (keyword "type")
  (do
    punct "*"
    let _ ← optional do
      keyword "as"
      portName)
  <|> (do let _ ← ports)
  let _ ← g.fromClause
  semicolon false
  return .exportNamed none []

def exportList : Parser Node := do
  let _ ← optional (keyword "type")
  let names ← ports
  semicolon false
  return .exportNamed none (names.map fun (own, given) => .exportSpecifier own given)

def defaultExport : Parser Node := do
  keyword "default"
  (do return .exportDefault (← g.declaration))
  <|> (do
    let e ← g.expression .final
    semicolon true
    return .exportDefault e)

/-- Exports that name nothing. -/
def bareExport : Parser Node := do
  (do
    punctBefore "=" ['=']
    let _ ← g.expression .final)
  <|> (do
    keyword "as"
    keyword "namespace"
    let _ ← word)
  semicolon true
  return .exportNamed none []

def exportStatement : Parser Node := do
  keyword "export"
  g.defaultExport
  <|> g.reExport
  <|> exportList
  <|> (do return .exportNamed (some (← g.declaration)) [])
  <|> (do
    let line ← line
    keyword "namespace"
    return .exportNamed (some (.unsupported "internal_module" (← g.moduleParts) line)) [])
  <|> g.bareExport

/-- The names that an import binds. -/
def importClause : Parser Unit := do
  let group : Parser Unit :=
    (do
      punct "*"
      keyword "as"
      let _ ← word)
    <|> (do let _ ← ports)
  group
  <|> (do
    let _ ← word
    let _ ← optional do
      punct ","
      group)

def importStatement : Parser Node := do
  keyword "import"
  let plain : Parser String := do
    importClause
    g.fromClause
  let source ←
    plain
    <|> (do
      let _ ← oneOf ["type", "typeof"]
      plain)
    <|> (do
      let (s, _) ← stringLiteral
      return s)
    <|> (do
      let _ ← optional do
        keyword "type"
        guard (← sees word)
      let _ ← word
      punct "="
      keyword "require"
      let _ ← between "(" ")" stringLiteral
      return "")
  semicolon false
  return .importDeclaration source

def ifStatement : Parser Node := do
  keyword "if"
  let test ← g.parenthesized
  let consequent ← g.statement
  match ← optional (keyword "else") with
  | some _ => return .ifStatement test consequent (some (← g.statement))
  | none => return .ifStatement test consequent none

def switchCase : Parser Node := do
  let test ←
    (do
      keyword "case"
      return some (← g.expressions .inner))
    <|> (do
      keyword "default"
      return none)
  punct ":"
  return .switchCase test (← many g.statement)

def switchStatement : Parser Node := do
  keyword "switch"
  let discriminant ← g.parenthesized
  return .switchStatement discriminant (← between "\x7b" "\x7d" (many g.switchCase))

/-- The clauses of a counting loop. -/
def forClauses : Parser (List Node) := do
  let first ←
    (do
      let (kind, declarations) ← g.declarators .inner
      punct ";"
      return Node.variableDeclaration kind declarations)
    <|> (do
      let e ← g.expressions .inner
      punct ";"
      return e)
    <|> emptyStatement
  let test ←
    (do
      let e ← g.expressions .inner
      punct ";"
      return e)
    <|> emptyStatement
  let step ← optional (g.expressions .inner)
  return first :: test :: step.toList

/-- What a loop over a collection assigns to, and the collection. -/
def eachClauses : Parser (List Node) := do
  let target ←
    (do
      let _ ← oneOf ["const", "let", "var"]
      return (← g.pattern).whole)
    <|> (do return (← g.pattern).whole)
    <|> g.parenthesized
  let _ ← oneOf ["in", "of"]
  return [target, ← g.expressions .inner]

def forStatement (line : Nat) : Parser Node := do
  keyword "for"
  let each ← optional do
    let _ ← optional (keyword "await")
    between "(" ")" g.eachClauses
  match each with
  | some parts => return .unsupported "for_in_statement" (parts ++ [← g.statement]) line
  | none =>
    let parts ← between "(" ")" g.forClauses
    return .unsupported "for_statement" (parts ++ [← g.statement]) line

def whileStatement (line : Nat) : Parser Node := do
  keyword "while"
  let test ← g.parenthesized
  return .unsupported "while_statement" [test, ← g.statement] line

def doStatement (line : Nat) : Parser Node := do
  keyword "do"
  let body ← g.statement
  keyword "while"
  let test ← g.parenthesized
  semicolon true <|> pure ()
  return .unsupported "do_statement" [body, test] line

def catchClause : Parser Node := do
  let line ← line
  keyword "catch"
  let parameter ← optional (between "(" ")" do
    let p ← g.pattern
    let typing ← optional g.typing
    return p.whole :: typing.toList)
  return .unsupported "catch_clause" (parameter.getD [] ++ [.block (← g.block)]) line

def finallyClause : Parser Node := do
  let line ← line
  keyword "finally"
  return .unsupported "finally_clause" [.block (← g.block)] line

def tryStatement (line : Nat) : Parser Node := do
  keyword "try"
  let body ← g.block
  let handler ← optional g.catchClause
  let finalizer ← optional g.finallyClause
  return .unsupported "try_statement" (.block body :: (handler.toList ++ finalizer.toList)) line

def throwStatement (line : Nat) : Parser Node := do
  keyword "throw"
  let e ← g.expressions .final
  semicolon true
  return .unsupported "throw_statement" [e] line

/-- A label behind a word that leaves a statement; the label stands on the same line. -/
def jumpLabel : Parser (Option Node) := do
  if (← here).endsStatement false then return none
  else
    let line ← line
    optional do
      let _ ← word
      return .unsupported "statement_identifier" [] line

def continueStatement (line : Nat) : Parser Node := do
  keyword "continue"
  let label ← jumpLabel
  semicolon false
  return .unsupported "continue_statement" label.toList line

def breakStatement : Parser Node := do
  keyword "break"
  let _ ← jumpLabel
  semicolon false
  return .breakStatement

def returnStatement : Parser Node := do
  keyword "return"
  if (← here).endsStatement false then return .returnStatement none
  else
    let e ← optional (g.expressions .final)
    semicolon e.isSome
    return .returnStatement e

def debuggerStatement (line : Nat) : Parser Node := do
  keyword "debugger"
  semicolon false
  return .unsupported "debugger_statement" [] line

def withStatement (line : Nat) : Parser Node := do
  keyword "with"
  let scope ← g.parenthesized
  return .unsupported "with_statement" [scope, ← g.statement] line

def labeledStatement (line : Nat) : Parser Node := do
  let _ ← word
  punct ":"
  return .unsupported "labeled_statement"
    [.unsupported "statement_identifier" [] line, ← g.statement] line

def wordStatement (w : String) (line : Nat) : Parser Node :=
  match w with
  | "if" => g.ifStatement
  | "switch" => g.switchStatement
  | "for" => g.forStatement line
  | "while" => g.whileStatement line
  | "do" => g.doStatement line
  | "try" => g.tryStatement line
  | "throw" => g.throwStatement line
  | "continue" => continueStatement line
  | "break" => breakStatement
  | "return" => g.returnStatement
  | "debugger" => debuggerStatement line
  | "with" => g.withStatement line
  | "export" => g.exportStatement
  | "import" => g.importStatement <|> importAlias <|> g.expressionStatement
  | "const" | "var" | "enum" | "interface" | "abstract" => g.declaration
  | "case" | "default" => failure
  | "function" | "class" | "async" | "let" | "type" | "declare" | "module" =>
    g.declaration <|> g.labeledStatement line <|> g.expressionStatement
  | _ => g.labeledStatement line <|> g.expressionStatement

def statementRule : Parser Node := do
  let line ← line
  match ← peek with
  | some '\x7b' => g.blockOr g.expressionStatement
  | some ';' => emptyStatement
  | _ =>
    match ← nextWord with
    | some w => g.wordStatement w line
    | none => g.expressionStatement

end Grammar

end Scenario.Syntax

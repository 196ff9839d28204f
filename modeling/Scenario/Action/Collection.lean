import Scenario.Action.CaseFlow
import Scenario.Action.Mention
import Scenario.Action.Request
import Scenario.Action.Transaction
import Scenario.Condition.Reading
import Scenario.Progress

set_option linter.unusedVariables false

namespace Scenario

open Syntax

namespace Analysis

def ofReading {α : Type} : Reading α → Analysis α
  | .ok a => pure a
  | .error r => throw r

/-- What an analysis gives, or else nothing with a report. -/
def orReport {α : Type} (a : Analysis (List α)) : Collect (List α) := do
  match ← a.run with
  | .ok as => return as
  | .error r =>
    Collect.reportRefused r
    return []

end Analysis

namespace Scope

def tests (s : Scope) : TestContext := { props := s.props, store? := s.store? }

end Scope

/-- Whether an attribute of the given name handles events: `on`, then a capital letter. -/
def isHandlerName (name : String) : Bool :=
  match name.toList with
  | 'o' :: 'n' :: c :: _ => c.isUpper
  | _ => false

def handler? : Node → Option (List Node × Node)
  | .attribute name (some value) =>
    if isHandlerName name then
      match value.unwrap with
      | .arrow params body _ => some (params, body)
      | .function _ params body _ => some (params, body)
      | _ => none
    else none
  | _ => none

def functionOf? (n : Node) : Option (List Node × Node) :=
  match n.unwrap with
  | .arrow params body _ => some (params, body)
  | .function _ params body _ => some (params, body)
  | _ => none

/-- The choice that a test makes between actions. Without actions in the second place it is left
out. -/
def conditionalAct (s : Scope) (test : Node) (consequent alternate : List Act) : Analysis Act := do
  let condition ← Analysis.ofReading (s.tests.condition test)
  let first ← Act.single consequent
  let second ← Act.singleIfAny alternate
  Act.conditional condition.toValue first second

def switchAct (s : Scope) (discriminant : Node) (cases : List Node) (branches : List (List Act)) :
    Analysis Act := do
  let operand (n : Node) : Analysis Value := do
    return (← Analysis.ofReading (s.tests.operand n)).toValue
  let discriminant ← operand discriminant
  let tests ← cases.mapM fun c =>
    match caseTest c with
    | some test => operand test
    | none => pure .null
  let branches ← branches.mapM fun b => Act.single b
  Act.switch discriminant tests branches

def effectAct (s : Scope) (space : Namespace) (method : Option String) (arguments : List Node)
    (line : Nat) : Analysis Act := do
  let named := method.filter (· ≠ "")
  match named.bind space.effect?, named with
  | some shape, some name =>
    let call := space.name ++ "." ++ name ++ "()"
    let payload ← Analysis.ofReading (effectPayload shape call arguments line s.props)
    Act.effect shape.kind payload
  | _, _ => throw ⟨.unknownCall space.name named, some line⟩

def keyPath (call : String) (line : Nat) : List Node → Reading String
  | [] => refuse (.missingKeyPath call) line
  | a :: _ =>
    match a.staticString? with
    | some path => .ok path
    | none => refuse (.dynamicKeyPath call) line

/-- A mutation at a path: a removal has no value, all others have one. -/
def mutationAct (s : Scope) (kind : ActionKind) (store : Store) (call : String)
    (arguments : List Node) (line : Nat) : Analysis Act := do
  let path ← Analysis.ofReading (keyPath call line arguments)
  if kind = .storeRemove then
    match arguments with
    | [_] => Act.mutation kind store path none
    | _ => throw ⟨.onlyKeyPath call, some line⟩
  else
    match arguments with
    | [_, value] => Act.mutation kind store path (some (staticValue s.props value))
    | _ => throw ⟨.keyPathAndValue call, some line⟩

/-- The name of a statement that has no form of its own, with its line. -/
def statementKind : Node → String × Option Nat
  | .unsupported kind _ line => (kind, some line)
  | n => (n.kindName, none)

theorem sizeOf_handler?_lt {n body : Node} {params : List Node}
    (h : handler? n = some (params, body)) : sizeOf body < sizeOf n := by
  unfold handler? at h
  split at h
  · rename_i value
    have hle := value.sizeOf_unwrap_le
    split at h
    · split at h
      · rename_i hu
        cases h
        simp [hu] at hle ⊢
        omega
      · rename_i hu
        cases h
        simp [hu] at hle ⊢
        omega
      · cases h
    · cases h
  · cases h

theorem sizeOf_functionOf?_lt {n body : Node} {params : List Node}
    (h : functionOf? n = some (params, body)) : sizeOf body < sizeOf n := by
  have hle := n.sizeOf_unwrap_le
  unfold functionOf? at h
  split at h
  · rename_i hu
    cases h
    simp [hu] at hle
    omega
  · rename_i hu
    cases h
    simp [hu] at hle
    omega
  · cases h

mutual

/-- The actions under a node, in order. -/
def walk (s : Scope) (n : Node) : Collect (List Act) :=
  match n with
  | .arrow params body _ => walkFunction s params body
  | .function _ params body _ => walkFunction s params body
  | .functionDeclaration _ params body _ => walkFunction s params body
  | .block body => walkAll (s.child.hoist body) body
  | .element _ attributes children _ => do
    let first ← walkAttributes s attributes
    let more ← walkAll s children
    return first ++ more
  | .call callee arguments line =>
    match s.classify callee with
    | some call => (callActions s call arguments line).orReport
    | none => walkAll s (Node.call callee arguments line).children
  | n => walkAll s n.children
termination_by (sizeOf n, 1)
decreasing_by
  · exact Prod.Lex.left _ _ (by simp; omega)
  · exact Prod.Lex.left _ _ (by simp; omega)
  · exact Prod.Lex.left _ _ (by simp; omega)
  · exact Prod.Lex.left _ _ (by have := weight_lt_sizeOf body; simp; omega)
  · exact Prod.Lex.left _ _ (by have := weight_lt_sizeOf attributes; simp; omega)
  · exact Prod.Lex.left _ _ (by have := weight_lt_sizeOf children; simp; omega)
  · exact Prod.Lex.left _ _ (by have := weight_lt_sizeOf arguments; simp; omega)
  · exact Prod.Lex.left _ _ (Node.weight_children_lt _)
  · exact Prod.Lex.left _ _ (Node.weight_children_lt _)

def walkAll (s : Scope) (ns : List Node) : Collect (List Act) :=
  match ns with
  | [] => pure []
  | n :: more => do
    let first ← walk s n
    let rest ← walkAll s more
    return first ++ rest
termination_by (weight ns, 2)
decreasing_by
  · exact Prod.Lex.right' _ (by simp) (by simp)
  · exact Prod.Lex.left _ _ (by have := n.one_le_sizeOf; simp; omega)

def walkFunction (s : Scope) (params : List Node) (body : Node) : Collect (List Act) :=
  match body with
  | .block statements => walkAll ((s.function params).hoist statements) statements
  | e => walk (s.function params) e
termination_by (sizeOf body, 2)
decreasing_by
  · exact Prod.Lex.left _ _ (by have := weight_lt_sizeOf statements; simp; omega)
  · exact Prod.Lex.right' _ (Nat.le_refl _) (by simp)

/-- The actions of attributes, of which each handler gives one at most. -/
def walkAttributes (s : Scope) (ns : List Node) : Collect (List Act) :=
  match ns with
  | [] => pure []
  | n :: more => do
    let first ← walkAttribute s n
    let rest ← walkAttributes s more
    return first ++ rest
termination_by (weight ns, 3)
decreasing_by
  · exact Prod.Lex.right' _ (by simp) (by simp)
  · exact Prod.Lex.left _ _ (by have := n.one_le_sizeOf; simp; omega)

def walkAttribute (s : Scope) (n : Node) : Collect (List Act) :=
  match h : handler? n with
  | some (params, body) => (handlerActions s params body).orReport
  | none => walk s n
termination_by (sizeOf n, 2)
decreasing_by
  · exact Prod.Lex.left _ _ (sizeOf_handler?_lt h)
  · exact Prod.Lex.right' _ (Nat.le_refl _) (by simp)

/-- The action of a handler, if there are actions in it. -/
def handlerActions (s : Scope) (params : List Node) (body : Node) : Analysis (List Act) := do
  match ← functionActions s params body with
  | [] => return []
  | actions => return [← Act.single actions]
termination_by (sizeOf body, 7)
decreasing_by exact Prod.Lex.right' _ (Nat.le_refl _) (by simp)

def callActions (s : Scope) (call : Call) (arguments : List Node) (line : Nat) :
    Analysis (List Act) :=
  match call with
  | .declaration => return []
  | .read _ => return []
  | .mutation store method => do return [← storeAction s store method arguments line]
  | .effect .api method =>
    if method = some "request" then
      match h : Request.ofArguments arguments line s.props with
      | .error r => throw r
      | .ok r => do
        let onSuccess ← callback s "onSuccess" r.onSuccess
        let onError ← callback s "onError" r.onError
        return [← Act.request r.payload onSuccess onError]
    else throw ⟨.unknownCall "api" (method.filter (· ≠ "")), some line⟩
  | .effect space method => do return [← effectAct s space method arguments line]
termination_by (weight arguments, 4)
decreasing_by
  · exact Prod.Lex.right' _ (Request.weight_onSuccess_le h) (by simp)
  · exact Prod.Lex.right' _ (Request.weight_onError_le h) (by simp)

/-- What follows a request, as a sequence, which is empty if nothing is given. -/
def callback (s : Scope) (name : String) (n : Option Node) : Analysis Act :=
  match n with
  | none => Act.sequence []
  | some n =>
    match h : functionOf? n with
    | some (params, body) => do Act.sequence (← functionActions s params body)
    | none => throw ⟨.callbackNotFunction name, none⟩
termination_by (weight n.toList, 3)
decreasing_by exact Prod.Lex.left _ _ (by simpa using sizeOf_functionOf?_lt h)

def storeAction (s : Scope) (store : Store) (method : Option String) (arguments : List Node)
    (line : Nat) : Analysis Act :=
  match method with
  | none => throw ⟨.computedStoreMethod, some line⟩
  | some method =>
    match storeMethod? method with
    | none => throw ⟨.unknownStoreMethod method, some line⟩
    | some kind => do
      let call := "store." ++ method ++ "()"
      let _ ← Analysis.ofReading (plainArguments call arguments line)
      if kind = .storeTransaction then
        match h : Transaction.ofArguments arguments line with
        | .error r => throw r
        | .ok t =>
          let inner := (s.function t.params).bind t.proxy (some store)
          match ← transactionActions inner store t.proxy line t.statements with
          | [] => throw ⟨.transactionEmpty, some line⟩
          | actions => Act.transaction store actions
      else mutationAct s kind store call arguments line
termination_by (weight arguments, 3)
decreasing_by exact Prod.Lex.left _ _ (Transaction.weight_statements_lt h)

/-- The actions of the statements of a transaction, which may contain no others. -/
def transactionActions (s : Scope) (store : Store) (proxy : String) (line : Nat) (ns : List Node) :
    Analysis (List Act) :=
  match ns with
  | [] => return []
  | n :: more =>
    match h : mutationOn? proxy n with
    | some c => do
      let first ← storeAction s store c.method c.arguments c.line
      return first :: (← transactionActions s store proxy line more)
    | none =>
      if mentions s n then throw ⟨.transactionStatement proxy, some line⟩
      else transactionActions s store proxy line more
termination_by (weight ns, 4)
decreasing_by
  · exact Prod.Lex.left _ _ (by have := weight_arguments_lt h; simp; omega)
  · exact Prod.Lex.left _ _ (by have := n.one_le_sizeOf; simp; omega)
  · exact Prod.Lex.left _ _ (by have := n.one_le_sizeOf; simp; omega)

def functionActions (s : Scope) (params : List Node) (body : Node) : Analysis (List Act) :=
  match body with
  | .block body => statements ((s.function params).hoist body) body
  | e => expression (s.function params) e
termination_by (sizeOf body, 6)
decreasing_by
  · exact Prod.Lex.left _ _ (by have := weight_lt_sizeOf body; simp; omega)
  · exact Prod.Lex.right' _ (Nat.le_refl _) (by simp)

/-- The actions of statements. A declaration among them changes the scope of those behind it. -/
def statements (s : Scope) (ns : List Node) : Analysis (List Act) :=
  match ns with
  | [] => return []
  | n :: more => do
    let (first, s) ← statement s n
    return first ++ (← statements s more)
termination_by (weight ns, 5)
decreasing_by
  · exact Prod.Lex.right' _ (by simp) (by simp)
  · exact Prod.Lex.left _ _ (by have := n.one_le_sizeOf; simp; omega)

/-- The actions of a statement, and the scope behind it. -/
def statement (s : Scope) (n : Node) : Analysis (List Act × Scope) :=
  match n with
  | .expressionStatement e => do return (← expression s e, s)
  | .returnStatement (some e) => do return (← expression s e, s)
  | .returnStatement none => return ([], s)
  | .variableDeclaration kind declarators => do
    let s := s.hoistStatement (.variableDeclaration kind declarators)
    return (← initialisers s declarators, s)
  | .block body => do return (← statements (s.child.hoist body) body, s)
  | .ifStatement test consequent alternate => do
    let (first, s) ← statement s consequent
    let (second, s) ← alternative s alternate
    if first.isEmpty && second.isEmpty then return ([], s)
    else return ([← conditionalAct s test first second], s)
  | .switchStatement discriminant cases =>
    if !mentions s (.switchStatement discriminant cases) then return ([], s)
    else if cases.any fun c => (caseFlow? (caseBody c)).isNone then throw ⟨.conditionalExit, none⟩
    else do
      let branches ← branchActions s cases
      return ([← switchAct s discriminant cases branches], s)
  | .breakStatement => return ([], s)
  | n =>
    if mentions s n then
      let (kind, line) := statementKind n
      throw ⟨.actionsInside kind, line⟩
    else return ([], s)
termination_by (sizeOf n, 4)
decreasing_by
  · exact Prod.Lex.left _ _ (by simp)
  · exact Prod.Lex.left _ _ (by simp; omega)
  · exact Prod.Lex.left _ _ (by have := weight_lt_sizeOf declarators; simp; omega)
  · exact Prod.Lex.left _ _ (by have := weight_lt_sizeOf body; simp; omega)
  · exact Prod.Lex.left _ _ (by simp; omega)
  · exact Prod.Lex.left _ _ (by have := weight_toList_lt_sizeOf alternate; simp; omega)
  · exact Prod.Lex.left _ _ (by have := weight_lt_sizeOf cases; simp; omega)

/-- The actions of the second part of an `if`, which may be missing. -/
def alternative (s : Scope) (n : Option Node) : Analysis (List Act × Scope) :=
  match n with
  | none => return ([], s)
  | some n => statement s n
termination_by (weight n.toList, 5)
decreasing_by exact Prod.Lex.right' _ (by simp) (by simp)

def initialisers (s : Scope) (ns : List Node) : Analysis (List Act) :=
  match ns with
  | [] => return []
  | .declarator _ (some e) :: more => do
    let first ← expression s e
    return first ++ (← initialisers s more)
  | n :: more => initialisers s more
termination_by (weight ns, 5)
decreasing_by
  · exact Prod.Lex.left _ _ (by simp; omega)
  · exact Prod.Lex.left _ _ (by simp only [weight_cons, Node.declarator.sizeOf_spec]; omega)
  · exact Prod.Lex.left _ _ (by have := n.one_le_sizeOf; simp; omega)

/-- The actions that run from each of the given clauses on. -/
def branchActions (s : Scope) (cases : List Node) : Analysis (List (List Act)) :=
  match cases with
  | [] => return []
  | c :: more =>
    match h : caseRun? (c :: more) with
    | none => throw ⟨.conditionalExit, none⟩
    | some run => do
      let first ← statements (s.child.hoist run) run
      return first :: (← branchActions s more)
termination_by (weight cases, 6)
decreasing_by
  · exact Prod.Lex.right' _ (weight_caseRun?_le h) (by simp)
  · exact Prod.Lex.left _ _ (by have := c.one_le_sizeOf; simp; omega)

/-- The actions of an expression. What stands behind a test is done if the test says so. -/
def expression (s : Scope) (n : Node) : Analysis (List Act) :=
  match n with
  | .parenthesized e => expression s e
  | .assertion e => expression s e
  | .container e => expression s e
  | .await e => expression s e
  | .binary operator left right =>
    if (operator = "&&" ∨ operator = "||") ∧ !mentions s left then do
      match ← expression s right with
      | [] => return []
      | actions =>
        if operator = "||" then return [← conditionalAct s left [] actions]
        else return [← conditionalAct s left actions []]
    else plainActions s (.binary operator left right)
  | .unsupported "ternary_expression" [test, consequent, alternate] line =>
    if mentions s test then
      plainActions s (.unsupported "ternary_expression" [test, consequent, alternate] line)
    else do
      let first ← expression s consequent
      let second ← expression s alternate
      if first.isEmpty && second.isEmpty then return []
      else return [← conditionalAct s test first second]
  | n => plainActions s n
termination_by (sizeOf n, 3)
decreasing_by
  · exact Prod.Lex.left _ _ (by simp)
  · exact Prod.Lex.left _ _ (by simp)
  · exact Prod.Lex.left _ _ (by simp)
  · exact Prod.Lex.left _ _ (by simp)
  · exact Prod.Lex.left _ _ (by simp only [Node.binary.sizeOf_spec]; omega)
  · exact Prod.Lex.right' _ (Nat.le_refl _) (by simp)
  · exact Prod.Lex.right' _ (Nat.le_refl _) (by simp)
  · exact Prod.Lex.left _ _ (by simp; omega)
  · exact Prod.Lex.left _ _ (by simp; omega)
  · exact Prod.Lex.right' _ (Nat.le_refl _) (by simp)

/-- The actions of an expression without tests. A function inside it may have no actions, because it
may run any number of times. -/
def plainActions (s : Scope) (n : Node) : Analysis (List Act) :=
  match nestedFunction? s n with
  | some line => throw ⟨.actionsInNestedFunction, some line⟩
  | none => walk s n
termination_by (sizeOf n, 2)
decreasing_by exact Prod.Lex.right' _ (Nat.le_refl _) (by simp)

end

mutual

/-- Declares the stores under a node, in order. What stands inside a declaration declares none. -/
def declareStores (n : Node) : Collect Unit :=
  match n with
  | .call callee arguments line =>
    if Callee.isStoreFactory callee then
      match Store.ofArguments arguments line [] with
      | .ok store => Collect.addStore store
      | .error r => Collect.reportRefused r
    else declareAllStores (Node.call callee arguments line).children
  | n => declareAllStores n.children
termination_by (sizeOf n, 0)
decreasing_by
  · exact Prod.Lex.left _ _ (Node.weight_children_lt _)
  · exact Prod.Lex.left _ _ (Node.weight_children_lt _)

def declareAllStores (ns : List Node) : Collect Unit :=
  match ns with
  | [] => pure ()
  | n :: more => do
    declareStores n
    declareAllStores more
termination_by (weight ns, 1)
decreasing_by
  · exact Prod.Lex.right' _ (by simp) (by simp)
  · exact Prod.Lex.left _ _ (by have := n.one_le_sizeOf; simp; omega)

end

/-- The actions of a program given by its statements; the stores are declared first. -/
def collectActions (body : List Node) : Collect (List Act) := do
  declareAllStores body
  walkAll (Scope.module.hoist body) body

end Scenario

import Scenario.Proofs.Outcome

namespace Scenario

open Syntax Analysis

namespace Syntax.Node

/-- The expression that an expression is compiled as: the one in its wrapper, or the one waited for. -/
def held? : Node → Option Node
  | .parenthesized e => some e
  | .assertion e => some e
  | .container e => some e
  | .await e => some e
  | _ => none

/-- Whether the walk through a node is the walk through its parts. -/
def isPassed : Node → Bool
  | .arrow .. | .function .. | .functionDeclaration .. | .block _ | .element .. | .call .. => false
  | _ => true

/-- Whether the actions of an expression are those that a search finds in it. -/
def isSearched : Node → Bool
  | .parenthesized _ | .assertion _ | .container _ | .await _ | .binary .. => false
  | .unsupported "ternary_expression" [_, _, _] _ => false
  | _ => true

/-- Whether a statement has no form of its own. -/
def isFormless : Node → Bool
  | .expressionStatement _ | .returnStatement (some _) | .returnStatement none
  | .variableDeclaration .. | .block _ | .ifStatement .. | .switchStatement .. | .breakStatement =>
    false
  | _ => true

end Syntax.Node

/-- The initial value of a variable. -/
def initialiser? : Node → Option Node
  | .declarator _ (some e) => some e
  | _ => none

section Equations

variable {s : Scope} {n : Node}

theorem walk_of_function? {body : Node} {params : List Node}
    (h : n.function? = some (params, body)) : walk s n = walkFunction s params body := by
  cases n with
  | arrow | function | functionDeclaration =>
    cases h
    rw [walk]
  | _ => cases h

theorem walk_of_isPassed (h : n.isPassed = true) : walk s n = walkAll s n.children := by
  rw [walk]
  all_goals
    intros
    subst_vars
    cases h

theorem walk_of_classify {callee : Node} {arguments : List Node} {line : Nat} {call : Call}
    (h : s.classify callee = some call) :
    walk s (.call callee arguments line) = (callActions s call arguments line).orReport := by
  rw [walk, h]

theorem walk_of_classify_eq_none {callee : Node} {arguments : List Node} {line : Nat}
    (h : s.classify callee = none) :
    walk s (.call callee arguments line) = walkAll s (Node.call callee arguments line).children := by
  rw [walk, h]

theorem walkFunction_of_expression {e : Node} {params : List Node} (h : ∀ body, e ≠ .block body) :
    walkFunction s params e = walk (s.function params) e := by
  rw [walkFunction]
  exact h

theorem functionActions_of_expression {e : Node} {params : List Node}
    (h : ∀ body, e ≠ .block body) :
    functionActions s params e = expression (s.function params) e := by
  rw [functionActions]
  exact h

theorem expression_of_held? {e : Node} (h : n.held? = some e) : expression s n = expression s e := by
  cases n with
  | parenthesized | assertion | container | await =>
    cases h
    rw [expression]
  | _ => cases h

theorem expression_of_isSearched (h : n.isSearched = true) : expression s n = plainActions s n := by
  rw [expression]
  all_goals
    intros
    subst_vars
    cases h

theorem plainActions_of_nestedFunction? {line : Nat} (h : nestedFunction? s n = some line) :
    plainActions s n = throw ⟨.actionsInNestedFunction, some line⟩ := by
  rw [plainActions, h]

theorem plainActions_of_none (h : nestedFunction? s n = none) :
    plainActions s n = liftM (walk s n) := by
  rw [plainActions, h]

theorem statement_of_isFormless (h : n.isFormless = true) :
    statement s n =
      if mentions s n then throw ⟨.actionsInside (statementKind n).1, (statementKind n).2⟩
      else return ([], s) := by
  rw [statement]
  all_goals
    intros
    subst_vars
    cases h

theorem initialisers_of_initialiser? {e : Node} {more : List Node} (h : initialiser? n = some e) :
    initialisers s (n :: more) = (do
      let first ← expression s e
      return first ++ (← initialisers s more)) := by
  unfold initialiser? at h
  split at h
  · cases h
    rw [initialisers]
  · cases h

theorem initialisers_of_none {more : List Node} (h : initialiser? n = none) :
    initialisers s (n :: more) = initialisers s more := by
  rw [initialisers]
  rintro target e rfl
  cases h

/-- A call that is no action gives none. -/
theorem callActions_of_isAction_eq_false {call : Call} (h : call.isAction = false)
    (arguments : List Node) (line : Nat) : callActions s call arguments line = pure [] := by
  cases call with
  | declaration => rw [callActions]
  | read store => rw [callActions]
  | mutation store method => simp [Call.isAction] at h
  | effect space method => simp [Call.isAction] at h

end Equations

/-- A statement about each function that goes through a program. -/
structure Traversal where
  walk : Scope → Node → Prop
  walkAll : Scope → List Node → Prop
  walkFunction : Scope → List Node → Node → Prop
  walkAttributes : Scope → List Node → Prop
  walkAttribute : Scope → Node → Prop
  handlerActions : Scope → List Node → Node → Prop
  callActions : Scope → Call → List Node → Nat → Prop
  callback : Scope → String → Option Node → Prop
  functionActions : Scope → List Node → Node → Prop
  statements : Scope → List Node → Prop
  statement : Scope → Node → Prop
  alternative : Scope → Option Node → Prop
  initialisers : Scope → List Node → Prop
  branchActions : Scope → List Node → Prop
  expression : Scope → Node → Prop
  plainActions : Scope → Node → Prop

namespace Traversal

/-- The steps of a search for actions. -/
structure Search (T : Traversal) : Prop where
  function {s : Scope} {n body : Node} {params : List Node} :
    n.function? = some (params, body) → T.walkFunction s params body → T.walk s n
  block {s : Scope} {body : List Node} :
    T.walkAll (s.child.hoist body) body → T.walk s (.block body)
  element {s : Scope} {name : String} {attributes children : List Node} {line : Nat} :
    T.walkAttributes s attributes → T.walkAll s children →
      T.walk s (.element name attributes children line)
  call {s : Scope} {callee : Node} {arguments : List Node} {line : Nat} {call : Call} :
    s.classify callee = some call → T.callActions s call arguments line →
      T.walk s (.call callee arguments line)
  ordinary {s : Scope} {callee : Node} {arguments : List Node} {line : Nat} :
    s.classify callee = none → T.walkAll s (Node.call callee arguments line).children →
      T.walk s (.call callee arguments line)
  passed {s : Scope} {n : Node} : n.isPassed = true → T.walkAll s n.children → T.walk s n
  nil (s : Scope) : T.walkAll s []
  cons {s : Scope} {n : Node} {more : List Node} :
    T.walk s n → T.walkAll s more → T.walkAll s (n :: more)
  body_block {s : Scope} {params body : List Node} :
    T.walkAll ((s.function params).hoist body) body → T.walkFunction s params (.block body)
  body_expression {s : Scope} {params : List Node} {e : Node} :
    (∀ body, e ≠ .block body) → T.walk (s.function params) e → T.walkFunction s params e
  attributes_nil (s : Scope) : T.walkAttributes s []
  attributes_cons {s : Scope} {n : Node} {more : List Node} :
    T.walkAttribute s n → T.walkAttributes s more → T.walkAttributes s (n :: more)
  handler {s : Scope} {n body : Node} {params : List Node} :
    handler? n = some (params, body) → T.handlerActions s params body → T.walkAttribute s n
  «attribute» {s : Scope} {n : Node} : handler? n = none → T.walk s n → T.walkAttribute s n

/-- The steps of the analysis of a call. -/
structure Calls (T : Traversal) : Prop where
  silent {s : Scope} {call : Call} (arguments : List Node) (line : Nat) :
    call.isAction = false → T.callActions s call arguments line
  mutation (s : Scope) (store : Store) (method : Option String) (arguments : List Node) (line : Nat) :
    T.callActions s (.mutation store method) arguments line
  refused {s : Scope} {arguments : List Node} {line : Nat} {r : Refused} :
    Request.ofArguments arguments line s.props = .error r →
      T.callActions s (.effect .api (some "request")) arguments line
  request {s : Scope} {arguments : List Node} {line : Nat} {r : Request} :
    Request.ofArguments arguments line s.props = .ok r → T.callback s "onSuccess" r.onSuccess →
      T.callback s "onError" r.onError →
        T.callActions s (.effect .api (some "request")) arguments line
  unknown {s : Scope} {method : Option String} (arguments : List Node) (line : Nat) :
    method ≠ some "request" → T.callActions s (.effect .api method) arguments line
  effect {s : Scope} {space : Namespace} (method : Option String) (arguments : List Node)
    (line : Nat) : space ≠ .api → T.callActions s (.effect space method) arguments line
  missing (s : Scope) (name : String) : T.callback s name none
  callback {s : Scope} {n body : Node} {params : List Node} (name : String) :
    functionOf? n = some (params, body) → T.functionActions s params body →
      T.callback s name (some n)
  other {s : Scope} {n : Node} (name : String) : functionOf? n = none → T.callback s name (some n)

/-- The steps of the analysis of an expression. -/
structure Expressions (T : Traversal) : Prop where
  held {s : Scope} {n e : Node} : n.held? = some e → T.expression s e → T.expression s n
  guarded {s : Scope} {operator : String} {left right : Node} :
    (operator = "&&" ∨ operator = "||") ∧ (!mentions s left) = true → T.expression s right →
      T.expression s (.binary operator left right)
  unguarded {s : Scope} {operator : String} {left right : Node} :
    ¬((operator = "&&" ∨ operator = "||") ∧ (!mentions s left) = true) →
      T.plainActions s (.binary operator left right) →
        T.expression s (.binary operator left right)
  ternary {s : Scope} {test consequent alternate : Node} {line : Nat} :
    ¬mentions s test = true → T.expression s consequent → T.expression s alternate →
      T.expression s (.unsupported "ternary_expression" [test, consequent, alternate] line)
  active {s : Scope} {test consequent alternate : Node} {line : Nat} : mentions s test = true →
    T.plainActions s (.unsupported "ternary_expression" [test, consequent, alternate] line) →
      T.expression s (.unsupported "ternary_expression" [test, consequent, alternate] line)
  searched {s : Scope} {n : Node} : n.isSearched = true → T.plainActions s n → T.expression s n
  nested {s : Scope} {n : Node} {line : Nat} : nestedFunction? s n = some line → T.plainActions s n
  plain {s : Scope} {n : Node} : nestedFunction? s n = none → T.walk s n → T.plainActions s n

/-- The steps of the analysis of a function's statements. -/
structure Statements (T : Traversal) : Prop where
  handler {s : Scope} {params : List Node} {body : Node} :
    T.functionActions s params body → T.handlerActions s params body
  body_block {s : Scope} {params body : List Node} :
    T.statements ((s.function params).hoist body) body → T.functionActions s params (.block body)
  body_expression {s : Scope} {params : List Node} {e : Node} :
    (∀ body, e ≠ .block body) → T.expression (s.function params) e → T.functionActions s params e
  nil (s : Scope) : T.statements s []
  cons {s : Scope} {n : Node} {more : List Node} :
    T.statement s n → (∀ t, T.statements t more) → T.statements s (n :: more)
  expression {s : Scope} {e : Node} : T.expression s e → T.statement s (.expressionStatement e)
  returned {s : Scope} {e : Node} : T.expression s e → T.statement s (.returnStatement (some e))
  bare_return (s : Scope) : T.statement s (.returnStatement none)
  declaration {s : Scope} {kind : String} {declarators : List Node} :
    T.initialisers (s.hoistStatement (.variableDeclaration kind declarators)) declarators →
      T.statement s (.variableDeclaration kind declarators)
  block {s : Scope} {body : List Node} :
    T.statements (s.child.hoist body) body → T.statement s (.block body)
  choice {s : Scope} {test consequent : Node} {alternate : Option Node} :
    T.statement s consequent → (∀ t, T.alternative t alternate) →
      T.statement s (.ifStatement test consequent alternate)
  switch {s : Scope} {discriminant : Node} {cases : List Node} :
    (mentions s (.switchStatement discriminant cases) = true →
      cases.any (fun c => (caseFlow? (caseBody c)).isNone) = false → T.branchActions s cases) →
        T.statement s (.switchStatement discriminant cases)
  leave (s : Scope) : T.statement s .breakStatement
  formless {s : Scope} {n : Node} : n.isFormless = true → T.statement s n
  alternative_none (s : Scope) : T.alternative s none
  alternative_some {s : Scope} {n : Node} : T.statement s n → T.alternative s (some n)
  initialisers_nil (s : Scope) : T.initialisers s []
  initialiser {s : Scope} {n e : Node} {more : List Node} : initialiser? n = some e →
    T.expression s e → T.initialisers s more → T.initialisers s (n :: more)
  uninitialised {s : Scope} {n : Node} {more : List Node} : initialiser? n = none →
    T.initialisers s more → T.initialisers s (n :: more)
  branches_nil (s : Scope) : T.branchActions s []
  endless {s : Scope} {c : Node} {more : List Node} : caseRun? (c :: more) = none →
    T.branchActions s (c :: more)
  branch {s : Scope} {c : Node} {more run : List Node} : caseRun? (c :: more) = some run →
    T.statements (s.child.hoist run) run → T.branchActions s more → T.branchActions s (c :: more)

/-- All statements of a traversal. -/
structure Everywhere (T : Traversal) : Prop where
  walk (s : Scope) (n : Node) : T.walk s n
  walkAll (s : Scope) (ns : List Node) : T.walkAll s ns
  walkFunction (s : Scope) (params : List Node) (body : Node) : T.walkFunction s params body
  walkAttributes (s : Scope) (ns : List Node) : T.walkAttributes s ns
  walkAttribute (s : Scope) (n : Node) : T.walkAttribute s n
  callActions (s : Scope) (call : Call) (arguments : List Node) (line : Nat) :
    T.callActions s call arguments line
  callback (s : Scope) (name : String) (n : Option Node) : T.callback s name n
  functionActions (s : Scope) (params : List Node) (body : Node) : T.functionActions s params body
  handlerActions (s : Scope) (params : List Node) (body : Node) : T.handlerActions s params body
  statements (s : Scope) (ns : List Node) : T.statements s ns
  statement (s : Scope) (n : Node) : T.statement s n
  alternative (s : Scope) (n : Option Node) : T.alternative s n
  initialisers (s : Scope) (ns : List Node) : T.initialisers s ns
  branchActions (s : Scope) (cases : List Node) : T.branchActions s cases
  expression (s : Scope) (n : Node) : T.expression s n
  plainActions (s : Scope) (n : Node) : T.plainActions s n

variable {T : Traversal}

/-- What every step keeps holds of the walk as a whole. -/
theorem everywhere (search : T.Search) (calls : T.Calls) (expressions : T.Expressions)
    (statements : T.Statements) : T.Everywhere := by
  have h := walk.mutual_induct T.walk T.callActions T.callback T.functionActions T.expression
    T.plainActions T.statements T.statement T.branchActions T.alternative T.initialisers
    T.walkAttributes T.walkAttribute T.handlerActions T.walkAll T.walkFunction
    (fun _ _ _ _ ih => search.function rfl ih)
    (fun _ _ _ _ _ ih => search.function rfl ih)
    (fun _ _ _ _ _ ih => search.function rfl ih)
    (fun _ _ ih => search.block ih)
    (fun _ _ _ _ _ iha ihc => search.element iha ihc)
    (fun _ _ _ _ _ hc ih => search.call hc ih)
    (fun _ _ _ _ hc ih => search.ordinary hc ih)
    (fun s n _ _ _ _ _ _ ih => search.passed (by unfold Node.isPassed; split <;> grind) ih)
    (fun _ arguments line => calls.silent arguments line rfl)
    (fun _ arguments line _ => calls.silent arguments line rfl)
    (fun s arguments line store method => calls.mutation s store method arguments line)
    (fun _ _ _ _ hr => calls.refused hr)
    (fun _ _ _ _ hr ihs ihe => calls.request hr ihs ihe)
    (fun _ arguments line _ hm => calls.unknown arguments line hm)
    (fun _ arguments line _ method hs => calls.effect method arguments line hs)
    calls.missing
    (fun _ name _ _ _ hf ih => calls.callback name hf ih)
    (fun _ name _ hf => calls.other name hf)
    (fun _ _ _ ih => statements.body_block ih)
    (fun _ _ _ he ih => statements.body_expression he ih)
    (fun _ _ ih => expressions.held rfl ih)
    (fun _ _ ih => expressions.held rfl ih)
    (fun _ _ ih => expressions.held rfl ih)
    (fun _ _ ih => expressions.held rfl ih)
    (fun _ _ _ _ hop ih => expressions.guarded hop ih)
    (fun _ _ _ _ hop ih => expressions.unguarded hop ih)
    (fun _ _ _ _ _ ht ih => expressions.active ht ih)
    (fun _ _ _ _ _ ht ihc iha => expressions.ternary ht ihc iha)
    (fun s n _ _ _ _ _ _ ih => expressions.searched (by unfold Node.isSearched; split <;> grind) ih)
    (fun _ _ _ hn => expressions.nested hn)
    (fun _ _ hn ih => expressions.plain hn ih)
    statements.nil
    (fun _ _ _ ihn ihm => statements.cons ihn ihm)
    (fun _ _ ih => statements.expression ih)
    (fun _ _ ih => statements.returned ih)
    statements.bare_return
    (fun _ _ _ ih => statements.declaration ih)
    (fun _ _ ih => statements.block ih)
    (fun _ _ _ _ ihc iha => statements.choice ihc iha)
    (fun _ _ _ hm => statements.switch fun h => by simp [h] at hm)
    (fun _ _ _ _ hx => statements.switch fun _ h => by simp [h] at hx)
    (fun _ _ _ _ _ ih => statements.switch fun _ _ => ih)
    statements.leave
    (fun s n _ _ _ _ _ _ _ _ _ _ _ _ =>
      statements.formless (by unfold Node.isFormless; split <;> grind))
    (fun s n _ _ _ _ _ _ _ _ _ =>
      statements.formless (by unfold Node.isFormless; split <;> grind))
    statements.branches_nil
    (fun _ _ _ hr => statements.endless hr)
    (fun _ _ _ _ hr ihf ihm => statements.branch hr ihf ihm)
    statements.alternative_none
    (fun _ _ ih => statements.alternative_some ih)
    statements.initialisers_nil
    (fun _ _ _ _ ihe ihm => statements.initialiser rfl ihe ihm)
    (fun s n more hn ih => statements.uninitialised
      (by unfold initialiser?; split; exacts [(hn _ _ rfl).elim, rfl]) ih)
    search.attributes_nil
    (fun _ _ _ ihn ihm => search.attributes_cons ihn ihm)
    (fun _ _ _ _ hn ih => search.handler hn ih)
    (fun _ _ hn ih => search.attribute hn ih)
    (fun _ _ _ ih => statements.handler ih)
    search.nil
    (fun _ _ _ ihn ihm => search.cons ihn ihm)
    (fun _ _ _ ih => search.body_block ih)
    (fun _ _ _ he ih => search.body_expression he ih)
  obtain ⟨hwalk, hcall, hcallback, hfunction, hexpression, hplain, hstatements, hstatement, hbranch,
    halternative, hinitialisers, hattributes, hattribute, hhandler, hall, hbody⟩ := h
  exact ⟨hwalk, hall, hbody, hattributes, hattribute, hcall, hcallback, hfunction, hhandler,
    hstatements, hstatement, halternative, hinitialisers, hbranch, hexpression, hplain⟩

end Traversal

theorem eq_of_storeMethod?_transaction {method : String}
    (h : storeMethod? method = some .storeTransaction) : method = "transaction" := by
  unfold storeMethod? at h
  split at h <;> simp_all

/-- A statement about the changes that the calls of a store make, and one about those that the
statements of a transaction make. -/
structure StoreTraversal where
  storeAction : Scope → Option String → List Node → Nat → Prop
  transactionActions : Scope → String → Nat → List Node → Prop

namespace StoreTraversal

/-- The steps of the analysis of a change, in transactions of any depth. -/
structure Steps (store : Store) (T : StoreTraversal) : Prop where
  unnamed (s : Scope) (arguments : List Node) (line : Nat) : T.storeAction s none arguments line
  unknown {s : Scope} {method : String} (arguments : List Node) (line : Nat) :
    storeMethod? method = none → T.storeAction s (some method) arguments line
  mutation {s : Scope} {method : String} {kind : ActionKind} (arguments : List Node) (line : Nat) :
    storeMethod? method = some kind → kind ≠ .storeTransaction →
      T.storeAction s (some method) arguments line
  transaction {s : Scope} {arguments : List Node} {line : Nat} :
    (∀ t, Transaction.ofArguments arguments line = .ok t →
      T.transactionActions ((s.function t.params).bind t.proxy (some store)) t.proxy line
        t.statements) → T.storeAction s (some "transaction") arguments line
  nil (s : Scope) (proxy : String) (line : Nat) : T.transactionActions s proxy line []
  change {s : Scope} {proxy : String} {line : Nat} {n : Node} {more : List Node} {c : MethodCall} :
    mutationOn? proxy n = some c → T.storeAction s c.method c.arguments c.line →
      T.transactionActions s proxy line more → T.transactionActions s proxy line (n :: more)
  foreign {s : Scope} {proxy : String} {line : Nat} {n : Node} {more : List Node} :
    mutationOn? proxy n = none → mentions s n = true →
      T.transactionActions s proxy line (n :: more)
  quiet {s : Scope} {proxy : String} {line : Nat} {n : Node} {more : List Node} :
    mutationOn? proxy n = none → ¬mentions s n = true → T.transactionActions s proxy line more →
      T.transactionActions s proxy line (n :: more)

theorem Steps.everywhere {store : Store} {T : StoreTraversal} (h : T.Steps store) :
    (∀ s method arguments line, T.storeAction s method arguments line) ∧
      ∀ s proxy line ns, T.transactionActions s proxy line ns := by
  have hcall (s : Scope) (arguments : List Node) (line : Nat) (method : String) (kind : ActionKind)
      (hk : storeMethod? method = some kind)
      (ih : ∀ t, Transaction.ofArguments arguments line = .ok t →
        T.transactionActions ((s.function t.params).bind t.proxy (some store)) t.proxy line
          t.statements) : T.storeAction s (some method) arguments line := by
    by_cases ht : kind = .storeTransaction
    · subst ht
      obtain rfl := eq_of_storeMethod?_transaction hk
      exact h.transaction ih
    · exact h.mutation arguments line hk ht
  exact storeAction.mutual_induct store T.storeAction T.transactionActions
    h.unnamed
    (fun _ arguments line _ hm => h.unknown arguments line hm)
    hcall
    h.nil
    (fun _ _ _ _ _ _ hc ihc ihm => h.change hc ihc ihm)
    (fun _ _ _ _ _ hn hm => h.foreign hn hm)
    (fun _ _ _ _ _ hn hm ih => h.quiet hn hm ih)

end StoreTraversal

end Scenario

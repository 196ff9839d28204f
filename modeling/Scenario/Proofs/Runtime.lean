import Scenario.Proofs.Erasure

namespace Scenario

open Syntax

namespace Value

def isNull : Value → Bool
  | .null => true
  | _ => false

/-- A member of what an action carries. -/
def member (name : String) : Option Value → Value
  | some (.object fields) => (Fields.get? fields name).getD .null
  | _ => .null

def items : Value → List Value
  | .list items => items
  | _ => []

end Value

/-- Whether actions of a kind only say which others are run. -/
def ActionKind.isControl : ActionKind → Bool
  | .sequence | .conditional | .switch => true
  | _ => false

/-- All that is left to the runtime of a scenario. -/
structure Runtime (σ : Type) where
  effect : Action Unit → σ → σ
  holds : Value → σ → Bool
  equal : Value → Value → σ → Bool
  /-- Whether a test holds that has no fixed form. -/
  dynamicTest : Node → σ → Bool
  /-- Whether a clause is selected where one of the sides has no fixed form. -/
  dynamicMatch : Node → Node → σ → Bool

namespace Runtime

variable {σ : Type} (r : Runtime σ)

/-- The number of the clause that is run: the first with an equal value, or else the one for null,
which marks the default. -/
def entry (d : Value) (cases : List Value) (x : σ) : Nat :=
  let first := cases.findIdx fun v => !v.isNull && r.equal d v x
  if first < cases.length then first else cases.findIdx Value.isNull

mutual

/-- What an action does to a state. -/
def run : Action Unit → σ → σ
  | ⟨_, .sequence, _, _, _, _, .set actions⟩, x => runAll actions x
  | ⟨_, .conditional, _, _, _, value, .set actions⟩, x =>
    runNth (if r.holds (.member "condition" value) x then 0 else 1) actions x
  | ⟨_, .switch, _, _, _, value, .set actions⟩, x =>
    runNth (r.entry (.member "discriminant" value) (Value.member "cases" value).items x) actions x
  | a, x => r.effect a x

def runAll : List (Action Unit) → σ → σ
  | [], x => x
  | a :: more, x => runAll more (run a x)

/-- Runs the action of a number, if there is one. -/
def runNth : Nat → List (Action Unit) → σ → σ
  | _, [], x => x
  | 0, a :: _, x => run a x
  | k + 1, _ :: more, x => runNth k more x

end

open Scenario.Action

@[simp] theorem runAll_nil (x : σ) : r.runAll [] x = x := rfl

@[simp] theorem runAll_cons (a : Action Unit) (as : List (Action Unit)) (x : σ) :
    r.runAll (a :: as) x = r.runAll as (r.run a x) := rfl

@[simp] theorem runAll_append (as bs : List (Action Unit)) (x : σ) :
    r.runAll (as ++ bs) x = r.runAll bs (r.runAll as x) := by
  induction as generalizing x with
  | nil => rfl
  | cons a as ih => simp [ih]

theorem run_of_isControl_eq_false {a : Action Unit} (h : a.kind.isControl = false) (x : σ) :
    r.run a x = r.effect a x := by
  rw [run] <;> rintro _ _ _ _ _ _ rfl <;> simp [ActionKind.isControl] at h

@[simp] theorem run_ofList (as : List (Action Unit)) (x : σ) :
    r.run (ofList as) x = r.runAll as x := by
  match as with
  | [] => rfl
  | [a] => rfl
  | a :: b :: more => rfl

@[simp] theorem run_ofBranches (c : Value) (as bs : List (Action Unit)) (x : σ) :
    r.run (ofBranches c as bs) x = if r.holds c x then r.runAll as x else r.runAll bs x := by
  change r.runNth (if r.holds c x then 0 else 1) _ x = _
  split
  · exact r.run_ofList as x
  · match bs with
    | [] => rfl
    | b :: more => exact r.run_ofList (b :: more) x

theorem runNth_ofList (k : Nat) (branches : List (List (Action Unit))) (x : σ) :
    r.runNth k (branches.map ofList) x = r.runAll (branches[k]?.getD []) x := by
  induction branches generalizing k with
  | nil => rfl
  | cons as more ih =>
    cases k with
    | zero => exact r.run_ofList as x
    | succ k => exact ih k

@[simp] theorem run_ofClauses (d : Value) (tests : List Value)
    (branches : List (List (Action Unit))) (x : σ) :
    r.run (ofClauses d tests branches) x =
      r.runAll (branches[r.entry d tests x]?.getD []) x :=
  r.runNth_ofList _ branches x

end Runtime

/-- The value of an argument, unless it stands for several. -/
def argument? (props : List String) (n : Node) : Option Value :=
  if isSpread n then none else some (staticValue props n)

set_option linter.unusedVariables false in
mutual

/-- What a method of a store does to it. -/
def change? (s : Scope) (store : Store) (method : Option String) (arguments : List Node)
    (line : Nat) : Option (Action Unit) :=
  match method, arguments with
  | some "set", [path, value] => do
    return .ofChange .storeSet store (← path.staticString?) (some (← argument? s.props value))
  | some "merge", [path, value] => do
    return .ofChange .storeMerge store (← path.staticString?) (some (← argument? s.props value))
  | some "remove", [path] => do return .ofChange .storeRemove store (← path.staticString?) none
  | some "transaction", arguments =>
    match h : Transaction.ofArguments arguments line with
    | .ok t =>
      let inner := (s.function t.params).bind t.proxy (some store)
      ((changes? inner store t.proxy t.statements).filter (!·.isEmpty)).map (.ofChanges store)
    | .error _ => none
  | _, _ => none
termination_by (weight arguments, 0)
decreasing_by exact Prod.Lex.left _ _ (Transaction.weight_statements_lt h)

/-- What the statements of a transaction do one after the other. -/
def changes? (s : Scope) (store : Store) (proxy : String) (ns : List Node) :
    Option (List (Action Unit)) :=
  match ns with
  | [] => some []
  | n :: more =>
    match h : mutationOn? proxy n with
    | some c => do
      return (← change? s store c.method c.arguments c.line) :: (← changes? s store proxy more)
    | none => changes? s store proxy more
termination_by (weight ns, 1)
decreasing_by
  · exact Prod.Lex.left _ _ (by have := weight_arguments_lt h; simp; omega)
  · exact Prod.Lex.left _ _ (by have := n.one_le_sizeOf; simp; omega)
  · exact Prod.Lex.left _ _ (by have := n.one_le_sizeOf; simp; omega)

end

theorem change?_of_transaction {s : Scope} {store : Store} {arguments : List Node} {line : Nat}
    {t : Transaction} (h : Transaction.ofArguments arguments line = .ok t) :
    change? s store (some "transaction") arguments line =
      ((changes? ((s.function t.params).bind t.proxy (some store)) store t.proxy
        t.statements).filter (!·.isEmpty)).map (.ofChanges store) := by
  rw [change?]
  split
  · rename_i t' h'
    obtain rfl : t = t' := by simpa [h] using h'
    rfl
  · simp_all

theorem changes?_of_mutation {s : Scope} {store : Store} {proxy : String} {n : Node}
    {more : List Node} {c : MethodCall} (h : mutationOn? proxy n = some c) :
    changes? s store proxy (n :: more) = (do
      return (← change? s store c.method c.arguments c.line) :: (← changes? s store proxy more)) := by
  rw [changes?]
  split
  · rename_i c' h'
    obtain rfl : c = c' := by simpa [h] using h'
    rfl
  · simp_all

theorem changes?_of_none {s : Scope} {store : Store} {proxy : String} {n : Node}
    {more : List Node} (h : mutationOn? proxy n = none) :
    changes? s store proxy (n :: more) = changes? s store proxy more := by
  rw [changes?]
  split <;> simp_all

/-- What follows a request, in the form in which it is sent with it. -/
def following? (s : Scope) (name : String) (n : Option Node) : Option (Action Unit) :=
  ((callback s name n).outcome {}).1.toOption.map Action.erase

/-- What a call does that has the shape of an action. -/
def Call.action? (s : Scope) (call : Call) (arguments : List Node) (line : Nat) :
    Option (Action Unit) :=
  match call with
  | .mutation store method => change? s store method arguments line
  | .effect .api (some "request") =>
    match Request.ofArguments arguments line s.props with
    | .ok r => do
      return .ofRequest r.payload (← following? s "onSuccess" r.onSuccess)
        (← following? s "onError" r.onError)
    | .error _ => none
  | .effect space (some method) =>
    (space.effect? method).bind fun shape =>
      (effectPayload shape (space.name ++ "." ++ method ++ "()") arguments line s.props).toOption.map
        (.ofEffect shape.kind)
  | _ => none

/-- How a statement ends that does not run into the next one. -/
inductive Exit where
  | broken
  | returned
  deriving DecidableEq

namespace Runtime

variable {σ : Type} (r : Runtime σ) (s : Scope)

def test (n : Node) (x : σ) : Bool :=
  match s.tests.condition n with
  | .ok c => r.holds c.toValue x
  | .error _ => r.dynamicTest n x

/-- Whether a clause has a test that a value equals. -/
def isMatch (d c : Node) (x : σ) : Bool :=
  match caseTest c with
  | none => false
  | some n =>
    match s.tests.operandValue d, s.tests.operandValue n with
    | .ok v, .ok w => r.equal v w x
    | _, _ => r.dynamicMatch d n x

/-- The number of the clause that a switch starts with: the first that matches, or else the
default. -/
def start (d : Node) (cases : List Node) (x : σ) : Nat :=
  let first := cases.findIdx fun c => r.isMatch s d c x
  if first < cases.length then first else cases.findIdx fun c => (caseTest c).isNone

/-- What an expression does to a state. Only actions change it. -/
def eval : Node → σ → σ
  | .parenthesized e, x => eval e x
  | .assertion e, x => eval e x
  | .container e, x => eval e x
  | .await e, x => eval e x
  | .binary operator left right, x =>
    if operator = "&&" then if r.test s left x then eval right x else x
    else if operator = "||" then if r.test s left x then x else eval right x
    else x
  | .unsupported "ternary_expression" [test, consequent, alternate] _, x =>
    if r.test s test x then eval consequent x else eval alternate x
  | .call callee arguments line, x =>
    match (s.classify callee).bind fun call => call.action? s arguments line with
    | some a => r.effect a x
    | none => x
  | _, x => x

mutual

/-- What a statement does to a state, and how it ends. -/
def exec : Node → σ → σ × Option Exit
  | .expressionStatement e, x => (r.eval s e x, none)
  | .returnStatement none, x => (x, some .returned)
  | .returnStatement (some e), x => (r.eval s e x, some .returned)
  | .breakStatement, x => (x, some .broken)
  | .block body, x => execAll body x
  | .ifStatement test consequent alternate, x =>
    if r.test s test x then exec consequent x else execOption alternate x
  | .switchStatement d cases, x =>
    match execFrom (r.start s d cases x) cases x with
    | (y, some .returned) => (y, some .returned)
    | (y, _) => (y, none)
  | .switchCase _ body, x => execAll body x
  | _, x => (x, none)

def execOption : Option Node → σ → σ × Option Exit
  | none, x => (x, none)
  | some n, x => exec n x

def execAll : List Node → σ → σ × Option Exit
  | [], x => (x, none)
  | n :: more, x =>
    match exec n x with
    | (y, none) => execAll more y
    | (y, some e) => (y, some e)

/-- Runs the clauses from the one of a number on, through to the next ones. -/
def execFrom : Nat → List Node → σ → σ × Option Exit
  | _, [], x => (x, none)
  | k + 1, _ :: more, x => execFrom k more x
  | 0, c :: more, x =>
    match exec c x with
    | (y, none) => execFrom 0 more y
    | (y, some e) => (y, some e)

end

theorem execAll_cons_of_none {n : Node} {x : σ} (h : (r.exec s n x).2 = none) (more : List Node) :
    r.execAll s (n :: more) x = r.execAll s more (r.exec s n x).1 := by
  rcases hx : r.exec s n x with ⟨y, e⟩
  rw [hx] at h
  obtain rfl : e = none := h
  simp only [execAll, hx]

theorem execAll_cons_of_some {n : Node} {x : σ} {e : Exit} (h : (r.exec s n x).2 = some e)
    (more : List Node) : r.execAll s (n :: more) x = r.exec s n x := by
  rcases hx : r.exec s n x with ⟨y, e'⟩
  rw [hx] at h
  obtain rfl : e' = some e := h
  simp only [execAll, hx]

/-- Statements that do nothing to any state do nothing one after the other. -/
theorem execAll_of_still {ns : List Node} (h : ∀ n ∈ ns, ∀ x, (r.exec s n x).1 = x) (x : σ) :
    (r.execAll s ns x).1 = x := by
  induction ns with
  | nil => rfl
  | cons n ns ih =>
    have hn := h n List.mem_cons_self x
    cases he : (r.exec s n x).2 with
    | none =>
      rw [r.execAll_cons_of_none s he, hn]
      exact ih fun m hm => h m (List.mem_cons_of_mem n hm)
    | some e => rw [r.execAll_cons_of_some s he, hn]

theorem execFrom_zero (cases : List Node) (x : σ) :
    r.execFrom s 0 cases x = r.execAll s cases x := by
  induction cases generalizing x with
  | nil => rfl
  | cons c more ih => simp only [execFrom, execAll, ih]

/-- What a function does to a state. -/
def call : Node → σ → σ
  | .block body, x => (r.execAll s body x).1
  | e, x => r.eval s e x

end Runtime

end Scenario

import Scenario.Proofs.ShortForms

namespace Scenario

open Syntax
open Syntax.Node (inFull inFull_eq_recast unwrap_inFull)
open Callee (lawful_fullForms)

theorem plainArguments_inFull (call : String) (arguments : List Node) (line : Nat) :
    plainArguments call (arguments.map inFull) line =
      (List.map inFull) <$> plainArguments call arguments line := by
  rw [inFull_eq_recast, plainArguments_recast]

@[simp] theorem Store.ofArguments_inFull (arguments : List Node) (line : Nat) (props : List String) :
    Store.ofArguments (arguments.map inFull) line props = Store.ofArguments arguments line props := by
  rw [inFull_eq_recast, Store.ofArguments_recast]

namespace Scope

variable (s : Scope)

@[simp] theorem hoistStatement_inFull (n : Node) : s.hoistStatement n.inFull = s.hoistStatement n := by
  rw [inFull_eq_recast, hoistStatement_recast lawful_fullForms]

@[simp] theorem hoist_inFull (ns : List Node) : s.hoist (ns.map inFull) = s.hoist ns := by
  rw [inFull_eq_recast, hoist_recast lawful_fullForms]

@[simp] theorem function_inFull (params : List Node) :
    s.function (params.map inFull) = s.function params := by
  rw [inFull_eq_recast, function_recast]

@[simp] theorem within_inFull (n : Node) : s.within n.inFull = s.within n := by
  rw [inFull_eq_recast, within_recast lawful_fullForms]

theorem classifyMethod_inFull (receiver : Node) (method : Option String) :
    s.classifyMethod receiver.inFull method = s.classifyMethod receiver method := by
  rw [inFull_eq_recast, classifyMethod_recast lawful_fullForms]

end Scope

@[simp] theorem functionOf?_inFull (n : Node) :
    functionOf? n.inFull = (functionOf? n).map fun (params, body) => (params.map inFull, body.inFull) := by
  rw [inFull_eq_recast, functionOf?_recast]

@[simp] theorem handler?_inFull (n : Node) :
    handler? n.inFull = (handler? n).map fun (params, body) => (params.map inFull, body.inFull) := by
  rw [inFull_eq_recast, handler?_recast]

/-- A request whose callbacks are in full. -/
def Request.inFull (r : Request) : Request :=
  { r with onSuccess := r.onSuccess.map Node.inFull, onError := r.onError.map Node.inFull }

theorem Request.ofArguments_inFull (arguments : List Node) (line : Nat) (props : List String) :
    Request.ofArguments (arguments.map Node.inFull) line props =
      Request.inFull <$> Request.ofArguments arguments line props := by
  unfold Request.inFull
  rw [inFull_eq_recast, Request.ofArguments_recast]
  rfl

/-- A transaction whose parameters and statements are in full. -/
def Transaction.inFull (t : Transaction) : Transaction :=
  { t with params := t.params.map Node.inFull, statements := t.statements.map Node.inFull }

theorem Transaction.ofArguments_inFull (arguments : List Node) (line : Nat) :
    ofArguments (arguments.map Node.inFull) line =
      Transaction.inFull <$> ofArguments arguments line := by
  unfold Transaction.inFull
  rw [inFull_eq_recast, Transaction.ofArguments_recast]
  rfl

/-- A call of a method whose arguments are in full. -/
def MethodCall.inFull (c : MethodCall) : MethodCall :=
  { c with arguments := c.arguments.map Node.inFull }

/-- A short form is no method of a store. -/
theorem methodOn?_inFull (proxy : String) (n : Node) :
    methodOn? proxy n.inFull = (methodOn? proxy n).map MethodCall.inFull := by
  cases n with
  | call callee arguments line =>
    simp only [Node.inFull, methodOn?, Node.inFullAll_eq_map]
    rcases Callee.method?_callee callee with h | ⟨hnone, space, method, hmem, h⟩
    · rw [h]
      cases Callee.method? callee with
      | none => rfl
      | some m =>
        obtain ⟨receiver, method⟩ := m
        cases receiver with
        | identifier name =>
          cases method with
          | none => rfl
          | some method =>
            simp only [Option.map_some, Node.inFull]
            split <;> rfl
        | _ => rfl
    · have hmethod := (methods_of_mem_shortMethods method hmem).1
      simp [h, hnone, Option.isNone_iff_eq_none.1 hmethod]
  | _ => rfl

theorem mutationOn?_inFull (proxy : String) (n : Node) :
    mutationOn? proxy n.inFull = (mutationOn? proxy n).map MethodCall.inFull := by
  cases n with
  | expressionStatement e =>
    have hcall := methodOn?_inFull proxy e.unwrap
    simp only [Node.inFull, mutationOn?, unwrap_inFull]
    cases he : e.unwrap with
    | await argument =>
      simp only [Node.inFull, unwrap_inFull]
      exact methodOn?_inFull proxy argument.unwrap
    | _ =>
      rw [he] at hcall
      exact hcall
  | _ => rfl

theorem caseBody_inFull (c : Node) : caseBody c.inFull = (caseBody c).map inFull := by
  rw [inFull_eq_recast, caseBody_recast]

theorem caseFlow?_inFull (ns : List Node) :
    caseFlow? (ns.map inFull) =
      (caseFlow? ns).map fun (run, leaves) => (run.map inFull, leaves) := by
  rw [inFull_eq_recast, caseFlow?_recast]

theorem caseRun?_inFull (cs : List Node) :
    caseRun? (cs.map inFull) = (caseRun? cs).map (List.map inFull) := by
  rw [inFull_eq_recast, caseRun?_recast]

section Acts

variable {s : Scope}

@[simp] theorem conditionalAct_inFull (test : Node) (as bs : List Act) :
    conditionalAct s test.inFull as bs = conditionalAct s test as bs := by
  rw [inFull_eq_recast, conditionalAct_recast lawful_fullForms]

theorem switchAct_inFull (discriminant : Node) (cases : List Node) (branches : List (List Act)) :
    switchAct s discriminant.inFull (cases.map inFull) branches =
      switchAct s discriminant cases branches := by
  rw [inFull_eq_recast, switchAct_recast lawful_fullForms]

@[simp] theorem effectAct_inFull (space : Namespace) (method : Option String) (arguments : List Node)
    (line : Nat) :
    effectAct s space method (arguments.map inFull) line = effectAct s space method arguments line := by
  rw [inFull_eq_recast, effectAct_recast]

theorem mutationAct_inFull (kind : ActionKind) (store : Store) (call : String) (arguments : List Node)
    (line : Nat) :
    mutationAct s kind store call (arguments.map inFull) line =
      mutationAct s kind store call arguments line := by
  rw [inFull_eq_recast, mutationAct_recast]

end Acts

end Scenario

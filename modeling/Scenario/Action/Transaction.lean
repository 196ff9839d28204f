import Scenario.Scope
import Scenario.Syntax.Weight

namespace Scenario

open Syntax

/-- Statements with the statements of the blocks among them in their places. -/
def flatten : List Node → List Node
  | [] => []
  | .block body :: more => flatten body ++ flatten more
  | n :: more => n :: flatten more

/-- The statements of a function's body; an expression counts as one. -/
def bodyStatements : Node → List Node
  | .block body => flatten body
  | e => [.expressionStatement e]

/-- A function that changes a store, by the name that stands for the store. -/
structure Transaction where
  proxy : String
  params : List Node
  statements : List Node

namespace Transaction

def ofFunction (line : Nat) (params : List Node) (body : Node) : Reading Transaction :=
  match params with
  | .identifier proxy :: _ => .ok { proxy, params, statements := bodyStatements body }
  | _ => refuse .transactionParameter line

def ofArguments (arguments : List Node) (line : Nat) : Reading Transaction :=
  match arguments with
  | [a] =>
    match a.unwrap with
    | .arrow params body _ => ofFunction line params body
    | .function _ params body _ => ofFunction line params body
    | _ => refuse .transactionNotFunction line
  | _ => refuse .transactionArguments line

end Transaction

structure MethodCall where
  method : Option String
  arguments : List Node
  line : Nat

/-- The call of one of the methods of a store that an expression is, where the given name stands for
the store. -/
def methodOn? (proxy : String) : Node → Option MethodCall
  | .call callee arguments line =>
    match Callee.method? callee with
    | some (.identifier name, some method) =>
      if name = proxy ∧ (storeMethod? method).isSome then
        some { method := some method, arguments, line }
      else none
    | _ => none
  | _ => none

/-- The call that a statement consists of, awaited perhaps. -/
def mutationOn? (proxy : String) : Node → Option MethodCall
  | .expressionStatement e =>
    match e.unwrap with
    | .await argument => methodOn? proxy argument.unwrap
    | n => methodOn? proxy n
  | _ => none

theorem weight_flatten_le (ns : List Node) : weight (flatten ns) ≤ weight ns := by
  fun_induction flatten ns with
  | case1 => simp
  | case2 body more ih₁ ih₂ =>
    have := weight_lt_sizeOf body
    simp
    omega
  | case3 n more _ ih => simp; omega

theorem weight_bodyStatements_le (n : Node) : weight (bodyStatements n) ≤ sizeOf n + 1 := by
  unfold bodyStatements
  split
  · rename_i body
    have := weight_flatten_le body
    have := weight_lt_sizeOf body
    simp
    omega
  · simp
    omega

namespace Transaction

theorem weight_statements_of_ofFunction {line : Nat} {params : List Node} {body : Node}
    {t : Transaction} (h : ofFunction line params body = .ok t) :
    weight t.statements < sizeOf params + sizeOf body := by
  unfold ofFunction at h
  split at h
  · cases h
    have := weight_bodyStatements_le body
    simp
    omega
  · cases h

theorem weight_statements_lt {arguments : List Node} {line : Nat} {t : Transaction}
    (h : ofArguments arguments line = .ok t) : weight t.statements < weight arguments := by
  unfold ofArguments at h
  split at h
  · rename_i a
    have hle := a.sizeOf_unwrap_le
    split at h
    · rename_i params body _ hu
      have := weight_statements_of_ofFunction h
      simp [hu] at hle ⊢
      omega
    · rename_i params body _ hu
      have := weight_statements_of_ofFunction h
      simp [hu] at hle ⊢
      omega
    · cases h
  · cases h

end Transaction

theorem weight_arguments_of_methodOn? {proxy : String} {n : Node} {c : MethodCall}
    (h : methodOn? proxy n = some c) : weight c.arguments < sizeOf n := by
  unfold methodOn? at h
  split at h
  · rename_i callee arguments line
    have := weight_lt_sizeOf arguments
    split at h
    · split at h
      · cases h
        simp
        omega
      · cases h
    · cases h
  · cases h

theorem weight_arguments_lt {proxy : String} {n : Node} {c : MethodCall}
    (h : mutationOn? proxy n = some c) : weight c.arguments < sizeOf n := by
  unfold mutationOn? at h
  split at h
  · rename_i e
    have hle := e.sizeOf_unwrap_le
    split at h
    · rename_i argument hu
      have := argument.sizeOf_unwrap_le
      have := weight_arguments_of_methodOn? h
      simp [hu] at hle ⊢
      omega
    · have := weight_arguments_of_methodOn? h
      simp
      omega
  · cases h

end Scenario

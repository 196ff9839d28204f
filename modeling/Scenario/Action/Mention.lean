import Scenario.Scope
import Scenario.Syntax.Weight

namespace Scenario

open Syntax

mutual

/-- Whether a call that is an action occurs anywhere under a node. -/
def mentions (s : Scope) (n : Node) : Bool :=
  s.isActionCall n || mentionsAny (s.within n) n.children
termination_by (sizeOf n, 0)
decreasing_by exact Prod.Lex.left _ _ n.weight_children_lt

def mentionsAny (s : Scope) (ns : List Node) : Bool :=
  match ns with
  | [] => false
  | n :: more => mentions s n || mentionsAny s more
termination_by (weight ns, 1)
decreasing_by
  · by_cases h : weight more = 0
    · simp [h, Prod.lex_def]
    · refine Prod.Lex.left _ _ ?_; simp; omega
  · refine Prod.Lex.left _ _ ?_; have := n.one_le_sizeOf; simp; omega

end

mutual

/-- The line of the first function under a node that has actions in it. What is passed to an action
is looked at with the action and does not count. -/
def nestedFunction? (s : Scope) (n : Node) : Option Nat :=
  if s.isActionCall n then none
  else
    match n with
    | .arrow params body line =>
      if mentions (s.function params) body then some line else none
    | .function _ params body line =>
      if mentions (s.function params) body then some line else none
    | n => firstNestedFunction? (s.within n) n.children
termination_by (sizeOf n, 0)
decreasing_by exact Prod.Lex.left _ _ n.weight_children_lt

def firstNestedFunction? (s : Scope) (ns : List Node) : Option Nat :=
  match ns with
  | [] => none
  | n :: more =>
    match nestedFunction? s n with
    | some line => some line
    | none => firstNestedFunction? s more
termination_by (weight ns, 1)
decreasing_by
  · by_cases h : weight more = 0
    · simp [h, Prod.lex_def]
    · refine Prod.Lex.left _ _ ?_; simp; omega
  · refine Prod.Lex.left _ _ ?_; have := n.one_le_sizeOf; simp; omega

end

end Scenario

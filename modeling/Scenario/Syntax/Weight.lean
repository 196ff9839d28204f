import Scenario.Syntax.View

namespace Scenario.Syntax

/-- The sizes of nodes together. -/
noncomputable def weight : List Node → Nat
  | [] => 0
  | n :: more => sizeOf n + weight more

@[simp] theorem weight_nil : weight [] = 0 := rfl

@[simp] theorem weight_cons (n : Node) (more : List Node) :
    weight (n :: more) = sizeOf n + weight more := rfl

@[simp] theorem weight_append (ms ns : List Node) : weight (ms ++ ns) = weight ms + weight ns := by
  induction ms with
  | nil => simp
  | cons m more ih => simp [ih, Nat.add_assoc]

theorem weight_lt_sizeOf (ns : List Node) : weight ns < sizeOf ns := by
  induction ns with
  | nil => simp
  | cons n more ih => simp; omega

theorem weight_toList_lt_sizeOf (n : Option Node) : weight n.toList < sizeOf n := by
  cases n <;> simp

theorem weight_filter_le (p : Node → Bool) (ns : List Node) : weight (ns.filter p) ≤ weight ns := by
  induction ns with
  | nil => simp
  | cons n more ih => by_cases h : p n <;> simp [h] <;> omega

namespace Node

theorem one_le_sizeOf (n : Node) : 1 ≤ sizeOf n := by cases n <;> simp <;> omega

theorem weight_fields_lt (n : Node) : weight n.fields < sizeOf n := by
  cases n <;> simp [fields] <;>
    (try have h₁ := weight_lt_sizeOf ‹List Node›) <;>
    (try have h₂ := weight_toList_lt_sizeOf ‹Option Node›) <;>
    (try omega)
  case element attributes children line =>
    have h₁ := weight_lt_sizeOf attributes
    have h₂ := weight_lt_sizeOf children
    omega

theorem weight_children_lt (n : Node) : weight n.children < sizeOf n :=
  Nat.lt_of_le_of_lt (weight_filter_le _ _) n.weight_fields_lt

end Node

end Scenario.Syntax

import Scenario.Store

namespace Scenario

/-- One side of a comparison: a value, or what a store holds at a path. -/
inductive Operand where
  | value (v : Value)
  | read (scope : Lifetime) (storage : Storage) (keyPath : String)
  deriving Repr

inductive Comparison where
  | equals
  | notEquals
  | greaterThan
  | lessThan
  | greaterThanOrEqual
  | lessThanOrEqual
  | contains
  | startsWith
  | endsWith
  deriving DecidableEq, Repr

inductive Junction where
  | and
  | or
  deriving DecidableEq, Repr

inductive Condition where
  | compare (comparison : Comparison) (left right : Operand)
  | joined (junction : Junction) (conditions : List Condition)
  | not (condition : Condition)
  | truthy (operand : Operand)
  deriving Repr

namespace Comparison

def name : Comparison → String
  | .equals => "equals"
  | .notEquals => "notEquals"
  | .greaterThan => "greaterThan"
  | .lessThan => "lessThan"
  | .greaterThanOrEqual => "greaterThanOrEqual"
  | .lessThanOrEqual => "lessThanOrEqual"
  | .contains => "contains"
  | .startsWith => "startsWith"
  | .endsWith => "endsWith"

def ofOperator? : String → Option Comparison
  | "===" | "==" => some .equals
  | "!==" | "!=" => some .notEquals
  | ">" => some .greaterThan
  | "<" => some .lessThan
  | ">=" => some .greaterThanOrEqual
  | "<=" => some .lessThanOrEqual
  | _ => none

def ofMethod? : String → Option Comparison
  | "includes" => some .contains
  | "startsWith" => some .startsWith
  | "endsWith" => some .endsWith
  | _ => none

end Comparison

namespace Junction

def name : Junction → String
  | .and => "and"
  | .or => "or"

def ofOperator? : String → Option Junction
  | "&&" => some .and
  | "||" => some .or
  | _ => none

end Junction

namespace Operand

def toValue : Operand → Value
  | .value v => v
  | .read scope storage keyPath =>
    .object
      [("type", .string "store"), ("scope", .string scope.name), ("storage", .string storage.name),
       ("keyPath", .string keyPath)]

end Operand

namespace Condition

mutual

def toValue : Condition → Value
  | .compare c left right =>
    .object [("type", .string c.name), ("left", left.toValue), ("right", right.toValue)]
  | .joined j conditions =>
    .object [("type", .string j.name), ("conditions", .list (listValue conditions))]
  | .not c => .object [("type", .string "not"), ("condition", c.toValue)]
  | .truthy x => .object [("type", .string "truthy"), ("value", x.toValue)]

def listValue : List Condition → List Value
  | [] => []
  | c :: more => c.toValue :: listValue more

end

/-- The members that a condition brings to a junction: those of its own kind are not nested. -/
def members (j : Junction) : Condition → List Condition
  | .joined k conditions => if k = j then conditions else [.joined k conditions]
  | c => [c]

def join (j : Junction) (c d : Condition) : Condition := .joined j (c.members j ++ d.members j)

end Condition

end Scenario

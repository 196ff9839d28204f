import Scenario.Syntax.Node

namespace Scenario.Syntax

structure Operand where
  node : Node
  line : Nat

/-- An operator that waits for the end of its right operand. -/
inductive Pending where
  | unary (operator : String) (line : Nat)
  | update (line : Nat)
  | await (line : Nat)
  | binary (left : Operand) (operator : String)

/-- How tightly an operator between two operands binds. -/
def level? : String → Option Nat
  | "**" => some 12
  | "*" | "/" | "%" => some 11
  | "+" | "-" => some 10
  | "<<" | ">>" | ">>>" => some 9
  | "<" | "<=" | ">" | ">=" | "in" | "instanceof" => some 8
  | "==" | "===" | "!=" | "!==" => some 7
  | "&" => some 6
  | "^" => some 5
  | "|" => some 4
  | "&&" => some 3
  | "||" => some 2
  | "??" => some 1
  | _ => none

/-- A sign in front of a numeral belongs to the number. -/
def signed (operator : String) (argument : Node) : Node :=
  match operator, argument with
  | "-", .number n => .number n.neg
  | "+", .number n => .number n
  | _, _ => .unary operator argument

namespace Pending

def level : Pending → Nat
  | .binary _ operator => (level? operator).getD 0
  | _ => 13

/-- Whether a type assertion behind the operand belongs to the operand alone. -/
def yields : Pending → Bool
  | .await _ => true
  | .binary _ operator => operator == "**"
  | _ => false

/-- Whether an operator of the given name behind the operand leaves this one waiting. -/
def waits (next : String) (p : Pending) : Bool :=
  match level? next with
  | some n => p.level < n || (next == "**" && p.level == n)
  | none => false

/-- The expression that an operator makes of its right operand. -/
def close (p : Pending) (right : Operand) : Operand :=
  match p with
  | .unary operator line => ⟨signed operator right.node, line⟩
  | .update line => ⟨.unsupported "update_expression" [right.node] line, line⟩
  | .await line => ⟨.await right.node, line⟩
  | .binary left operator => ⟨.binary operator left.node right.node, left.line⟩

end Pending

/-- An expression that is read up to some place: what waits, the last first, and the operand behind
it, if that has been read. -/
structure Unfinished where
  pending : List Pending
  operand : Option Operand

namespace Unfinished

def start : Unfinished := ⟨[], none⟩

/-- Closes what waits as long as it does not go on waiting. -/
def closeUntil (waits : Pending → Bool) : List Pending → Operand → List Pending × Operand
  | [], x => ([], x)
  | p :: more, x => if waits p then (p :: more, x) else closeUntil waits more (p.close x)

def finish (u : Unfinished) : Option Operand :=
  u.operand.map fun x => (closeUntil (fun _ => false) u.pending x).2

/-- Adds an operator behind the operand. -/
def push (u : Unfinished) (x : Operand) (operator : String) : Unfinished :=
  let (pending, left) := closeUntil (·.waits operator) u.pending x
  ⟨.binary left operator :: pending, none⟩

/-- Puts a type assertion on what it reaches to the left. -/
def assert (u : Unfinished) (x : Operand) : Unfinished :=
  let (pending, y) := closeUntil (·.yields) u.pending x
  ⟨pending, some ⟨.assertion y.node, y.line⟩⟩

end Unfinished

end Scenario.Syntax

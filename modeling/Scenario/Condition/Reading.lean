import Scenario.Action.Arguments
import Scenario.Condition

namespace Scenario

open Syntax

/-- What a test can refer to. -/
structure TestContext where
  props : List String
  /-- The store that an expression refers to. -/
  store? : Node → Option Store
  /-- The line of the test, for messages. -/
  line : Option Nat := none

namespace TestContext

variable (t : TestContext)

/-- The store and the arguments of a call that reads a store. -/
def readStore? : Node → Option (Store × List Node × Nat)
  | .call callee arguments line =>
    match Callee.method? callee with
    | some (receiver, some "get") => (t.store? receiver).map fun s => (s, arguments, line)
    | _ => none
  | _ => none

def read (s : Store) (arguments : List Node) (line : Nat) : Reading Operand :=
  match onlyArgument? arguments with
  | none => refuse (.onlyKeyPath "store.get()") line
  | some a =>
    match a.staticString? with
    | some keyPath => .ok (.read s.scope s.storage keyPath)
    | none => refuse (.dynamicKeyPath "store.get()") line

/-- The value of an operand that is no read: a literal, a prop or `undefined`. -/
def literal? (n : Node) : Option Value :=
  match n with
  | .string _ | .number _ | .boolean _ | .null | .object _ | .array _ =>
    some (staticValue t.props n)
  | .template .. => n.staticString?.map .string
  | .identifier name =>
    if name = "undefined" then some .null
    else if name ∈ t.props then some (staticValue t.props n)
    else none
  | _ => none

def operand (n : Node) : Reading Operand :=
  match t.readStore? n.unwrap with
  | some (s, arguments, line) => read s arguments line
  | none =>
    match t.literal? n.unwrap with
    | some v => .ok (.value v)
    | none => .error ⟨.dynamicOperand, t.line⟩

/-- The membership test that a call makes: its comparison, its receiver and its arguments. -/
def membership? (callee : Node) : Option (Comparison × String × Node) :=
  match Callee.method? callee with
  | some (receiver, some method) =>
    (Comparison.ofMethod? method).map fun c => (c, method, receiver)
  | _ => none

def compare (c : Comparison) (left right : Node) : Reading Condition := do
  let left ← t.operand left
  let right ← t.operand right
  return .compare c left right

def truthy (n : Node) : Reading Condition := do return .truthy (← t.operand n)

def condition : Node → Reading Condition
  | .parenthesized e => condition e
  | .assertion e => condition e
  | .container e => condition e
  | .binary operator left right =>
    match Comparison.ofOperator? operator, Junction.ofOperator? operator with
    | some c, _ => t.compare c left right
    | none, some j => do
      let left ← condition left
      let right ← condition right
      return left.join j right
    | none, none => t.truthy (.binary operator left right)
  | .unary operator argument =>
    if operator = "!" then do return .not (← condition argument)
    else t.truthy (.unary operator argument)
  | .call callee arguments line =>
    match membership? callee with
    | some (c, method, receiver) =>
      match onlyArgument? arguments with
      | some a => t.compare c receiver a
      | none => refuse (.membershipArguments method) line
    | none => t.truthy (.call callee arguments line)
  | n => t.truthy n

end TestContext

end Scenario

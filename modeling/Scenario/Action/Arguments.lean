import Scenario.Action.Callee
import Scenario.Action.Refusal
import Scenario.StaticValue

namespace Scenario

open Syntax

def isSpread : Node → Bool
  | .spread _ => true
  | _ => false

/-- Arguments without spread ones. -/
def plainArguments (call : String) (arguments : List Node) (line : Nat) : Reading (List Node) :=
  if arguments.any isSpread then refuse (.spreadArguments call) line else .ok arguments

def plainMembers (call : String) (line : Nat) : List Node → Fields Node → Reading (Fields Node)
  | [], acc => .ok acc
  | .property key value :: more, acc => plainMembers call line more (acc.put (memberName key) value)
  | _ :: _, _ => refuse (.spreadMembers call) line

/-- The members of an expression that is an object literal, in wrappers perhaps. -/
def objectMembers? (n : Node) : Option (List Node) :=
  match n.unwrap with
  | .object members => some members
  | _ => none

/-- The only argument, if it is neither missing nor a spread one. -/
def onlyArgument? : List Node → Option Node
  | [a] => if isSpread a then none else some a
  | _ => none

/-- The value of a named argument. The content of a share is an object, so a text alone is put
into one. -/
def argumentValue (call : String) (line : Nat) (props : List String) (name : String) (argument : Node) :
    Reading Value :=
  if name = "screenId" ∨ name = "style" then
    match argument.staticString? with
    | some text => .ok (.string text)
    | none => refuse (.dynamicArgument call name) line
  else
    let value := staticValue props argument
    if name = "content" ∧ value.plainObject?.isNone then .ok (.object [("text", value)])
    else .ok value

/-- Puts the values of leading arguments into a payload. -/
def positionalValues (call : String) (line : Nat) (props : List String) :
    List (String × Node) → Fields Value → Reading (Fields Value)
  | [], acc => .ok acc
  | (name, argument) :: more, acc => do
    let value ← argumentValue call line props name argument
    positionalValues call line props more (acc.put name value)

def effectPayload (shape : EffectShape) (call : String) (arguments : List Node) (line : Nat)
    (props : List String) : Reading (Fields Value) := do
  let arguments ← plainArguments call arguments line
  if arguments.length < shape.required then
    refuse (.missingArguments call (shape.positional.take shape.required)) line
  if shape.accepted < arguments.length then refuse (.excessArguments call shape.accepted) line
  let fixed := shape.fixed.map fun (name, text) => (name, Value.string text)
  let payload ← positionalValues call line props (shape.positional.zip arguments) fixed
  match shape.options, arguments.getLast? with
  | some name, some last =>
    if arguments.length = shape.accepted then
      match objectMembers? last with
      | some members =>
        let options ← plainMembers call line members []
        return payload.overlay (options.map fun (key, value) => (key, staticValue props value))
      | none => refuse (.dynamicOptions call name) line
    else return payload
  | _, _ => return payload

end Scenario

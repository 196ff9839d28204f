import Scenario.Syntax.View
import Scenario.Value

namespace Scenario

open Syntax

/-- The name of an object literal's member. A key that is neither an identifier nor a string has one
name for all, and an empty key has a name of its own. -/
def memberName (key : Node) : String :=
  match key with
  | .identifier name => if name = "" then "unknown" else name
  | .string s => if s = "" then "unknown" else s
  | _ => "[object Object]"

mutual

/-- The value of an expression inside a component with the given props. -/
def staticValue (props : List String) : Node → Value
  | .string s => .string s
  | .number n => .number n
  | .boolean b => .bool b
  | .identifier name => if name ≠ "" ∧ name ∈ props then .propRef name else .null
  | .container e => staticValue props e
  | .parenthesized e => staticValue props e
  | .assertion e => staticValue props e
  | .object members => .object (staticMembers props members [])
  | .array elements => .list (staticElements props elements)
  | _ => .null

/-- Assigns the plain members of an object literal, in order; all others are passed over. -/
def staticMembers (props : List String) : List Node → Fields Value → Fields Value
  | [], acc => acc
  | .property key value :: rest, acc =>
    staticMembers props rest (acc.put (memberName key) (staticValue props value))
  | _ :: rest, acc => staticMembers props rest acc

/-- A spread element leaves a null in its place. -/
def staticElements (props : List String) : List Node → List Value
  | [] => []
  | .spread _ :: rest => .null :: staticElements props rest
  | e :: rest => staticValue props e :: staticElements props rest

end

end Scenario

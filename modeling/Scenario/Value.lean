import Scenario.Fields
import Scenario.Number
import Scenario.Text.Quoted

namespace Scenario

inductive Value where
  | null
  | bool (b : Bool)
  | number (n : Number)
  | string (s : String)
  | list (items : List Value)
  | object (fields : List (String × Value))
  deriving Inhabited, Repr

namespace Value

def int (n : Int) : Value := .number (.int n)

def nat (n : Nat) : Value := .int n

def propRef (key : String) : Value := .object [("type", .string "prop"), ("key", .string key)]

/-- An object of exactly the members `type` and `key`, in either order, whose type is `prop`. -/
def isPropRef : Value → Bool
  | .object [("type", .string "prop"), ("key", _)] => true
  | .object [("key", _), ("type", .string "prop")] => true
  | _ => false

@[simp] theorem isPropRef_propRef (key : String) : (propRef key).isPropRef = true := rfl

/-- The members of an object that is no prop reference. -/
def plainObject? : Value → Option (Fields Value)
  | .object fs => if (Value.object fs).isPropRef then none else some fs
  | _ => none

def string? : Value → Option String
  | .string s => some s
  | _ => none

/-- Whether a value counts as true: it is not null, false, zero or empty. -/
def truthy : Value → Bool
  | .null => false
  | .bool b => b
  | .number n => !n.isZero
  | .string s => s != ""
  | .list items => !items.isEmpty
  | .object fs => !fs.isEmpty

mutual

/-- Replaces the numbers that a document cannot hold, infinities and not-a-number, by null. -/
def portable : Value → Value
  | .number (.float x) => if x.isFinite then .number (.float x) else .null
  | .list items => .list (portableItems items)
  | .object fs => .object (portableFields fs)
  | v => v

def portableItems : List Value → List Value
  | [] => []
  | v :: rest => v.portable :: portableItems rest

def portableFields : List (String × Value) → List (String × Value)
  | [] => []
  | (k, v) :: rest => (k, v.portable) :: portableFields rest

end

mutual

def shown : Value → String
  | .null => "None"
  | .bool b => if b then "True" else "False"
  | .number n => n.text
  | .string s => Text.quoted s
  | .list items => "[" ++ ", ".intercalate (shownItems items) ++ "]"
  | .object fs => "\x7b" ++ ", ".intercalate (shownFields fs) ++ "\x7d"

def shownItems : List Value → List String
  | [] => []
  | v :: rest => v.shown :: shownItems rest

def shownFields : List (String × Value) → List String
  | [] => []
  | (k, v) :: rest => (Text.quoted k ++ ": " ++ v.shown) :: shownFields rest

end

/-- A value inside a message: a text stands for itself. -/
def inMessage : Value → String
  | .string s => s
  | v => v.shown

end Value

end Scenario

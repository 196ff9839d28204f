import Scenario.Value

namespace Scenario

/-- A member of a record: never assigned, assigned null, or assigned a value. -/
inductive Slot (α : Type) where
  | unset
  | null
  | set (a : α)
  deriving DecidableEq, Repr

namespace Slot

variable {α β : Type}

def value? : Slot α → Option α
  | .set a => some a
  | _ => none

/-- What is written for a slot; an unset one is left out. -/
def toValue? (f : α → Value) : Slot α → Option Value
  | .unset => none
  | .null => some .null
  | .set a => some (f a)

end Slot

inductive Lifetime where
  | app
  | scenario
  deriving DecidableEq, Repr

namespace Lifetime

def all : List Lifetime := [.app, .scenario]

def name : Lifetime → String
  | .app => "app"
  | .scenario => "scenario"

def ofName? (s : String) : Option Lifetime := all.find? (·.name == s)

end Lifetime

inductive Storage where
  | memory
  | userPrefs
  | file
  | backend
  deriving DecidableEq, Repr

namespace Storage

def all : List Storage := [.memory, .userPrefs, .file, .backend]

def name : Storage → String
  | .memory => "memory"
  | .userPrefs => "userPrefs"
  | .file => "file"
  | .backend => "backend"

def ofName? (s : String) : Option Storage := all.find? (·.name == s)

end Storage

structure Store where
  scope : Lifetime
  storage : Storage
  initialValue : Slot (Fields Value) := .unset
  deriving Repr

namespace Store

def toValue (s : Store) : Value :=
  .object <| Fields.present
    [("scope", some (.string s.scope.name)), ("storage", some (.string s.storage.name)),
     ("initialValue", s.initialValue.toValue? .object)]

end Store

end Scenario

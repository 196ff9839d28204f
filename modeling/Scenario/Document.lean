import Scenario.Action
import Scenario.Component
import Scenario.Diagnostic

namespace Scenario

/-- What is found in a program, before it is checked. -/
structure Parts (ι : Type) where
  key : Option String := none
  version : String := "1.0.0"
  buildNumber : Int := 1
  main : Option Component := none
  /-- The components in the order of the source; a name may occur twice. -/
  components : List (String × Component) := []
  stores : List Store := []
  actions : List (Action ι) := []

/-- A compiled scenario with the warnings of its compile, which are no part of the document. -/
structure Document (ι : Type) where
  key : String
  version : String
  buildNumber : Int
  main : Component
  components : Fields Component
  stores : List Store
  actions : List (Action ι)
  warnings : List Diagnostic := []

namespace Document

variable {ι : Type}

/-- A list as a member, unless it is empty. -/
def list? (items : List Value) : Option Value := if items.isEmpty then none else some (.list items)

/-- The document as a value, given how identifiers are written. -/
def toValue (write : ι → String) (d : Document ι) : Value :=
  .object <| Fields.present
    [("key", some (.string d.key)), ("version", some (.string d.version)),
     ("buildNumber", some (.int d.buildNumber)), ("main", some d.main.toValue),
     ("components", some (.object (d.components.map fun (name, c) => (name, c.toValue)))),
     ("stores", list? (d.stores.map (·.toValue))),
     ("actions", list? (d.actions.map (·.toValue write)))]

end Document

end Scenario

import Scenario.Action.Kind
import Scenario.Store

namespace Scenario

structure Action (ι : Type) where
  id : ι
  kind : ActionKind
  scope : Slot Lifetime := .unset
  storage : Slot Storage := .unset
  keyPath : Slot String := .unset
  value : Option Value := none
  actions : Slot (List (Action ι)) := .unset
  deriving Repr

inductive ShapeError where
  | storeMissing (kind : ActionKind)
  | actionsMissing (kind : ActionKind)
  | actionsUnexpected (kind : ActionKind)
  deriving DecidableEq, Repr

def ShapeError.message : ShapeError → String
  | .storeMissing kind => kind.name ++ " requires scope and storage"
  | .actionsMissing kind => kind.name ++ " requires an actions list"
  | .actionsUnexpected kind => kind.name ++ " cannot carry nested actions"

namespace Action

variable {ι : Type}

/-- Checks the members of an action, not of those inside it: a store action names its store, and just
the composite ones have a list of actions. -/
def shapeError? (a : Action ι) : Option ShapeError :=
  if a.kind.isStore && (a.scope.value?.isNone || a.storage.value?.isNone) then
    some (.storeMissing a.kind)
  else if a.kind.isComposite && a.actions.value?.isNone then some (.actionsMissing a.kind)
  else if !a.kind.isComposite && a.actions.value?.isSome then some (.actionsUnexpected a.kind)
  else none

mutual

/-- An action as a document writes it: only the members that are set. -/
def toValue (write : ι → String) : Action ι → Value
  | ⟨id, kind, scope, storage, keyPath, value, actions⟩ =>
    .object <| Fields.present
      [("id", some (.string (write id))), ("type", some (.string kind.name)),
       ("scope", scope.toValue? fun s => .string s.name),
       ("storage", storage.toValue? fun s => .string s.name),
       ("keyPath", keyPath.toValue? .string), ("value", value),
       ("actions", slotValue write actions)]

def slotValue (write : ι → String) : Slot (List (Action ι)) → Option Value
  | .unset => none
  | .null => some .null
  | .set actions => some (.list (listValue write actions))

def listValue (write : ι → String) : List (Action ι) → List Value
  | [] => []
  | a :: more => a.toValue write :: listValue write more

end

end Action

end Scenario

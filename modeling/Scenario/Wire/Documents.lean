import Scenario.Document
import Scenario.Json.Printer
import Scenario.Json.Reader
import Scenario.Wire.Decoding

namespace Scenario

open Wire

namespace Store

def ofFields (fs : Fields Value) : Decoded Store :=
  (fun (scope, storage, initialValue) => { scope, storage, initialValue }) <$>
    (required "scope" (listed Lifetime.ofName?) fs).both
      ((required "storage" (listed Storage.ofName?) fs).both
        (slot ⟨"initialValue", "initial_value"⟩ Wire.fields fs))

def ofValue : Decoder Store
  | .object fs => ofFields fs
  | _ => .fail .notRecord

def dump (s : Store) : Value := s.toValue.portable

end Store

namespace Component

/-- A member of a component that is a record and counts as absent if it is empty. -/
def recordMember (name : String) (fs : Fields Value) : Decoded (Fields Value) :=
  defaulted name [] Wire.fields (withoutEmpty [name] fs)

mutual

def ofValue : Value → Decoded Component
  | .object fs =>
    (fun (type, style, properties, children) => { type, style, properties, children }) <$>
      (required "type" text fs).both
        ((recordMember "style" fs).both
          ((recordMember "properties" fs).both (childrenMember fs)))
  | _ => .fail .notRecord

def childrenMember : List (String × Value) → Decoded (List Component)
  | [] => .ok []
  | (name, v) :: rest =>
    if name = "children" then (childrenOf v).within (.member "children") else childrenMember rest

/-- The children of a component; an empty value stands for none. -/
def childrenOf : Value → Decoded (List Component)
  | .list items => componentsFrom 0 items
  | v => if v.truthy then .fail .notList else .ok []

def componentsFrom : Nat → List Value → Decoded (List Component)
  | _, [] => .ok []
  | i, v :: rest =>
    (fun (c, more) => c :: more) <$> ((ofValue v).within (.item i)).both (componentsFrom (i + 1) rest)

end

def dump (c : Component) : Value := c.toValue.portable

end Component

namespace Action

/-- An action, if its members fit its kind. -/
def checked {ι : Type} (a : Action ι) : Decoded (Action ι) :=
  match a.shapeError? with
  | some e => .fail (.shape e)
  | none => .ok a

mutual

def ofValue : Value → Decoded (Action String)
  | .object fs =>
    ((required "id" text fs).both
      ((required "type" (listed ActionKind.ofName?) fs).both
        ((slot "scope" (listed Lifetime.ofName?) fs).both
          ((slot "storage" (listed Storage.ofName?) fs).both
            ((slot ⟨"keyPath", "key_path"⟩ text fs).both (actionsMember fs)))))).bind
      fun (id, kind, scope, storage, keyPath, actions) =>
        checked { id, kind, scope, storage, keyPath, value := Fields.get? fs "value", actions }
  | _ => .fail .notRecord

def actionsMember : List (String × Value) → Decoded (Slot (List (Action String)))
  | [] => .ok .unset
  | (name, v) :: rest =>
    if name = "actions" then (actionsOf v).within (.member "actions") else actionsMember rest

def actionsOf : Value → Decoded (Slot (List (Action String)))
  | .null => .ok .null
  | .list items => .set <$> actionsFrom 0 items
  | _ => .fail .notList

def actionsFrom : Nat → List Value → Decoded (List (Action String))
  | _, [] => .ok []
  | i, v :: rest =>
    (fun (a, more) => a :: more) <$> ((ofValue v).within (.item i)).both (actionsFrom (i + 1) rest)

end

def dump {ι : Type} (write : ι → String) (a : Action ι) : Value := (a.toValue write).portable

end Action

namespace Document

/-- The members of a record by their names, each decoded. -/
def membersOf {α : Type} (d : Decoder α) : Fields Value → Decoded (Fields α)
  | [] => .ok []
  | (name, v) :: rest =>
    (fun (a, more) => (name, a) :: more) <$> ((d v).within (.member name)).both (membersOf d rest)

def componentsOf : Decoder (Fields Component)
  | .object fs => membersOf Component.ofValue fs
  | _ => .fail .notFields

/-- A member of a document that is a list and counts as absent if it is empty. -/
def listMember {α : Type} (name : String) (d : Decoder α) (fs : Fields Value) : Decoded (List α) :=
  defaulted name [] (list d) (withoutEmpty [name] fs)

/-- Warnings are passed over, but there has to be a list of them. -/
def ignoredList : Decoder Unit
  | .list _ => .ok ()
  | _ => .fail .notSequence

def ofValue : Decoder (Document String)
  | .object fs =>
    (fun (key, version, buildNumber, main, components, stores, actions, _) =>
        { key, version, buildNumber, main, components, stores, actions }) <$>
      (required "key" text fs).both
        ((required "version" text fs).both
          ((required ⟨"buildNumber", "build_number"⟩ integer fs).both
            ((required "main" Component.ofValue fs).both
              ((required "components" componentsOf fs).both
                ((listMember "stores" Store.ofValue fs).both
                  ((listMember "actions" Action.ofValue fs).both
                    (defaulted "warnings" () ignoredList fs)))))))
  | _ => .fail .notRecord

def ofJson (s : String) : Decoded (Document String) :=
  match Json.parse? s with
  | some v => ofValue v
  | none => .fail .malformed

def dump {ι : Type} (write : ι → String) (d : Document ι) : Value := (d.toValue write).portable

def json {ι : Type} (write : ι → String) (indent : Option Nat) (d : Document ι) : String :=
  Json.render indent (d.dump write)

end Document

namespace Diagnostic

def ofValue : Decoder Diagnostic
  | .object fs =>
    (fun (code, message, severity, line, column) => { code, message, severity, line, column }) <$>
      (required "code" (listed Code.ofName?) fs).both
        ((required "message" text fs).both
          ((defaulted "severity" .error (listed Severity.ofName?) fs).both
            ((defaulted "line" none (nullable integer) fs).both
              (defaulted "column" none (nullable integer) fs))))
  | _ => .fail .notRecord

end Diagnostic

end Scenario

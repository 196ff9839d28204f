import Scenario.Action.Arguments
import Scenario.Store
import Scenario.Text.Lowercase

namespace Scenario

open Syntax

/-- The name of a constant: the member of an enumeration starts with a capital letter. -/
def constantName (member : String) : String :=
  match member.toList with
  | c :: rest => String.ofList (Text.lowercase c ++ rest)
  | [] => ""

/-- A setting as a text, or as a member of the type of its values. -/
def settingText? (type : String) (n : Node) : Option String :=
  n.staticString? <|>
    match n.unwrap with
    | .member base name computed =>
      match base.unwrap, (Node.member base name computed).propertyName? with
      | .identifier t, some member =>
        if t = type ∧ member ≠ "" then some (constantName member) else none
      | _, _ => none
    | _ => none

def settingValue {α : Type} (setting type : String) (ofName? : String → Option α)
    (allowed : List String) (line : Nat) (n : Node) : Reading α :=
  match settingText? type n with
  | none => refuse (.dynamicSetting setting type) line
  | some text =>
    match ofName? text with
    | some a => .ok a
    | none => refuse (.unknownSetting setting text allowed) line

def initialFields (props : List String) (line : Nat) (n : Node) : Reading (Fields Value) :=
  match (staticValue props n).plainObject? with
  | some fields => .ok fields
  | none => refuse .dynamicInitialValue line

def Store.ofArguments (arguments : List Node) (line : Nat) (props : List String) :
    Reading Store := do
  let arguments ← plainArguments "store()" arguments line
  match arguments with
  | [] => return { scope := .scenario, storage := .memory }
  | config :: _ =>
    match objectMembers? config with
    | none => refuse .dynamicConfig line
    | some members =>
      let members ← plainMembers "store()" line members []
      let scope ← match members.get? "scope" with
        | some n =>
          settingValue "scope" "StoreScope" Lifetime.ofName? (Lifetime.all.map (·.name)) line n
        | none => pure .scenario
      let storage ← match members.get? "storage" with
        | some n =>
          settingValue "storage" "StoreStorage" Storage.ofName? (Storage.all.map (·.name)) line n
        | none => pure .memory
      let initialValue ← match members.get? "initialValue" with
        | some n => Slot.set <$> initialFields props line n
        | none => pure .unset
      return { scope, storage, initialValue }

end Scenario

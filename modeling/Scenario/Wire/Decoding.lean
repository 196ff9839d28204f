import Scenario.Wire.Defect
import Scenario.Wire.Integer

namespace Scenario.Wire

abbrev Decoder (α : Type) := Value → Decoded α

variable {α : Type}

def text : Decoder String
  | .string s => .ok s
  | _ => .fail .notText

/-- A text that is the name of something. -/
def listed (ofName? : String → Option α) : Decoder α
  | .string s =>
    match ofName? s with
    | some a => .ok a
    | none => .fail .notListed
  | _ => .fail .notListed

def fields : Decoder (Fields Value)
  | .object fs => .ok fs
  | _ => .fail .notFields

/-- The integer that a binary64 number is equal to. It has to lie within 64 bits. -/
def wholeNumber (x : Binary64) : Decoded Int :=
  match x.toInt? with
  | some n =>
    let bound : Int := Nat.pow 2 63
    if -bound < n ∧ n < bound then .ok n else .fail .oversizedInteger
  | none => .fail (if x.isFinite then .fractionalInteger else .infiniteInteger)

/-- An integer, or something that stands for one. -/
def integer : Decoder Int
  | .number (.int n) => .ok n
  | .number (.float x) => wholeNumber x
  | .bool b => .ok (if b then 1 else 0)
  | .string s =>
    match integerText? s with
    | some n => .ok n
    | none => .fail .unreadableInteger
  | _ => .fail .notInteger

/-- The flag that a text stands for, in any letter case. -/
def flagText? (s : String) : Option Bool :=
  let s := String.ofList (s.toList.map Char.toLower)
  if s ∈ ["0", "off", "f", "false", "n", "no"] then some false
  else if s ∈ ["1", "on", "t", "true", "y", "yes"] then some true
  else none

def flagNumber? (n : Int) : Option Bool :=
  if n = 0 then some false else if n = 1 then some true else none

def flag? : Value → Option Bool
  | .bool b => some b
  | .number (.int n) => flagNumber? n
  | .number (.float x) => x.toInt?.bind flagNumber?
  | .string s => flagText? s
  | _ => none

/-- A flag, or something that stands for one. -/
def flag : Decoder Bool := fun v =>
  match flag? v with
  | some b => .ok b
  | none => .fail .notFlag

def nullable (d : Decoder α) : Decoder (Option α)
  | .null => .ok none
  | v => some <$> d v

/-- The items of a list, the first of which has the given index. -/
def itemsFrom (d : Decoder α) : Nat → List Value → Decoded (List α)
  | _, [] => .ok []
  | i, v :: rest =>
    (fun (a, more) => a :: more) <$> ((d v).within (.item i)).both (itemsFrom d (i + 1) rest)

def list (d : Decoder α) : Decoder (List α)
  | .list items => itemsFrom d 0 items
  | _ => .fail .notList

/-- How a member is named: the name of the format, and another one that is understood. -/
structure Label where
  name : String
  other : String

instance : Coe String Label := ⟨fun name => ⟨name, name⟩⟩

/-- The member of a label, and the name under which it stands. The name of the format goes first. -/
def Label.find? (l : Label) (fs : Fields Value) : Option (String × Value) :=
  match fs.get? l.name with
  | some v => some (l.name, v)
  | none => (fs.get? l.other).map fun v => (l.other, v)

def required (l : Label) (d : Decoder α) (fs : Fields Value) : Decoded α :=
  match l.find? fs with
  | some (name, v) => (d v).within (.member name)
  | none => .error [{ path := [.member l.name], fault := .missing }]

def defaulted (l : Label) (a : α) (d : Decoder α) (fs : Fields Value) : Decoded α :=
  match l.find? fs with
  | some (name, v) => (d v).within (.member name)
  | none => .ok a

def slotOf (d : Decoder α) : Decoder (Slot α)
  | .null => .ok .null
  | v => .set <$> d v

/-- A member that may be absent or null, which are kept apart. -/
def slot (l : Label) (d : Decoder α) (fs : Fields Value) : Decoded (Slot α) :=
  defaulted l .unset (slotOf d) fs

/-- A record without the given members where those are empty. -/
def withoutEmpty (names : List String) (fs : Fields Value) : Fields Value :=
  fs.filter fun f => !names.contains f.1 || f.2.truthy

end Scenario.Wire

import Scenario.Proofs.Wrappers

namespace Scenario

open Syntax

mutual

/-- Whether the members of each object, at any depth, have names that differ and are not empty. -/
def Value.HasDistinctNames : Value → Prop
  | .list items => itemsHaveDistinctNames items
  | .object fs => (Fields.keys fs).Nodup ∧ "" ∉ Fields.keys fs ∧ membersHaveDistinctNames fs
  | .null | .bool _ | .number _ | .string _ => True

def Value.itemsHaveDistinctNames : List Value → Prop
  | [] => True
  | v :: more => v.HasDistinctNames ∧ itemsHaveDistinctNames more

def Value.membersHaveDistinctNames : List (String × Value) → Prop
  | [] => True
  | (_, v) :: more => v.HasDistinctNames ∧ membersHaveDistinctNames more

end

/-- A name of a member as it stands or in quotes. -/
inductive LiteralKey (name : String) : Node → Prop where
  | identifier : LiteralKey name (.identifier name)
  | string : LiteralKey name (.string name)

mutual

/-- The expressions that spell out a value. -/
inductive Literal : Node → Value → Prop where
  | null : Literal .null .null
  | boolean (b : Bool) : Literal (.boolean b) (.bool b)
  | number (n : Number) : Literal (.number n) (.number n)
  | string (s : String) : Literal (.string s) (.string s)
  | array {elements : List Node} {items : List Value} : LiteralElements elements items →
    Literal (.array elements) (.list items)
  | object {members : List Node} {fs : Fields Value} : LiteralMembers members fs →
    Literal (.object members) (.object fs)
  | parenthesized {n : Node} {v : Value} : Literal n v → Literal (.parenthesized n) v
  | assertion {n : Node} {v : Value} : Literal n v → Literal (.assertion n) v
  | container {n : Node} {v : Value} : Literal n v → Literal (.container n) v

inductive LiteralElements : List Node → List Value → Prop where
  | nil : LiteralElements [] []
  | cons {n : Node} {v : Value} {elements : List Node} {items : List Value} : Literal n v →
    LiteralElements elements items → LiteralElements (n :: elements) (v :: items)

/-- The members of an object in their order. Spread members may stand anywhere. -/
inductive LiteralMembers : List Node → Fields Value → Prop where
  | nil : LiteralMembers [] []
  | member {name : String} {key n : Node} {v : Value} {members : List Node} {fs : Fields Value} :
    LiteralKey name key → Literal n v → LiteralMembers members fs →
    LiteralMembers (.property key n :: members) ((name, v) :: fs)
  | spread {argument : Node} {members : List Node} {fs : Fields Value} :
    LiteralMembers members fs → LiteralMembers (.spread argument :: members) fs

end

mutual

/-- The literal that spells a value plainly, with its members in quotes. -/
def Value.literal : Value → Node
  | .null => .null
  | .bool b => .boolean b
  | .number n => .number n
  | .string s => .string s
  | .list items => .array (literalItems items)
  | .object fs => .object (literalFields fs)

def Value.literalItems : List Value → List Node
  | [] => []
  | v :: more => v.literal :: literalItems more

def Value.literalFields : List (String × Value) → List Node
  | [] => []
  | (name, v) :: more => .property (.string name) v.literal :: literalFields more

end

mutual

theorem literal_literal (v : Value) : Literal v.literal v := by
  cases v with
  | null => exact .null
  | bool b => exact .boolean b
  | number n => exact .number n
  | string s => exact .string s
  | list items => exact .array (literalElements_literalItems items)
  | object fs => exact .object (literalMembers_literalFields fs)

theorem literalElements_literalItems (items : List Value) :
    LiteralElements (Value.literalItems items) items := by
  cases items with
  | nil => exact .nil
  | cons v more => exact .cons (literal_literal v) (literalElements_literalItems more)

theorem literalMembers_literalFields (fs : Fields Value) :
    LiteralMembers (Value.literalFields fs) fs := by
  cases fs with
  | nil => exact .nil
  | cons f more => exact .member .string (literal_literal f.2) (literalMembers_literalFields more)

end

/-- The members of an object literal that have a name, in order. -/
def namedMembers (members : List Node) : Fields Node :=
  members.filterMap fun
    | .property key n => some (memberName key, n)
    | _ => none

/-- An object literal assigns its members one after the other. -/
theorem staticMembers_eq_overlay (props : List String) (members : List Node) (acc : Fields Value) :
    staticMembers props members acc =
      acc.overlay ((namedMembers members).mapValues (staticValue props)) := by
  induction members generalizing acc with
  | nil => rfl
  | cons m more ih =>
    cases m with
    | property key n => exact ih (acc.put (memberName key) (staticValue props n))
    | _ => exact ih acc

theorem memberName_of_literalKey {name : String} {key : Node} (h : LiteralKey name key)
    (hname : name ≠ "") : memberName key = name := by
  cases h with
  | identifier => simp [memberName, hname]
  | string => simp [memberName, hname]

theorem isSpread_of_literal {n : Node} {v : Value} (h : Literal n v) : isSpread n = false := by
  cases h <;> rfl

mutual

theorem staticValue_eq (props : List String) {n : Node} {v : Value} (h : Literal n v)
    (hv : v.HasDistinctNames) : staticValue props n = v := by
  cases h with
  | null => rfl
  | boolean b => rfl
  | number n => rfl
  | string s => rfl
  | array helements =>
    rw [staticValue, staticElements_eq props helements hv]
  | @object members fs hmembers =>
    obtain ⟨hnodup, hempty, hvalues⟩ := hv
    have hassigned : Fields.overlay [] fs = fs := Fields.overlay_eq_append hnodup
    rw [staticValue, staticMembers_eq_overlay, mapValues_namedMembers props hmembers hempty hvalues,
      hassigned]
  | parenthesized hinner =>
    rw [staticValue]
    exact staticValue_eq props hinner hv
  | assertion hinner =>
    rw [staticValue]
    exact staticValue_eq props hinner hv
  | container hinner =>
    rw [staticValue]
    exact staticValue_eq props hinner hv

theorem staticElements_eq (props : List String) {elements : List Node} {items : List Value}
    (h : LiteralElements elements items) (hitems : Value.itemsHaveDistinctNames items) :
    staticElements props elements = items := by
  cases h with
  | nil => rfl
  | cons hn hmore =>
    rw [staticElements_cons, isSpread_of_literal hn, staticValue_eq props hn hitems.1,
      staticElements_eq props hmore hitems.2]
    rfl

theorem mapValues_namedMembers (props : List String) {members : List Node} {fs : Fields Value}
    (h : LiteralMembers members fs) (hempty : "" ∉ fs.keys)
    (hvalues : Value.membersHaveDistinctNames fs) :
    (namedMembers members).mapValues (staticValue props) = fs := by
  cases h with
  | nil => rfl
  | @member name key n v more rest hkey hn hmore =>
    obtain ⟨hname, hrest⟩ : "" ≠ name ∧ "" ∉ Fields.keys rest := by
      simpa [Fields.keys] using hempty
    have hfirst : memberName key = name := memberName_of_literalKey hkey hname.symm
    have hvalue : staticValue props n = v := staticValue_eq props hn hvalues.1
    have hothers := mapValues_namedMembers props hmore hrest hvalues.2
    change (memberName key, staticValue props n) :: (namedMembers more).mapValues (staticValue props) = _
    rw [hfirst, hvalue, hothers]
  | spread hmore =>
    have hothers := mapValues_namedMembers props hmore hempty hvalues
    exact hothers

end

/-- A value whose objects have distinct names is spelled by a literal, and whichever literal spells it,
with whatever wrappers and spread members, stands for just this value in every component. -/
theorem staticValue_of_literal {v : Value} (h : v.HasDistinctNames) :
    Literal v.literal v ∧ ∀ n, Literal n v → ∀ props, staticValue props n = v :=
  ⟨literal_literal v, fun _ hn props => staticValue_eq props hn h⟩

theorem staticValue_of_literal_members :
    ∃ n v, n = .container (.object [.spread (.identifier "rest"),
        .property (.identifier "type") (.string "prop"),
        .property (.string "key") (.parenthesized (.array [.number (.int 1), .assertion .null]))]) ∧
      v = .object [("type", .string "prop"), ("key", .list [.int 1, .null])] ∧
      v.HasDistinctNames ∧ Literal n v ∧ staticValue ["type"] n = v := by
  have hnames : (Value.object [("type", .string "prop"),
      ("key", .list [.int 1, .null])]).HasDistinctNames := by
    simp [Value.HasDistinctNames, Value.membersHaveDistinctNames, Value.itemsHaveDistinctNames,
      Fields.keys, Value.int]
  have helements : LiteralElements [.number (.int 1), .assertion .null] [.int 1, .null] :=
    .cons (.number _) (.cons (.assertion .null) .nil)
  have hmembers : LiteralMembers [.spread (.identifier "rest"),
      .property (.identifier "type") (.string "prop"),
      .property (.string "key") (.parenthesized (.array [.number (.int 1), .assertion .null]))]
      [("type", .string "prop"), ("key", .list [.int 1, .null])] :=
    .spread (.member .identifier (.string "prop")
      (.member .string (.parenthesized (.array helements)) .nil))
  have hliteral := Literal.container (.object hmembers)
  exact ⟨_, _, rfl, rfl, hnames, hliteral, (staticValue_of_literal hnames).2 _ hliteral _⟩

end Scenario

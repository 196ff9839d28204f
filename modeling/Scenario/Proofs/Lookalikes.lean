import Scenario.Action.Request
import Scenario.Proofs.Literals
import Scenario.Proofs.Options
import Scenario.Store.Declaration

namespace Scenario

open Syntax

namespace Fields

variable {α : Type}

theorem keys_overlay (fs gs : Fields α) (key : String) :
    key ∈ (fs.overlay gs).keys ↔ key ∈ fs.keys ∨ key ∈ gs.keys := by
  induction gs generalizing fs with
  | nil => simp [overlay, keys]
  | cons g more ih =>
    change key ∈ ((fs.put g.1 g.2).overlay more).keys ↔ _
    rw [ih, keys_put]
    have hcons : keys (g :: more) = g.1 :: keys more := rfl
    rw [hcons, List.mem_cons]
    split
    · rename_i hmem
      constructor
      · tauto
      · rintro (h | rfl | h)
        · exact .inl h
        · exact .inl hmem
        · exact .inr h
    · rw [List.mem_append, List.mem_singleton, or_assoc]

theorem get?_append (fs gs : Fields α) (key : String) :
    get? (fs ++ gs) key = (fs.get? key).or (gs.get? key) := by
  induction fs with
  | nil => rfl
  | cons f more ih =>
    obtain ⟨k, v⟩ := f
    by_cases hk : k = key
    · simp [get?, hk]
    · simpa [get?, hk] using ih

/-- Of several assignments of a name the last one counts. -/
theorem get?_overlay_eq_reverse (fs gs : Fields α) (key : String) :
    (fs.overlay gs).get? key = (get? gs.reverse key).or (fs.get? key) := by
  induction gs generalizing fs with
  | nil => rfl
  | cons g more ih =>
    change ((fs.put g.1 g.2).overlay more).get? key = _
    rw [ih, get?_put, List.reverse_cons, get?_append, Option.or_assoc]
    by_cases hg : g.1 = key
    · simp [get?, hg]
    · simp [get?, hg]

end Fields

namespace Value

/-- An object is taken for a prop if its members are `type` and `key` and its type is `prop`. -/
theorem isPropRef_object_iff {fs : Fields Value} (h : fs.keys.Nodup) :
    (object fs).isPropRef = true ↔
      (∀ key, key ∈ fs.keys ↔ key = "type" ∨ key = "key") ∧ fs.get? "type" = some (.string "prop") := by
  constructor
  · intro hprop
    unfold isPropRef at hprop
    split at hprop
    · rename_i heq
      cases heq
      exact ⟨by simp [Fields.keys], rfl⟩
    · rename_i heq
      cases heq
      exact ⟨by simp [Fields.keys, or_comm], rfl⟩
    · cases hprop
  · rintro ⟨hkeys, htype⟩
    have hperm : fs.keys.Perm ["type", "key"] :=
      (List.perm_ext_iff_of_nodup h (by decide)).2 (by simpa using hkeys)
    have hlength : fs.length = 2 := by simpa [Fields.keys] using hperm.length_eq
    obtain ⟨⟨k, v⟩, ⟨k', v'⟩, rfl⟩ := List.length_eq_two.1 hlength
    have hkey : "key" = k ∨ "key" = k' := by simpa [Fields.keys] using (hkeys "key").2 (.inr rfl)
    have htype' : "type" = k ∨ "type" = k' := by simpa [Fields.keys] using (hkeys "type").2 (.inl rfl)
    rcases htype' with rfl | rfl
    · obtain rfl : "key" = k' := by simpa using hkey
      cases htype
      rfl
    · obtain rfl : "key" = k := by simpa using hkey
      cases htype
      rfl

end Value

/-- Object literals with the members of a reference to a prop: each member is named `type` or `key`,
there is one of either name, and the last one named `type` is the text `prop`. -/
def IsLookalike (members : List Node) : Prop :=
  (∀ name, name ∈ (namedMembers members).keys ↔ name = "type" ∨ name = "key") ∧
    ∃ n, Fields.get? (namedMembers members).reverse "type" = some n ∧ n.unwrap = .string "prop"

/-- Props of the component, in wrappers perhaps. -/
def IsProp (props : List String) (n : Node) : Prop :=
  ∃ name, n.unwrap = .identifier name ∧ name ≠ "" ∧ name ∈ props

/-- An expression counts as a prop wherever an object or a text is looked for. -/
structure TakenAsProp (props : List String) (n : Node) : Prop where
  asAttribute (t : TreeContext) (attributes : List Node) (name : String) : t.props = props →
    Node.attribute? attributes name = some (.attribute name (some n)) →
    t.objectAttribute attributes name = []
  asInitialValue (line : Nat) : initialFields props line n = refuse .dynamicInitialValue line
  asContent (call : String) (line : Nat) :
    argumentValue call line props "content" n = .ok (.object [("text", staticValue props n)])
  asEndpoint (line : Nat) : Request.endpoint line props (some n) = .ok (staticValue props n)
  asText : TextPiece.ofValue? (staticValue props n) = some (.prop (staticValue props n))

/-- An expression counts as an object of the given members. -/
structure TakenAsObject (props : List String) (n : Node) (fs : Fields Value) : Prop where
  asAttribute (t : TreeContext) (attributes : List Node) (name : String) : t.props = props →
    Node.attribute? attributes name = some (.attribute name (some n)) →
    t.objectAttribute attributes name = fs
  asInitialValue (line : Nat) : initialFields props line n = .ok fs
  asContent (call : String) (line : Nat) :
    argumentValue call line props "content" n = .ok (.object fs)
  asEndpoint (line : Nat) : Request.endpoint line props (some n) = refuse .dynamicEndpoint line
  asText : TextPiece.ofValue? (staticValue props n) = none

theorem staticValue_eq_string_iff {props : List String} {n : Node} {s : String} :
    staticValue props n = .string s ↔ n.unwrap = .string s := by
  fun_induction Node.unwrap n with
  | case1 e ih => simpa only [staticValue] using ih
  | case2 e ih => simpa only [staticValue] using ih
  | case3 e ih => simpa only [staticValue] using ih
  | case4 n hp ha hc =>
    cases n with
    | identifier name =>
      rw [staticValue]
      split <;> simp [Value.propRef]
    | parenthesized e => exact absurd rfl (hp e)
    | assertion e => exact absurd rfl (ha e)
    | container e => exact absurd rfl (hc e)
    | _ => simp [staticValue]

/-- Only props and object literals stand for objects. -/
theorem staticValue_eq_object_iff {props : List String} {n : Node} {fs : Fields Value} :
    staticValue props n = .object fs ↔
      (∃ name, n.unwrap = .identifier name ∧ (name ≠ "" ∧ name ∈ props) ∧
        Value.propRef name = .object fs) ∨
      ∃ members, n.unwrap = .object members ∧ staticMembers props members [] = fs := by
  fun_induction Node.unwrap n with
  | case1 e ih => simpa only [staticValue] using ih
  | case2 e ih => simpa only [staticValue] using ih
  | case3 e ih => simpa only [staticValue] using ih
  | case4 n hp ha hc =>
    cases n with
    | identifier name =>
      rw [staticValue]
      split <;> simp_all
    | parenthesized e => exact absurd rfl (hp e)
    | assertion e => exact absurd rfl (ha e)
    | container e => exact absurd rfl (hc e)
    | _ => simp [staticValue]

theorem isPropRef_object_staticMembers_iff (props : List String) (members : List Node) :
    (Value.object (staticMembers props members [])).isPropRef = true ↔ IsLookalike members := by
  have hnodup : (staticMembers props members []).keys.Nodup :=
    nodup_keys_staticMembers props members (by simp [Fields.keys])
  rw [Value.isPropRef_object_iff hnodup, IsLookalike, staticMembers_eq_overlay]
  refine and_congr ?_ ?_
  · simp only [Fields.keys_overlay, Fields.keys_mapValues]
    simp [Fields.keys]
  · rw [Fields.get?_overlay_eq_reverse]
    have hreverse : ((namedMembers members).mapValues (staticValue props)).reverse =
        Fields.mapValues (staticValue props) (namedMembers members).reverse := by
      simp [Fields.mapValues]
    rw [hreverse, Fields.get?_mapValues]
    simp [Fields.get?, staticValue_eq_string_iff]

/-- An expression stands for a prop if it is one, or if it is an object literal that looks like one. -/
theorem isPropRef_staticValue (props : List String) (n : Node) :
    (staticValue props n).isPropRef = true ↔
      IsProp props n ∨ ∃ members, n.unwrap = .object members ∧ IsLookalike members := by
  constructor
  · intro h
    obtain ⟨fs, hfs⟩ : ∃ fs, staticValue props n = .object fs := by
      cases hv : staticValue props n with
      | object fs => exact ⟨fs, rfl⟩
      | _ => rw [hv] at h; cases h
    rcases staticValue_eq_object_iff.1 hfs with ⟨name, hn, ⟨hname, hprops⟩, -⟩ | ⟨members, hn, rfl⟩
    · exact .inl ⟨name, hn, hname, hprops⟩
    · rw [hfs] at h
      exact .inr ⟨members, hn, (isPropRef_object_staticMembers_iff props members).1 h⟩
  · rintro (⟨name, hn, hprop⟩ | ⟨members, hn, hlike⟩)
    · rw [staticValue_eq_object_iff.2 (.inl ⟨name, hn, hprop, rfl⟩)]
      rfl
    · rw [staticValue_eq_object_iff.2 (.inr ⟨members, hn, rfl⟩)]
      exact (isPropRef_object_staticMembers_iff props members).2 hlike

theorem plainObject?_of_isPropRef {v : Value} (h : v.isPropRef = true) : v.plainObject? = none := by
  cases v with
  | object fs => rw [Value.plainObject?, if_pos h]
  | _ => rfl

theorem takenAsProp_of_isPropRef {props : List String} {n : Node}
    (h : (staticValue props n).isPropRef = true) : TakenAsProp props n where
  asAttribute := by
    rintro t attributes name rfl hattribute
    simp [TreeContext.objectAttribute, hattribute, plainObject?_of_isPropRef h]
  asInitialValue line := by rw [initialFields, plainObject?_of_isPropRef h]
  asContent call line := by simp [argumentValue, plainObject?_of_isPropRef h]
  asEndpoint line := by simp [Request.endpoint, h]
  asText := by
    cases hv : staticValue props n with
    | object fs =>
      rw [hv] at h
      simp [TextPiece.ofValue?, h]
    | _ => rw [hv] at h; cases h

theorem takenAsObject_of_isPropRef {props : List String} {n : Node} {fs : Fields Value}
    (h : staticValue props n = .object fs) (hprop : (Value.object fs).isPropRef = false) :
    TakenAsObject props n fs where
  asAttribute := by
    rintro t attributes name rfl hattribute
    simp [TreeContext.objectAttribute, hattribute, h, Value.plainObject?, hprop]
  asInitialValue line := by simp [initialFields, h, Value.plainObject?, hprop]
  asContent call line := by simp [argumentValue, h, Value.plainObject?, hprop]
  asEndpoint line := by simp [Request.endpoint, h, Value.string?, hprop]
  asText := by simp [h, TextPiece.ofValue?, hprop]

/-- An expression stands for a reference to a prop just if it is a prop of the component or an object
literal that looks like one. Either is then taken for a prop where an object or a text is looked for, and
any other object literal counts as the object of its members. -/
theorem isPropRef_staticValue_iff (props : List String) (n : Node) :
    ((staticValue props n).isPropRef = true ↔
      IsProp props n ∨ ∃ members, n.unwrap = .object members ∧ IsLookalike members) ∧
    ((staticValue props n).isPropRef = true → TakenAsProp props n) ∧
    ∀ members, n.unwrap = .object members → ¬IsLookalike members →
      TakenAsObject props n (staticMembers props members []) := by
  refine ⟨isPropRef_staticValue props n, takenAsProp_of_isPropRef, ?_⟩
  intro members hn hlike
  have hprop : (Value.object (staticMembers props members [])).isPropRef = false := by
    rw [← Bool.not_eq_true, isPropRef_object_staticMembers_iff]
    exact hlike
  exact takenAsObject_of_isPropRef (staticValue_eq_object_iff.2 (.inr ⟨members, hn, rfl⟩)) hprop

example : staticValue [] (.object [.property (.identifier "type") (.string "prop"),
    .property (.identifier "key") (.string "x")]) = Value.propRef "x" := rfl

end Scenario

import Mathlib.Data.List.Forall2
import Scenario.Action.Collection
import Scenario.Extraction

namespace Scenario.Syntax

namespace Node

/-- Whether a node is an expression. -/
def isExpression : Node → Bool
  | .string _ | .number _ | .boolean _ | .null | .identifier _ | .template .. | .object _ | .array _
  | .parenthesized _ | .assertion _ | .member .. | .call .. | .unary .. | .binary .. | .await _
  | .arrow .. | .function .. | .element .. | .fragment .. | .unsupported .. => true
  | _ => false

mutual

/-- A node without the wrappers around the expressions in it. The node itself is unwrapped if it
stands for a value. -/
def bare (value : Bool) : Node → Node
  | .template quasis expressions => .template quasis (bareAll true expressions)
  | .property key v => .property (bare false key) (bare true v)
  | .spread argument => .spread (bare true argument)
  | .object properties => .object (bareAll false properties)
  | .array elements => .array (bareAll true elements)
  | .parenthesized e =>
    if value && e.isExpression then bare true e else .parenthesized (bare true e)
  | .assertion e => if value && e.isExpression then bare true e else .assertion (bare true e)
  | .member base name computed => .member (bare true base) (bare computed name) computed
  | .call callee arguments line => .call (bare true callee) (bareAll true arguments) line
  | .unary operator argument => .unary operator (bare true argument)
  | .binary operator left right => .binary operator (bare true left) (bare true right)
  | .await argument => .await (bare true argument)
  | .arrow params body line => .arrow (bareAll false params) (bare true body) line
  | .function name params body line => .function name (bareAll false params) (bare true body) line
  | .attribute name v => .attribute name (bareOption true v)
  | .spreadAttribute argument => .spreadAttribute (bare true argument)
  | .container e => .container (bare true e)
  | .element name attributes children line =>
    .element name (bareAll false attributes) (bareAll false children) line
  | .fragment children line => .fragment (bareAll false children) line
  | .block body => .block (bareAll false body)
  | .expressionStatement e => .expressionStatement (bare true e)
  | .returnStatement argument => .returnStatement (bareOption true argument)
  | .ifStatement test consequent alternate =>
    .ifStatement (bare true test) (bare false consequent) (bareOption false alternate)
  | .switchCase test body => .switchCase (bareOption true test) (bareAll false body)
  | .switchStatement discriminant cases => .switchStatement (bare true discriminant) (bareAll false cases)
  | .declarator target init => .declarator (bare false target) (bareOption true init)
  | .variableDeclaration kind declarations => .variableDeclaration kind (bareAll false declarations)
  | .functionDeclaration name params body line =>
    .functionDeclaration name (bareAll false params) (bare true body) line
  | .exportNamed declaration specifiers =>
    .exportNamed (bareOption false declaration) (bareAll false specifiers)
  | .exportDefault declaration => .exportDefault (bare true declaration)
  | .unsupported kind parts line => .unsupported kind (bareAll true parts) line
  | .program body => .program (bareAll false body)
  | n => n

def bareOption (value : Bool) : Option Node → Option Node
  | none => none
  | some n => some (bare value n)

def bareAll (value : Bool) : List Node → List Node
  | [] => []
  | n :: more => bare value n :: bareAll value more

end

@[simp] theorem bareOption_eq_map (v : Bool) (n : Option Node) : bareOption v n = n.map (bare v) := by
  cases n <;> rfl

@[simp] theorem bareAll_eq_map (v : Bool) (ns : List Node) : bareAll v ns = ns.map (bare v) := by
  induction ns with
  | nil => rfl
  | cons n more ih => rw [bareAll, ih, List.map_cons]

theorem bare_parenthesized (e : Node) (h : e.isExpression = true) :
    (Node.parenthesized e).bare true = e.bare true := by
  simp [bare, h]

theorem bare_assertion (e : Node) (h : e.isExpression = true) :
    (Node.assertion e).bare true = e.bare true := by
  simp [bare, h]

example : (Node.parenthesized (.assertion (.string "Home"))).bare true = .string "Home" := by cbv

/-- Whether a node is a wrapper of an expression that is removed around values. -/
def Wraps (n e : Node) : Prop := (n = .parenthesized e ∨ n = .assertion e) ∧ e.isExpression = true

/-- A node is seen through a wrapper, or it stays what it is. -/
theorem bare_cases (v : Bool) (n : Node) :
    (∃ e, n.Wraps e ∧ n.bare v = e.bare true) ∨ n.bare v = n.bare false := by
  cases v with
  | false => exact .inr rfl
  | true =>
    cases n with
    | parenthesized e =>
      by_cases h : e.isExpression = true
      · exact .inl ⟨e, ⟨.inl rfl, h⟩, bare_parenthesized e h⟩
      · exact .inr (by simp [bare, h])
    | assertion e =>
      by_cases h : e.isExpression = true
      · exact .inl ⟨e, ⟨.inr rfl, h⟩, bare_assertion e h⟩
      · exact .inr (by simp [bare, h])
    | _ => exact .inr rfl

theorem Wraps.sizeOf_lt {n e : Node} (h : n.Wraps e) : sizeOf e < sizeOf n := by
  obtain ⟨rfl | rfl, -⟩ := h <;> simp

/-- What passes through wrappers, and from the parts of a node to the node, holds of all nodes. -/
theorem bare_induction {P : Node → Node → Prop}
    (wrapped : ∀ n e, n.Wraps e → P e (e.bare true) → P n (e.bare true))
    (stays : ∀ n, (∀ c ∈ n.children, ∀ v, P c (c.bare v)) → P n (n.bare false))
    (v : Bool) (n : Node) : P n (n.bare v) := by
  rcases bare_cases v n with ⟨e, he, h⟩ | h
  · have ih := bare_induction wrapped stays true e
    rw [h]
    exact wrapped n e he ih
  · rw [h]
    refine stays n ?_
    intro c hc w
    exact bare_induction wrapped stays w c
termination_by sizeOf n
decreasing_by
  · exact he.sizeOf_lt
  · exact sizeOf_lt_of_mem_children hc

@[simp] theorem isExpression_bare (v : Bool) (n : Node) :
    (n.bare v).isExpression = n.isExpression := by
  refine bare_induction (P := fun n m => m.isExpression = n.isExpression) ?_ ?_ v n
  · intro n e hw ih
    obtain ⟨rfl | rfl, he⟩ := hw <;> exact ih.trans he
  · intro n _
    cases n <;> rfl

/-- A node that is no expression stays what it is. -/
theorem bare_of_not_expression {n : Node} (h : n.isExpression = false) (v : Bool) :
    n.bare v = n.bare false := by
  rcases bare_cases v n with ⟨e, ⟨rfl | rfl, -⟩, -⟩ | hn
  · cases h
  · cases h
  · exact hn

theorem bare_false_of_bare_eq {v : Bool} {n m : Node} (h : n.bare v = m)
    (hm : m.isExpression = false) : n.bare false = m := by
  have hn : n.isExpression = false := by
    rw [← hm, ← h, isExpression_bare]
  rw [← h, bare_of_not_expression hn v]

/-- A node is a block with or without wrappers. -/
theorem bare_eq_block {v : Bool} {n : Node} {body : List Node} (h : n.bare v = .block body) :
    ∃ b, n = .block b := by
  have hstay := bare_false_of_bare_eq h rfl
  cases n with
  | block b => exact ⟨b, rfl⟩
  | _ => cases hstay

/-- A node declares a function with or without wrappers. -/
theorem bare_eq_functionDeclaration {v : Bool} {n body : Node} {name : String} {params : List Node}
    {line : Nat} (h : n.bare v = .functionDeclaration name params body line) :
    ∃ name params body line, n = .functionDeclaration name params body line := by
  have hstay := bare_false_of_bare_eq h rfl
  cases n with
  | functionDeclaration name params body line => exact ⟨name, params, body, line, rfl⟩
  | _ => cases hstay

theorem isAbsent_of_isExpression {n : Node} (h : n.isExpression = true) : n.isAbsent = false := by
  cases n with
  | absent => cases h
  | _ => rfl

@[simp] theorem isAbsent_bare (v : Bool) (n : Node) : (n.bare v).isAbsent = n.isAbsent := by
  refine bare_induction (P := fun n m => m.isAbsent = n.isAbsent) ?_ ?_ v n
  · intro n e hw ih
    obtain ⟨rfl | rfl, he⟩ := hw <;> exact ih.trans (isAbsent_of_isExpression he)
  · intro n _
    cases n <;> rfl

/-- What is in the wrappers is no wrapper, so it stays. -/
@[simp] theorem unwrap_bare (v : Bool) (n : Node) : (n.bare v).unwrap = n.unwrap.bare false := by
  fun_induction unwrap n generalizing v with
  | case1 e ih =>
    rw [bare]
    split
    · exact ih true
    · rw [unwrap]
      exact ih true
  | case2 e ih =>
    rw [bare]
    split
    · exact ih true
    · rw [unwrap]
      exact ih true
  | case3 e ih =>
    rw [bare, unwrap]
    exact ih true
  | case4 n hp ha hc =>
    cases n with
    | parenthesized e => exact absurd rfl (hp e)
    | assertion e => exact absurd rfl (ha e)
    | container e => exact absurd rfl (hc e)
    | _ => rfl

@[simp] theorem staticString?_bare (v : Bool) (n : Node) :
    (n.bare v).staticString? = n.staticString? := by
  unfold staticString?
  rw [unwrap_bare]
  cases n.unwrap with
  | template quasis expressions => cases expressions <;> rfl
  | _ => rfl

@[simp] theorem propertyName?_bare (base name : Node) (computed : Bool) :
    (Node.member (base.bare true) (name.bare computed) computed).propertyName? =
      (Node.member base name computed).propertyName? := by
  cases computed with
  | true => simp [propertyName?]
  | false => cases name <;> rfl

@[simp] theorem patternNames_bare (n : Node) : (n.bare false).patternNames = n.patternNames := by
  cases n <;> rfl

@[simp] theorem isSpread_bare (v : Bool) (n : Node) : isSpread (n.bare v) = isSpread n := by
  have hspread (e : Node) (he : e.isExpression = true) : isSpread e = false := by
    cases e with
    | spread argument => cases he
    | _ => rfl
  refine bare_induction (P := fun n m => isSpread m = isSpread n) ?_ ?_ v n
  · intro n e hw ih
    obtain ⟨rfl | rfl, he⟩ := hw <;> exact ih.trans (hspread e he)
  · intro n _
    cases n <;> rfl

end Node

end Scenario.Syntax

namespace Scenario

open Syntax Node

@[simp] theorem memberName_bare (key : Node) : memberName (key.bare false) = memberName key := by
  cases key <;> rfl

theorem staticElements_cons (props : List String) (e : Node) (rest : List Node) :
    staticElements props (e :: rest) =
      (if isSpread e then .null else staticValue props e) :: staticElements props rest := by
  cases e <;> simp [staticElements, isSpread]

/-- The three functions that read values, each without wrappers. -/
theorem static_bare (props : List String) :
    (∀ n v, staticValue props (n.bare v) = staticValue props n) ∧
      (∀ ns, staticElements props (ns.map (bare true)) = staticElements props ns) ∧
      ∀ ns acc, staticMembers props (ns.map (bare false)) acc = staticMembers props ns acc := by
  refine staticValue.mutual_induct props
    (fun n => ∀ v, staticValue props (n.bare v) = staticValue props n)
    (fun ns => staticElements props (ns.map (bare true)) = staticElements props ns)
    (fun ns acc => staticMembers props (ns.map (bare false)) acc = staticMembers props ns acc)
    ?_ ?_ ?_ ?_ ?_ ?_ ?_ ?_ ?_ ?_ ?_ ?_ ?_ ?_ ?_ ?_ ?_
  · intro s v
    rfl
  · intro n v
    rfl
  · intro b v
    rfl
  · intro name _ v
    rfl
  · intro name _ v
    rfl
  · intro e ih v
    rw [bare, staticValue, staticValue, ih]
  · intro e ih v
    rw [bare]
    split <;> simp [staticValue, ih]
  · intro e ih v
    rw [bare]
    split <;> simp [staticValue, ih]
  · intro members ih v
    rw [bare, bareAll_eq_map, staticValue, staticValue, ih]
  · intro elements ih v
    rw [bare, bareAll_eq_map, staticValue, staticValue, ih]
  · intro n hs hn hb hi hc hp ha ho hl v
    cases n with
    | string value => exact absurd rfl (hs value)
    | number value => exact absurd rfl (hn value)
    | boolean value => exact absurd rfl (hb value)
    | identifier name => exact absurd rfl (hi name)
    | container e => exact absurd rfl (hc e)
    | parenthesized e => exact absurd rfl (hp e)
    | assertion e => exact absurd rfl (ha e)
    | object members => exact absurd rfl (ho members)
    | array elements => exact absurd rfl (hl elements)
    | _ => rfl
  · rfl
  · intro argument rest ih
    simp [staticElements_cons, isSpread, bare, ih]
  · intro e rest he ihe ihr
    simp [staticElements_cons, ihe, ihr]
  · intro acc
    rfl
  · intro key value rest acc ihv ihr
    rw [List.map_cons, bare, staticMembers, memberName_bare, ihv, ihr, staticMembers]
  · intro head rest acc hh ihr
    rw [List.map_cons, staticMembers, staticMembers, ihr]
    · exact hh
    · intro key value hk
      cases head with
      | property k v => exact hh k v rfl
      | _ => cases hk

@[simp] theorem staticValue_bare (props : List String) (v : Bool) (n : Node) :
    staticValue props (n.bare v) = staticValue props n :=
  (static_bare props).1 n v

end Scenario

import Scenario.Proofs.Recasting

namespace Scenario

open Syntax

/-- A callee with its namespace in front, if it is a short form. -/
def Callee.inFull : Node → Node
  | .identifier name =>
    match shortForm? name with
    | some (space, method) => .member (.identifier space.name) (.identifier method) false
    | none => .identifier name
  | .parenthesized e => .parenthesized (inFull e)
  | .assertion e => .assertion (inFull e)
  | .container e => .container (inFull e)
  | n => n

namespace Syntax.Node

mutual

/-- A node with all calls in it in full. -/
def inFull : Node → Node
  | .template quasis expressions => .template quasis (inFullAll expressions)
  | .property key value => .property (inFull key) (inFull value)
  | .spread argument => .spread (inFull argument)
  | .object properties => .object (inFullAll properties)
  | .array elements => .array (inFullAll elements)
  | .parenthesized e => .parenthesized (inFull e)
  | .assertion e => .assertion (inFull e)
  | .member base name computed => .member (inFull base) (inFull name) computed
  | .call callee arguments line => .call (Callee.inFull (inFull callee)) (inFullAll arguments) line
  | .unary operator argument => .unary operator (inFull argument)
  | .binary operator left right => .binary operator (inFull left) (inFull right)
  | .await argument => .await (inFull argument)
  | .arrow params body line => .arrow (inFullAll params) (inFull body) line
  | .function name params body line => .function name (inFullAll params) (inFull body) line
  | .attribute name value => .attribute name (inFullOption value)
  | .spreadAttribute argument => .spreadAttribute (inFull argument)
  | .container e => .container (inFull e)
  | .element name attributes children line =>
    .element name (inFullAll attributes) (inFullAll children) line
  | .fragment children line => .fragment (inFullAll children) line
  | .block body => .block (inFullAll body)
  | .expressionStatement e => .expressionStatement (inFull e)
  | .returnStatement argument => .returnStatement (inFullOption argument)
  | .ifStatement test consequent alternate =>
    .ifStatement (inFull test) (inFull consequent) (inFullOption alternate)
  | .switchCase test body => .switchCase (inFullOption test) (inFullAll body)
  | .switchStatement discriminant cases => .switchStatement (inFull discriminant) (inFullAll cases)
  | .declarator target init => .declarator (inFull target) (inFullOption init)
  | .variableDeclaration kind declarations => .variableDeclaration kind (inFullAll declarations)
  | .functionDeclaration name params body line =>
    .functionDeclaration name (inFullAll params) (inFull body) line
  | .exportNamed declaration specifiers =>
    .exportNamed (inFullOption declaration) (inFullAll specifiers)
  | .exportDefault declaration => .exportDefault (inFull declaration)
  | .unsupported kind parts line => .unsupported kind (inFullAll parts) line
  | .program body => .program (inFullAll body)
  | n => n

def inFullOption : Option Node → Option Node
  | none => none
  | some n => some (inFull n)

def inFullAll : List Node → List Node
  | [] => []
  | n :: more => inFull n :: inFullAll more

end

@[simp] theorem inFullOption_eq_map (n : Option Node) : inFullOption n = n.map inFull := by
  cases n <;> rfl

@[simp] theorem inFullAll_eq_map (ns : List Node) : inFullAll ns = ns.map inFull := by
  induction ns with
  | nil => rfl
  | cons n more ih => rw [inFullAll, ih, List.map_cons]

section

attribute [local simp] inFull

/-- A call of a short form and the call that it stands for are the same in full. -/
theorem inFull_call_of_shortForm? {name method : String} {space : Namespace}
    (h : shortForm? name = some (space, method)) (arguments : List Node) (line : Nat) :
    (Node.call (.identifier name) arguments line).inFull =
      (Node.call (.member (.identifier space.name) (.identifier method) false) arguments line).inFull := by
  simp [Callee.inFull, h]

end

example (arguments : List Node) :
    (Node.call (.identifier "apiRequest") arguments 1).inFull =
      (Node.call (.member (.identifier "api") (.identifier "request") false) arguments 1).inFull := rfl

end Syntax.Node

/-- What becomes of calls in full: the callee is spelled out. -/
def Callee.fullForms : Recall := { callee := Callee.inFull }

namespace Syntax.Node

theorem inFull_eq_recast : inFull = recast Callee.fullForms := by
  funext n
  apply @Node.rec (fun n => n.inFull = n.recast Callee.fullForms)
    (fun ns => inFullAll ns = recastAll Callee.fullForms ns)
    (fun o => inFullOption o = recastOption Callee.fullForms o)
  all_goals
    intros
    simp only [inFull, inFullAll, inFullOption, recast, recastAll, recastOption, Callee.fullForms, *]

theorem unwrap_inFull (n : Node) : n.inFull.unwrap = n.unwrap.inFull := by
  rw [inFull_eq_recast, unwrap_recast]

@[simp] theorem patternNames_inFull (n : Node) : n.inFull.patternNames = n.patternNames := by
  rw [inFull_eq_recast, patternNames_recast]

theorem inFull_eq_block {n : Node} {body : List Node} (h : n.inFull = .block body) :
    ∃ b, n = .block b := by
  rw [inFull_eq_recast] at h
  exact recast_eq_block _ h

end Syntax.Node

open Syntax.Node (inFull inFull_eq_recast)

/-- The methods that short forms stand for. -/
def shortMethods : List String := "request" :: Namespace.all.flatMap fun s => s.effects.map (·.1)

theorem mem_shortMethods {name method : String} {space : Namespace}
    (h : shortForm? name = some (space, method)) : method ∈ shortMethods := by
  unfold shortForm? at h
  split at h
  · cases h
    exact List.mem_cons_self
  · obtain ⟨s, hs, heq⟩ := Option.map_eq_some_iff.1 h
    cases heq
    have hsome := List.find?_some hs
    obtain ⟨shape, hshape⟩ := Option.isSome_iff_exists.1 hsome
    obtain ⟨before, behind, heffects, -⟩ := List.lookup_eq_some_iff.1 hshape
    refine List.mem_cons_of_mem _ (List.mem_flatMap.2 ⟨space, List.mem_of_find?_eq_some hs, ?_⟩)
    rw [heffects]
    simp

/-- No method that a short form stands for is one of a store or of a test. -/
theorem methods_of_mem_shortMethods : ∀ method ∈ shortMethods,
    (storeMethod? method).isNone ∧ (Comparison.ofMethod? method).isNone ∧ method ≠ "get" := by
  decide

namespace Callee

@[simp] theorem identifier?_inFull (c : Node) : identifier? c.inFull = identifier? c := by
  rw [inFull_eq_recast, identifier?_recast]

@[simp] theorem direct?_inFull (c : Node) : direct? c.inFull = direct? c := by
  rw [direct?, identifier?_inFull, direct?]

@[simp] theorem isStoreFactory_inFull (c : Node) : isStoreFactory c.inFull = isStoreFactory c := by
  rw [inFull_eq_recast, isStoreFactory_recast]

@[simp] theorem method?_inFull (c : Node) :
    method? c.inFull = (method? c).map fun (receiver, method) => (receiver.inFull, method) := by
  rw [inFull_eq_recast, method?_recast]

/-- A short form in full is a method of its namespace. -/
theorem unwrap_inFull_of_direct {c : Node} {space : Namespace} {method : String}
    (h : direct? c = some (space, method)) :
    (inFull c).unwrap = .member (.identifier space.name) (.identifier method) false := by
  fun_induction inFull c with
  | case1 name space' method' hshort =>
    have heq := hshort.symm.trans h
    cases heq
    rfl
  | case2 name hshort => cases hshort.symm.trans h
  | case3 e ih | case4 e ih | case5 e ih => exact ih h
  | case6 n hi hp ha hc =>
    cases n with
    | identifier name => exact absurd rfl (hi name)
    | parenthesized e => exact absurd rfl (hp e)
    | assertion e => exact absurd rfl (ha e)
    | container e => exact absurd rfl (hc e)
    | _ => cases h

theorem inFull_of_not_direct {c : Node} (h : direct? c = none) : inFull c = c := by
  fun_induction inFull c with
  | case1 name space method hshort => cases hshort.symm.trans h
  | case2 name hshort => rfl
  | case3 e ih | case4 e ih | case5 e ih => rw [ih h]
  | case6 n => rfl

theorem identifier?_of_direct {c : Node} {d : Namespace × String} (h : direct? c = some d) :
    ∃ name, identifier? c = some name ∧ shortForm? name = some d :=
  Option.bind_eq_some_iff.1 h

theorem method?_of_identifier? {c : Node} {name : String} (h : identifier? c = some name) :
    method? c = none := by
  unfold identifier? at h
  unfold method?
  split at h
  · rename_i hu
    rw [hu]
  · cases h

theorem identifier?_inFull_of_direct {c : Node} {space : Namespace} {method : String}
    (h : direct? c = some (space, method)) : identifier? (inFull c) = none := by
  rw [identifier?, unwrap_inFull_of_direct h]

theorem method?_inFull_of_direct {c : Node} {space : Namespace} {method : String}
    (h : direct? c = some (space, method)) :
    method? (inFull c) = some (.identifier space.name, some method) := by
  rw [method?, unwrap_inFull_of_direct h]
  rfl

/-- The method of a callee in full. Where there was none before, there is one of a short form. -/
theorem method?_callee (c : Node) :
    method? (inFull c.inFull) = (method? c).map (fun (receiver, method) => (receiver.inFull, method)) ∨
      method? c = none ∧ ∃ space method, method ∈ shortMethods ∧
        method? (inFull c.inFull) = some (.identifier (Namespace.name space), some method) := by
  cases h : direct? c with
  | none =>
    left
    rw [inFull_of_not_direct ((direct?_inFull c).trans h), method?_inFull]
  | some d =>
    obtain ⟨name, hname, hshort⟩ := identifier?_of_direct h
    exact .inr ⟨method?_of_identifier? hname, d.1, d.2, mem_shortMethods hshort,
      method?_inFull_of_direct ((direct?_inFull c).trans h)⟩

/-- A short form declares no store. -/
@[simp] theorem isStoreFactory_callee (c : Node) : isStoreFactory (inFull c) = isStoreFactory c := by
  cases h : direct? c with
  | none => rw [inFull_of_not_direct h]
  | some d =>
    obtain ⟨name, hname, hshort⟩ := identifier?_of_direct h
    have hstore : name ≠ "store" := by
      rintro rfl
      cases hshort
    rw [isStoreFactory, isStoreFactory, identifier?_inFull_of_direct h, hname]
    simpa using hstore

/-- A short form reads no store, and it makes no test. -/
theorem lawful_fullForms : fullForms.Lawful where
  isStoreFactory := isStoreFactory_callee
  declaration _ _ := rfl
  method {c receiver method} hr := by
    change method? (inFull c) = _ ↔ _
    cases h : direct? c with
    | none => rw [inFull_of_not_direct h]
    | some d =>
      obtain ⟨name, hname, hshort⟩ := identifier?_of_direct h
      rw [method?_inFull_of_direct h, method?_of_identifier? hname]
      refine ⟨fun heq => ?_, fun heq => by cases heq⟩
      cases heq
      obtain ⟨-, htest, hget⟩ := methods_of_mem_shortMethods _ (mem_shortMethods hshort)
      simp [isReadingMethod, hget, Option.isNone_iff_eq_none.1 htest] at hr
  reading _ _ _ := rfl

end Callee

end Scenario

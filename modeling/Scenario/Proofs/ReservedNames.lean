import Scenario.Proofs.Inheritance
import Scenario.Proofs.Origins
import Scenario.Proofs.ReadingsInFull

namespace Scenario

open Syntax
open Syntax.Node (inFull)

/-- A name that means something where it is not bound. -/
def IsReserved (name : String) : Prop := (Namespace.ofName? name).isSome ∨ (shortForm? name).isSome

instance : DecidablePred IsReserved := fun _ => inferInstanceAs (Decidable (_ ∨ _))

theorem ofName?_name (space : Namespace) : Namespace.ofName? space.name = some space := by
  cases space <;> rfl

theorem isReserved_name (space : Namespace) : IsReserved space.name := by
  cases space <;> decide

theorem isReserved_of_shortForm? {name : String} {d : Namespace × String} (h : shortForm? name = some d) :
    IsReserved name :=
  .inr (by rw [h]; rfl)

namespace Syntax.Node

/-- The names that a node itself binds: those of its variable, of the function that it declares and of
its parameters. A destructuring binds its keys. -/
def binds : Node → List String
  | .declarator target _ => target.patternNames
  | .arrow params _ _ => params.flatMap patternNames
  | .function _ params _ _ => params.flatMap patternNames
  | .functionDeclaration name params _ _ => name :: params.flatMap patternNames
  | _ => []

/-- The names that are bound anywhere in a node. -/
def bound (n : Node) : List String := n.binds ++ n.fields.attach.flatMap fun c => c.1.bound
termination_by sizeOf n
decreasing_by exact sizeOf_lt_of_mem_fields c.2

theorem bound_eq (n : Node) : n.bound = n.binds ++ n.fields.flatMap bound := by
  rw [bound, List.flatMap_subtype (g := bound) fun c _ => rfl, List.unattach_attach]

/-- No reserved name is bound in a node. -/
def Avoids (n : Node) : Prop := ∀ name ∈ n.bound, ¬IsReserved name

/-- No reserved name is bound in some nodes. -/
def AllAvoid (ns : List Node) : Prop := ∀ n ∈ ns, n.Avoids

/-- No parameter of a function has a reserved name, and none is bound in the body. -/
structure FunctionAvoids (params : List Node) (body : Node) : Prop where
  params : ∀ name ∈ params.flatMap patternNames, ¬IsReserved name
  body : body.Avoids

theorem avoids_iff {n : Node} :
    n.Avoids ↔ (∀ name ∈ n.binds, ¬IsReserved name) ∧ AllAvoid n.fields := by
  unfold Avoids AllAvoid Avoids
  rw [bound_eq]
  simp only [List.mem_append, List.mem_flatMap]
  constructor
  · intro h
    exact ⟨fun name hname => h name (.inl hname), fun c hc name hname => h name (.inr ⟨c, hc, hname⟩)⟩
  · rintro ⟨hbinds, hfields⟩ name (hname | ⟨c, hc, hname⟩)
    · exact hbinds name hname
    · exact hfields c hc name hname

theorem Avoids.fields {n : Node} (h : n.Avoids) : AllAvoid n.fields := (avoids_iff.1 h).2

theorem Avoids.children {n : Node} (h : n.Avoids) : AllAvoid n.children :=
  fun c hc => h.fields c (List.mem_filter.1 hc).1

/-- What a node binds is the same in full. -/
theorem binds_inFull (n : Node) : n.inFull.binds = n.binds := by
  cases n <;> simp [inFull, binds, List.flatMap_map]

theorem bound_of_fields {n e : Node} (hb : n.binds = []) (hf : n.fields = [e]) : n.bound = e.bound := by
  rw [bound_eq, hb, hf]
  simp

theorem bound_callee (c : Node) : (Callee.inFull c).bound = c.bound := by
  fun_induction Callee.inFull c with
  | case1 name space method h => simp [bound_eq, binds, fields]
  | case2 => rfl
  | case3 e ih | case4 e ih | case5 e ih =>
    exact (bound_of_fields rfl rfl).trans (ih.trans (bound_of_fields rfl rfl).symm)
  | case6 => rfl

theorem fields_inFull {n : Node} (h : ∀ callee arguments line, n ≠ .call callee arguments line) :
    n.inFull.fields = n.fields.map inFull := by
  rw [inFull_eq_recast, fields_recast _ h]

/-- The names that are bound in a node are the same in full. -/
theorem bound_inFull (n : Node) : n.inFull.bound = n.bound := by
  have ih (c : Node) (hc : c ∈ n.fields) : c.inFull.bound = c.bound := bound_inFull c
  have hfields : n.inFull.fields.flatMap bound = n.fields.flatMap bound := by
    by_cases hn : ∃ callee arguments line, n = .call callee arguments line
    · obtain ⟨callee, arguments, line, rfl⟩ := hn
      simp only [fields, List.forall_mem_cons] at ih
      simp only [inFull, fields, List.flatMap_cons, bound_callee, ih.1, inFullAll_eq_map,
        List.flatMap_map]
      rw [List.flatMap_congr ih.2]
    · rw [fields_inFull fun callee arguments line h => hn ⟨callee, arguments, line, h⟩,
        List.flatMap_map, List.flatMap_congr ih]
  rw [bound_eq, binds_inFull, hfields, ← bound_eq]
termination_by sizeOf n
decreasing_by exact sizeOf_lt_of_mem_fields hc

theorem avoids_inFull {n : Node} : n.inFull.Avoids ↔ n.Avoids := by
  rw [Avoids, bound_inFull, Avoids]

end Syntax.Node

open Syntax.Node (AllAvoid FunctionAvoids)

namespace Scope

/-- No reserved name is bound in a scope. -/
def Avoids (s : Scope) : Prop := ∀ name, IsReserved name → s.isBound name = false

theorem avoids_module : module.Avoids := fun _ _ => rfl

namespace Avoids

variable {s : Scope} (hs : s.Avoids)

include hs

theorem child : s.child.Avoids := hs

theorem within (n : Node) : (s.within n).Avoids := by
  unfold Scope.within
  split
  · split <;> exact hs
  · exact hs

theorem bind {name : String} (h : ¬IsReserved name) (store : Option Store) :
    (s.bind name store).Avoids := by
  intro other hother
  have hne : name ≠ other := by
    rintro rfl
    exact h hother
  have hbound : s.bindings.any (·.1 == other) = false := hs other hother
  simp [isBound, Scope.bind, hne, hbound]

theorem bindAll {names : List String} (h : ∀ name ∈ names, ¬IsReserved name) :
    (s.bindAll names).Avoids := by
  induction names generalizing s with
  | nil => exact hs
  | cons name more ih =>
    obtain ⟨hname, hmore⟩ := List.forall_mem_cons.1 h
    exact ih (hs.bind hname none) hmore

theorem hoistDeclarators {ns : List Node} (h : AllAvoid ns) : (hoistDeclarators ns s).Avoids := by
  induction ns generalizing s with
  | nil => exact hs
  | cons n more ih =>
    obtain ⟨hn, hmore⟩ := List.forall_mem_cons.1 h
    cases n with
    | declarator target init =>
      have hnames := (Node.avoids_iff.1 hn).1
      refine ih ?_ hmore
      cases target with
      | identifier name => exact hs.bind (hnames name (by simp [Node.binds, Node.patternNames])) _
      | _ => exact hs.bindAll hnames
    | _ => exact ih hs hmore

theorem hoistDeclaration {n : Node} (h : n.Avoids) : (s.hoistDeclaration n).Avoids := by
  cases n with
  | functionDeclaration name params body line =>
    exact hs.bind ((Node.avoids_iff.1 h).1 name (by simp [Node.binds])) none
  | variableDeclaration kind declarators => exact hs.hoistDeclarators h.fields
  | _ => exact hs

theorem hoistStatement {n : Node} (h : n.Avoids) : (s.hoistStatement n).Avoids := by
  have hdeclaration := hs.hoistDeclaration h
  cases n with
  | exportNamed declaration specifiers =>
    cases declaration with
    | none => exact hs
    | some d => exact hs.hoistDeclaration (h.fields d (by simp [Node.fields]))
  | _ => exact hdeclaration

theorem hoist {ns : List Node} (h : AllAvoid ns) : (s.hoist ns).Avoids := by
  unfold Scope.hoist
  induction ns generalizing s with
  | nil => exact hs
  | cons n more ih =>
    obtain ⟨hn, hmore⟩ := List.forall_mem_cons.1 h
    exact ih (hs.hoistStatement hn) hmore

theorem function {params : List Node} (h : ∀ name ∈ params.flatMap Node.patternNames, ¬IsReserved name) :
    (s.function params).Avoids := by
  have hprops : Avoids { s.child with
      props := if s.isModule then params.flatMap Node.patternNames else s.props } := hs
  exact hprops.bindAll h

theorem behind {n : Node} (h : n.Avoids) : (s.behind n).Avoids := by
  fun_induction Scope.behind s n with
  | case1 s kind declarators => exact hs.hoistStatement h
  | case2 s test consequent ih => exact ih hs (h.fields consequent (by simp [Node.fields]))
  | case3 s test consequent alternate ihc iha =>
    have hconsequent := ihc hs (h.fields consequent (by simp [Node.fields]))
    exact iha hconsequent (h.fields alternate (by simp [Node.fields]))
  | case4 => exact hs

theorem resolve {name : String} (h : IsReserved name) : s.resolve name = none := by
  have hbound := hs name h
  unfold isBound at hbound
  rw [Scope.resolve, List.lookup_eq_none_iff.2]
  · rfl
  · intro p hp
    have hne : p.1 ≠ name := by simpa using List.any_eq_false.1 hbound p hp
    simpa using hne.symm

/-- A short form means what the method that it stands for means. -/
theorem classify_of_direct {c : Node} {space : Namespace} {method : String}
    (h : Callee.direct? c = some (space, method)) :
    s.classify c = some (.effect space (some method)) ∧
      s.classify (Callee.inFull c) = some (.effect space (some method)) := by
  obtain ⟨name, hname, hshort⟩ := Callee.identifier?_of_direct h
  have hfactory : Callee.isStoreFactory c = false := by
    rw [Callee.isStoreFactory, hname]
    have hstore : name ≠ "store" := by
      rintro rfl
      cases hshort
    simpa using hstore
  constructor
  · simp [classify, hfactory, hname, hs name (isReserved_of_shortForm? hshort), hshort]
  · have hspace := isReserved_name space
    have hstore : s.store? (.identifier space.name) = none := hs.resolve hspace
    simp [classify, hfactory, Callee.identifier?_inFull_of_direct h, Callee.method?_inFull_of_direct h,
      classifyMethod, hstore, hs space.name hspace, ofName?_name]

theorem classify_inFull (c : Node) : s.classify (Callee.inFull c.inFull) = s.classify c := by
  cases h : Callee.direct? c with
  | some d =>
    have h' := (Callee.direct?_inFull c).trans h
    rw [(hs.classify_of_direct h).1, (hs.classify_of_direct h').2]
  | none =>
    rw [Callee.inFull_of_not_direct ((Callee.direct?_inFull c).trans h)]
    unfold classify
    rw [Callee.isStoreFactory_inFull, Callee.identifier?_inFull, Callee.method?_inFull]
    cases Callee.method? c with
    | none => rfl
    | some m => simp only [Option.map_some, Option.bind_some, classifyMethod_inFull]

theorem isActionCall_inFull (n : Node) : s.isActionCall n.inFull = s.isActionCall n := by
  cases n with
  | call callee arguments line => simp only [inFull, isActionCall, hs.classify_inFull]
  | _ => rfl

end Avoids

end Scope

namespace Syntax.Node

theorem Avoids.function? {n body : Node} {params : List Node} (h : n.Avoids)
    (hf : n.function? = some (params, body)) : FunctionAvoids params body := by
  obtain ⟨hbinds, hfields⟩ := avoids_iff.1 h
  cases n with
  | arrow | function =>
    cases hf
    exact ⟨hbinds, hfields body (by simp [Node.fields])⟩
  | functionDeclaration =>
    cases hf
    exact ⟨(List.forall_mem_cons.1 hbinds).2, hfields body (by simp [Node.fields])⟩
  | _ => cases hf

theorem avoids_expressionStatement {e : Node} : (expressionStatement e).Avoids ↔ e.Avoids := by
  rw [avoids_iff]
  simp [binds, Node.fields, AllAvoid]

theorem inherited_avoids : Inherited Avoids Avoids FunctionAvoids where
  search hn := hn
  compile hn _ := hn
  fields hn _ hc := hn.fields _ hc
  children hn hc := hn.children _ hc
  markup hn hc := hn.fields _ hc
  enter hn hf := hn.function? hf
  body hf := hf.body
  statement he := avoids_expressionStatement.2 he

/-- The parameters and the statements of a transaction. -/
theorem AllAvoid.transaction {arguments : List Node} {line : Nat} {t : Transaction}
    (h : AllAvoid arguments) (ht : Transaction.ofArguments arguments line = .ok t) :
    (∀ name ∈ t.params.flatMap patternNames, ¬IsReserved name) ∧ ¬IsReserved t.proxy ∧
      AllAvoid t.statements := by
  obtain ⟨⟨body, hf⟩, hproxy, hstatements⟩ := inherited_avoids.transaction h ht
  refine ⟨hf.params, hf.params _ ?_, hstatements⟩
  exact List.mem_flatMap.2 ⟨_, hproxy, List.mem_singleton_self _⟩

theorem Avoids.mutationOn? {proxy : String} {n : Node} {c : MethodCall} (h : n.Avoids)
    (hc : mutationOn? proxy n = some c) : AllAvoid c.arguments := by
  obtain ⟨callee, hcall, -⟩ := inherited_avoids.mutationOn? h hc
  exact fun a ha => hcall.fields a (List.mem_cons_of_mem callee ha)

end Syntax.Node

end Scenario

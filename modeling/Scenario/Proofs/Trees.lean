import Scenario.Extraction

namespace Scenario

open Syntax

namespace Component

mutual

/-- A component with all components inside it. -/
def nodes : Component → List Component
  | ⟨type, style, properties, children⟩ =>
    ⟨type, style, properties, children⟩ :: nodesAll children

def nodesAll : List Component → List Component
  | [] => []
  | c :: more => c.nodes ++ nodesAll more

end

theorem nodesAll_eq_flatMap (cs : List Component) : nodesAll cs = cs.flatMap nodes := by
  induction cs with
  | nil => rfl
  | cons c more ih => simp [nodesAll, ih]

theorem nodesAll_append (cs ds : List Component) :
    nodesAll (cs ++ ds) = nodesAll cs ++ nodesAll ds := by
  simp [nodesAll_eq_flatMap]

theorem mem_nodes {c d : Component} : d ∈ c.nodes ↔ d = c ∨ d ∈ nodesAll c.children := by
  cases c
  simp [nodes]

end Component

namespace Notes

@[simp] theorem diagnostics_append (m n : Notes) :
    (m ++ n).diagnostics = m.diagnostics ++ n.diagnostics := rfl

@[simp] theorem dropped_append (m n : Notes) : (m ++ n).dropped = m.dropped ++ n.dropped := rfl

end Notes

namespace Content

@[simp] theorem nodes_append (c d : Content) : (c ++ d).nodes = c.nodes ++ d.nodes := rfl

@[simp] theorem texts_append (c d : Content) : (c ++ d).texts = c.texts ++ d.texts := rfl

@[simp] theorem notes_append (c d : Content) : (c ++ d).notes = c.notes ++ d.notes := rfl

end Content

/-- The components that are known, with the main one first. -/
def Rendered.roots (r : Rendered) : List Component := r.main.toList ++ r.components.map (·.2)

/-- The components that are extracted, with the main one first. -/
def Extraction.roots (e : Extraction) : List Component :=
  e.parts.main.toList ++ e.parts.components.map (·.2)

/-- The nodes of all components that are extracted. -/
def Extraction.nodes (e : Extraction) : List Component := e.roots.flatMap Component.nodes

namespace TreeContext

theorem unknownType_of_known {t : TreeContext} {name : String} {line : Nat}
    (h : (t.isKnown name || t.options.allowUnknown) = true) : t.unknownType name line = {} :=
  if_pos h

theorem unknownType_of_not_known {t : TreeContext} {name : String} {line : Nat}
    (h : ¬(t.isKnown name || t.options.allowUnknown) = true) :
    t.unknownType name line =
      { diagnostics :=
          [{ code := .unknownComponent, message := "Unknown component <" ++ name ++ ">"
             severity := if t.options.strict then .error else .warning
             line := Diagnostic.place line }] } :=
  if_neg h

/-- Two contexts with the same props, and a relation between the contents that they give which every
element keeps. A property of one context's contents is such a relation with itself. -/
structure Relates (t t' : TreeContext) (R : Content → Content → Prop) : Prop where
  texts (pieces : List TextPiece) : R { texts := pieces } { texts := pieces }
  append {c c' d d' : Content} : R c c' → R d d' → R (c ++ d) (c' ++ d')
  element {c c' : Content} (name : String) (attributes : List Node) (line : Nat) : R c c' →
    R (asContent (t.component name attributes line c)) (asContent (t'.component name attributes line c'))

theorem Relates.content {t t' : TreeContext} {R : Content → Content → Prop} (h : Relates t t' R)
    (hp : t'.props = t.props) (ns : List Node) : R (t.content ns) (t'.content ns) := by
  have hshown (n : Node) : R (t.shownText n) (t'.shownText n) := by
    unfold shownText
    rw [hp]
    exact h.texts _
  refine content.induct (fun n => R (t.childContent n) (t'.childContent n))
    (fun ns => R (t.content ns) (t'.content ns))
    (fun n => R (t.innerContent n) (t'.innerContent n)) ?_ ?_ ?_ ?_ ?_ ?_ ?_ ?_ ?_ ?_ ?_ ?_ ?_ ?_ ns
  · intro raw text ht
    simp only [childContent, if_pos ht, text]
    exact h.texts []
  · intro raw text ht
    rw [childContent, childContent, if_neg ht]
    exact h.texts _
  · intro e ih
    simpa only [childContent] using ih
  · intro name attributes children line ih
    simpa only [childContent] using h.element name attributes line ih
  · intro children line ih
    simpa only [childContent] using ih
  · intro n _ _ _ _
    rw [childContent, childContent] <;> try assumption
    exact hshown n
  · intro e ih
    simpa only [innerContent] using ih
  · intro e ih
    simpa only [innerContent] using ih
  · intro e ih
    simpa only [innerContent] using ih
  · intro name attributes children line ih
    simpa only [innerContent] using h.element name attributes line ih
  · intro children line ih
    simpa only [innerContent] using ih
  · intro n _ _ _ _ _
    rw [innerContent, innerContent] <;> try assumption
    exact hshown n
  · rw [TreeContext.content, TreeContext.content]
    exact h.texts []
  · intro n more ihn ihm
    rw [TreeContext.content, TreeContext.content]
    exact h.append ihn ihm

end TreeContext

namespace Rendered

variable {o o' : Options}

/-- A relation between what is known of the components under two options that every step of the
extraction keeps. A property under one of them is such a relation with itself. -/
structure Relates (o o' : Options) (R : Rendered → Rendered → Prop) : Prop where
  rename {r r' : Rendered} (mainName : Option String) : R r r' →
    R { r with mainName } { r' with mainName }
  declare {r r' : Rendered} (name : String) : R r r' →
    R { r with locals := r.locals ++ [name] } { r' with locals := r'.locals ++ [name] }
  report {r r' : Rendered} (message : String) : R r r' → R (r.report message) (r'.report message)
  main {r r' : Rendered} (params : List Node) (markup : Node) : R r r' →
    R { r with main := some (r.tree o params markup).1, notes := r.notes ++ (r.tree o params markup).2 }
      { r' with
        main := some (r'.tree o' params markup).1
        notes := r'.notes ++ (r'.tree o' params markup).2 }
  component {r r' : Rendered} (name : String) (params : List Node) (markup : Node) : R r r' →
    R { r with
        components := r.components ++ [(name, (r.tree o params markup).1)]
        notes := r.notes ++ (r.tree o params markup).2 }
      { r' with
        components := r'.components ++ [(name, (r'.tree o' params markup).1)]
        notes := r'.notes ++ (r'.tree o' params markup).2 }

namespace Relates

variable {R : Rendered → Rendered → Prop} (h : Relates o o' R) {r r' : Rendered}

include h

theorem addMain (params : List Node) (markup : Option Node) (hr : R r r') :
    R (r.addMain o params markup) (r'.addMain o' params markup) := by
  cases markup with
  | none => exact h.report _ hr
  | some markup => exact h.main params markup hr

theorem addMainExpression (candidates : List Candidate) (n : Node) (hr : R r r') :
    R (r.addMainExpression o candidates n) (r'.addMainExpression o' candidates n) := by
  unfold Rendered.addMainExpression
  split
  · split
    · exact h.addMain _ _ (h.rename _ hr)
    · exact h.report _ (h.rename none hr)
  · split
    · exact h.addMain _ _ (h.rename none hr)
    · exact h.report _ (h.rename none hr)

theorem readMain (candidates : List Candidate) (n : Node) (hr : R r r') :
    R (Rendered.readMain o candidates r n) (Rendered.readMain o' candidates r' n) := by
  unfold Rendered.readMain
  split
  · exact h.addMain _ _ (h.declare _ (h.rename none hr))
  · exact h.addMainExpression candidates _ hr
  · exact hr

theorem add (name : String) (c : Candidate) (hr : R r r') :
    R (r.add o name c) (r'.add o' name c) := by
  unfold Rendered.add
  split
  · exact hr
  · exact h.component name c.params _ hr

omit h in
/-- Folds whose steps keep a relation keep it. -/
theorem foldl {α : Type} {f f' : Rendered → α → Rendered}
    (hstep : ∀ r r' a, R r r' → R (f r a) (f' r' a)) (as : List α) (hr : R r r') :
    R (as.foldl f r) (as.foldl f' r') := by
  induction as generalizing r r' with
  | nil => exact hr
  | cons a more ih => exact ih (hstep r r' a hr)

theorem addSpecifiers (candidates : List Candidate) (specifiers : List Node) (hr : R r r') :
    R (Rendered.addSpecifiers o candidates r specifiers)
      (Rendered.addSpecifiers o' candidates r' specifiers) := by
  refine foldl ?_ specifiers hr
  intro r r' spec hr
  split
  · split
    · exact h.add _ _ hr
    · exact hr
  · exact hr

theorem addDeclared (elsewhere : List String) (n : Node) (hr : R r r') :
    R (Rendered.addDeclared o elsewhere r n) (Rendered.addDeclared o' elsewhere r' n) := by
  refine foldl ?_ (Candidate.ofStatement n) hr
  intro r r' c hr
  split
  · exact hr
  · exact h.add _ c hr

theorem readComponents (candidates : List Candidate) (elsewhere : List String) (n : Node)
    (hr : R r r') :
    R (Rendered.readComponents o candidates elsewhere r n)
      (Rendered.readComponents o' candidates elsewhere r' n) := by
  unfold Rendered.readComponents
  split
  · exact h.addSpecifiers candidates _ hr
  · exact h.addDeclared elsewhere n hr

theorem ofProgram (hname : ∀ {r r'}, R r r' → r'.mainName = r.mainName)
    (hstart : ∀ locals, R { locals } { locals }) (body : List Node) :
    R (Rendered.ofProgram o body) (Rendered.ofProgram o' body) := by
  have hmain := foldl (fun r r' n hr => h.readMain (body.flatMap Candidate.ofStatement) n hr) body
    (hstart (((body.flatMap Candidate.ofStatement).filter (·.markup.isSome)).map (·.name)))
  unfold Rendered.ofProgram
  simp only [hname hmain]
  exact foldl (fun r r' n hr => h.readComponents _ _ n hr) body hmain

end Relates

end Rendered

/-- Every node of a component has a property, where a fragment at the root needs none. -/
def Component.Covered (P : Component → Prop) (c : Component) : Prop :=
  ((∃ children, c = { type := "", children }) ∨ P c) ∧ ∀ d ∈ nodesAll c.children, P d

theorem Component.Covered.mono {P P' : Component → Prop} {c : Component} (h : c.Covered P)
    (hP : ∀ d, P d → P' d) : c.Covered P' :=
  ⟨h.1.imp_right (hP c), fun d hd => hP d (h.2 d hd)⟩

/-- A property of nodes, given the components that the scenario defines and the reports, which the
component of every element has as soon as the type of the element is looked at. -/
structure NodeLaw (options : Options) (Q : List String → List Diagnostic → Component → Prop) :
    Prop where
  mono {locals locals' : List String} {ds ds' : List Diagnostic} {c : Component} :
    locals ⊆ locals' → ds ⊆ ds' → Q locals ds c → Q locals' ds' c
  element (locals props : List String) (name : String) (attributes : List Node) (line : Nat)
    (inside : Content) :
    Q locals (TreeContext.unknownType ⟨options, locals, props⟩ name line).diagnostics
      (TreeContext.component ⟨options, locals, props⟩ name attributes line inside).1

namespace NodeLaw

variable {options : Options} {Q : List String → List Diagnostic → Component → Prop}
  (h : NodeLaw options Q) (locals props : List String)

include h

theorem component {inside : Content} (name : String) (attributes : List Node) (line : Nat)
    (hi : ∀ d ∈ Component.nodesAll inside.nodes, Q locals inside.notes.diagnostics d) :
    ∀ d ∈ (TreeContext.component ⟨options, locals, props⟩ name attributes line inside).1.nodes,
      Q locals (TreeContext.component ⟨options, locals, props⟩ name attributes line inside).2.diagnostics
        d := by
  intro d hd
  rcases Component.mem_nodes.1 hd with rfl | hd
  · refine h.mono (List.Subset.refl _) ?_ (h.element locals props name attributes line inside)
    intro x hx
    simp only [TreeContext.component, Notes.diagnostics_append, List.mem_append]
    exact .inl (.inl (.inl hx))
  · have hd : d ∈ Component.nodesAll inside.nodes := by
      simp only [TreeContext.component] at hd
      split at hd
      · exact hd
      · cases hd
    refine h.mono (List.Subset.refl _) ?_ (hi d hd)
    intro x hx
    simp only [TreeContext.component, Notes.diagnostics_append, List.mem_append]
    exact .inl (.inl (.inr hx))

theorem relates : TreeContext.Relates ⟨options, locals, props⟩ ⟨options, locals, props⟩ fun c _ =>
    ∀ d ∈ Component.nodesAll c.nodes, Q locals c.notes.diagnostics d where
  texts _ := by simp [Component.nodesAll]
  append {c c' d d'} hc hd e he := by
    rw [Content.nodes_append, Component.nodesAll_append] at he
    rw [Content.notes_append, Notes.diagnostics_append]
    rcases List.mem_append.1 he with he | he
    · exact h.mono (List.Subset.refl _) (List.subset_append_left _ _) (hc e he)
    · exact h.mono (List.Subset.refl _) (List.subset_append_right _ _) (hd e he)
  element name attributes line hc d hd := by
    refine h.component locals props name attributes line hc d ?_
    simpa [TreeContext.asContent, Component.nodesAll] using hd

theorem build (n : Node) :
    (TreeContext.build ⟨options, locals, props⟩ n).1.Covered
      (Q locals (TreeContext.build ⟨options, locals, props⟩ n).2.diagnostics) := by
  have hcontent (ns : List Node) := (h.relates locals props).content rfl ns
  cases n with
  | element name attributes children line =>
    have hnodes := h.component locals props name attributes line (hcontent children)
    exact ⟨.inr (hnodes _ (Component.mem_nodes.2 (.inl rfl))),
      fun d hd => hnodes d (Component.mem_nodes.2 (.inr hd))⟩
  | fragment children line => exact ⟨.inl ⟨_, rfl⟩, hcontent children⟩
  | _ => exact ⟨.inl ⟨[], rfl⟩, fun d hd => by cases hd⟩

/-- One more tree keeps the property of all roots. -/
theorem tree {r : Rendered} (hr : ∀ c ∈ r.roots, c.Covered (Q r.locals r.notes.diagnostics))
    (params : List Node) (markup : Node) :
    ∀ c ∈ r.roots ++ [(r.tree options params markup).1],
      c.Covered (Q r.locals (r.notes ++ (r.tree options params markup).2).diagnostics) := by
  intro c hc
  rcases List.mem_append.1 hc with hc | hc
  · exact (hr c hc).mono fun d hd => h.mono (List.Subset.refl _) (List.subset_append_left _ _) hd
  · rw [List.mem_singleton.1 hc]
    exact (h.build r.locals _ markup).mono fun d hd =>
      h.mono (List.Subset.refl _) (List.subset_append_right _ _) hd

theorem relatesRendered : Rendered.Relates options options fun r r' =>
    r = r' ∧ ∀ c ∈ r.roots, c.Covered (Q r.locals r.notes.diagnostics) where
  rename _ hr := ⟨by rw [hr.1], hr.2⟩
  declare _ hr := ⟨by rw [hr.1], fun c hc => (hr.2 c hc).mono fun d hd =>
    h.mono (List.subset_append_left _ _) (List.Subset.refl _) hd⟩
  report _ hr := ⟨by rw [hr.1], fun c hc => (hr.2 c hc).mono fun d hd =>
    h.mono (List.Subset.refl _) (List.subset_append_left _ _) hd⟩
  main {r _} params markup hr := by
    refine ⟨by rw [hr.1], fun c hc => h.tree hr.2 params markup c ?_⟩
    rcases List.mem_append.1 hc with hc | hc
    · exact List.mem_append_right _ hc
    · exact List.mem_append_left _ (List.mem_append_right _ hc)
  component {r _} name params markup hr := by
    refine ⟨by rw [hr.1], fun c hc => h.tree hr.2 params markup c ?_⟩
    simpa [Rendered.roots, or_assoc] using hc

/-- The property holds of every node that is extracted. -/
theorem of_mem_roots (body : List Node) :
    ∀ c ∈ (extract options body).roots,
      c.Covered (Q (extract options body).locals (extract options body).diagnostics) := by
  intro c hc
  have hrendered := h.relatesRendered.ofProgram (fun hr => by rw [hr.1])
    (fun _ => ⟨rfl, by simp [Rendered.roots]⟩) body
  refine (hrendered.2 c hc).mono fun d hd => h.mono (List.Subset.refl _) ?_ hd
  intro x hx
  exact List.mem_append_left _ (List.mem_append_right _ hx)

end NodeLaw

end Scenario

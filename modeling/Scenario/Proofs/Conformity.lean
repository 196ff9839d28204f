import Mathlib.Data.List.Forall2
import Scenario.Proofs.Trees

namespace Scenario

open Syntax

/-- The member `text` of an object. -/
def Value.text? : Value → Option Value
  | .object fs => Fields.get? fs "text"
  | _ => none

/-- What an element is made of, without the node around it. -/
structure Element where
  name : String
  attributes : List Node
  children : List Node
  line : Nat

namespace Element

def node (e : Element) : Node := .element e.name e.attributes e.children e.line

/-- The member `text` of the object literal in the attribute `properties`. -/
def ownText? (props : List String) (e : Element) : Option Value :=
  match Node.attribute? e.attributes "properties" with
  | some (.attribute _ (some value)) => (staticValue props value).text?
  | _ => none

mutual

/-- The elements in something between two tags, each in front of those inside it. -/
def between : Node → List Element
  | .container e => inBraces e
  | .element name attributes children line => ⟨name, attributes, children, line⟩ :: betweenAll children
  | .fragment children _ => betweenAll children
  | _ => []

/-- The elements in an expression in braces. Only the expression itself is looked at, in wrappers
perhaps. -/
def inBraces : Node → List Element
  | .container e => inBraces e
  | .parenthesized e => inBraces e
  | .assertion e => inBraces e
  | .element name attributes children line => ⟨name, attributes, children, line⟩ :: betweenAll children
  | .fragment children _ => betweenAll children
  | _ => []

def betweenAll : List Node → List Element
  | [] => []
  | n :: more => between n ++ betweenAll more

end

end Element

theorem Registry.isRegistered_iff {r : Registry} {name : String} :
    r.isRegistered name = true ↔ name ∈ r.names := by
  simp [isRegistered, find?, names]

namespace TreeContext

variable (t : TreeContext)

/-- The reports about the elements whose types are neither registered nor declared by the program. -/
def unknownReports (es : List Element) : List Diagnostic :=
  if t.options.allowUnknown then []
  else
    (es.filter fun e => e.name ∉ t.locals ∧ e.name ∉ t.options.registry.names).map fun e =>
      { code := .unknownComponent, message := "Unknown component <" ++ e.name ++ ">"
        severity := if t.options.strict then .error else .warning
        line := Diagnostic.place e.line }

/-- A component is built from an element and has what its type may have: no children if the type takes
none, and no text but its own if the type takes none. -/
structure Conforms (c : Component) (e : Element) : Prop where
  built : c = (t.build e.node).1
  type : c.type = e.name
  children {d : Definition} : t.options.registry.find? c.type = some d → d.childrenAllowed = false →
    c.children = []
  text : c.properties.get? "text" ≠ e.ownText? t.props →
    ∃ d, t.options.registry.find? c.type = some d ∧ d.textAllowed = true

/-- An object that is taken for a prop has no text. -/
theorem text?_of_isPropRef {v : Value} (h : v.isPropRef = true) : v.text? = none := by
  unfold Value.isPropRef at h
  split at h
  · rfl
  · rfl
  · cases h

theorem get?_text_plainObject? (v : Value) : (v.plainObject?.getD []).get? "text" = v.text? := by
  cases v with
  | object fs =>
    by_cases hprop : (Value.object fs).isPropRef = true
    · rw [Value.plainObject?, if_pos hprop, text?_of_isPropRef hprop]
      rfl
    · rw [Value.plainObject?, if_neg hprop]
      rfl
  | _ => rfl

theorem get?_text_objectAttribute (e : Element) :
    (t.objectAttribute e.attributes "properties").get? "text" = e.ownText? t.props := by
  unfold objectAttribute Element.ownText?
  cases Node.attribute? e.attributes "properties" with
  | none => rfl
  | some n =>
    cases n with
    | «attribute» name value =>
      cases value with
      | none => rfl
      | some value => exact get?_text_plainObject? (staticValue t.props value)
    | _ => rfl

theorem conforms_build (e : Element) : t.Conforms (t.build e.node).1 e := by
  refine ⟨rfl, rfl, ?_, ?_⟩
  · intro d hd hnone
    have hd : t.options.registry.find? e.name = some d := hd
    simp [build, Element.node, component, hd, hnone]
  · intro htext
    change ∃ d, t.options.registry.find? e.name = some d ∧ d.textAllowed = true
    cases hd : t.options.registry.find? e.name with
    | none =>
      refine absurd ?_ htext
      simp [build, Element.node, component, hd, get?_text_objectAttribute]
    | some d =>
      refine ⟨d, rfl, ?_⟩
      by_contra hnone
      refine htext ?_
      simp [build, Element.node, component, hd, hnone, get?_text_objectAttribute]

theorem diagnostics_unknownType (e : Element) :
    (t.unknownType e.name e.line).diagnostics = t.unknownReports [e] := by
  by_cases hallow : t.options.allowUnknown = true
  · simp [unknownType, unknownReports, hallow]
  · by_cases hlocal : e.name ∈ t.locals <;>
      by_cases hname : t.options.registry.isRegistered e.name = true <;>
      simp [unknownType, unknownReports, isKnown, hallow, hlocal, hname, ← Registry.isRegistered_iff]

/-- The reports about unknown types among reports. -/
def aboutTypes (ds : List Diagnostic) : List Diagnostic := ds.filter (·.code = .unknownComponent)

theorem aboutTypes_append (ds es : List Diagnostic) :
    aboutTypes (ds ++ es) = aboutTypes ds ++ aboutTypes es :=
  List.filter_append ..

theorem aboutTypes_unknownReports (es : List Element) :
    aboutTypes (t.unknownReports es) = t.unknownReports es := by
  refine List.filter_eq_self.2 ?_
  intro d hd
  unfold unknownReports at hd
  split at hd
  · cases hd
  · obtain ⟨e, -, rfl⟩ := List.mem_map.1 hd
    simp

theorem aboutTypes_joinedText (name : String) (line : Nat) (pieces : List TextPiece) :
    aboutTypes (joinedText name line pieces).2.diagnostics = [] := by
  unfold joinedText
  split
  · rfl
  · rfl
  · split
    · rfl
    · simp [aboutTypes]

/-- The type of an element is reported in front of what stands inside it, and nothing else about types is
reported. -/
theorem aboutTypes_component (e : Element) (inside : Content) :
    aboutTypes (t.component e.name e.attributes e.line inside).2.diagnostics =
      t.unknownReports [e] ++ aboutTypes inside.notes.diagnostics := by
  have hdropped (c : Bool) (d : List Dropped) :
      aboutTypes (if c then {} else { dropped := d } : Notes).diagnostics = [] := by
    cases c <;> rfl
  have hmixed (c : Bool) : aboutTypes
      (if c then joinedText e.name e.line inside.texts else (none, {})).2.diagnostics = [] := by
    cases c with
    | false => rfl
    | true => exact aboutTypes_joinedText e.name e.line inside.texts
  simp only [component, Notes.diagnostics_append, aboutTypes_append, hdropped, hmixed,
    diagnostics_unknownType, aboutTypes_unknownReports, List.append_nil]

theorem unknownReports_append (ds es : List Element) :
    t.unknownReports (ds ++ es) = t.unknownReports ds ++ t.unknownReports es := by
  unfold unknownReports
  split <;> simp

/-- The nodes among contents are built from elements in their order, and what is reported about types is
about these elements. -/
structure Accounts (c : Content) (es : List Element) : Prop where
  nodes : List.SublistForall₂ t.Conforms (Component.nodesAll c.nodes) es
  reports : aboutTypes c.notes.diagnostics = t.unknownReports es

theorem sublistForall₂_append {α β : Type} {R : α → β → Prop} {as cs : List α} {bs ds : List β}
    (h : List.SublistForall₂ R as bs) (h' : List.SublistForall₂ R cs ds) :
    List.SublistForall₂ R (as ++ cs) (bs ++ ds) := by
  obtain ⟨bs', hbs, hsub⟩ := List.sublistForall₂_iff.1 h
  obtain ⟨ds', hds, hsub'⟩ := List.sublistForall₂_iff.1 h'
  exact List.sublistForall₂_iff.2 ⟨bs' ++ ds', List.rel_append hbs hds, hsub.append hsub'⟩

variable {t}

theorem accounts_texts (pieces : List TextPiece) : t.Accounts { texts := pieces } [] where
  nodes := .nil
  reports := by
    unfold unknownReports
    split <;> rfl

theorem Accounts.append {c d : Content} {es fs : List Element} (hc : t.Accounts c es)
    (hd : t.Accounts d fs) : t.Accounts (c ++ d) (es ++ fs) where
  nodes := by
    rw [Content.nodes_append, Component.nodesAll_append]
    exact sublistForall₂_append hc.nodes hd.nodes
  reports := by
    rw [Content.notes_append, Notes.diagnostics_append, aboutTypes_append, hc.reports, hd.reports,
      unknownReports_append]

/-- An element accounts for itself and for what stands inside it, whether that is dropped or not. -/
theorem Accounts.element (e : Element) {es : List Element}
    (h : t.Accounts (t.content e.children) es) :
    t.Accounts (asContent (t.component e.name e.attributes e.line (t.content e.children))) (e :: es)
    where
  nodes := by
    have hroot : t.Conforms (t.component e.name e.attributes e.line (t.content e.children)).1 e :=
      t.conforms_build e
    have hchildren : List.SublistForall₂ t.Conforms (Component.nodesAll
        (t.component e.name e.attributes e.line (t.content e.children)).1.children) es := by
      simp only [component]
      split
      · exact h.nodes
      · exact .nil
    have hnodes (c : Component) : Component.nodesAll [c] = c :: Component.nodesAll c.children := by
      cases c
      simp [Component.nodesAll, Component.nodes]
    rw [asContent, hnodes]
    exact .cons hroot hchildren
  reports := by
    rw [asContent, aboutTypes_component, h.reports, ← unknownReports_append]
    rfl

variable (t)

theorem accounts_content (ns : List Node) : t.Accounts (t.content ns) (Element.betweenAll ns) := by
  refine content.induct (fun n => t.Accounts (t.childContent n) (Element.between n))
    (fun ns => t.Accounts (t.content ns) (Element.betweenAll ns))
    (fun n => t.Accounts (t.innerContent n) (Element.inBraces n))
    ?_ ?_ ?_ ?_ ?_ ?_ ?_ ?_ ?_ ?_ ?_ ?_ ?_ ?_ ns
  · intro raw text ht
    simp only [childContent, if_pos ht, text]
    exact accounts_texts []
  · intro raw text ht
    rw [childContent, if_neg ht]
    exact accounts_texts _
  · intro e ih
    simpa only [childContent, Element.between] using ih
  · intro name attributes children line ih
    simpa only [childContent, Element.between] using
      Accounts.element ⟨name, attributes, children, line⟩ ih
  · intro children line ih
    simpa only [childContent, Element.between] using ih
  · intro n _ _ _ _
    rw [childContent, Element.between] <;> try assumption
    exact accounts_texts _
  · intro e ih
    simpa only [innerContent, Element.inBraces] using ih
  · intro e ih
    simpa only [innerContent, Element.inBraces] using ih
  · intro e ih
    simpa only [innerContent, Element.inBraces] using ih
  · intro name attributes children line ih
    simpa only [innerContent, Element.inBraces] using
      Accounts.element ⟨name, attributes, children, line⟩ ih
  · intro children line ih
    simpa only [innerContent, Element.inBraces] using ih
  · intro n _ _ _ _ _
    rw [innerContent, Element.inBraces] <;> try assumption
    exact accounts_texts _
  · rw [content, Element.betweenAll]
    exact accounts_texts []
  · intro n more ihn ihm
    rw [content, Element.betweenAll]
    exact ihn.append ihm

/-- The nodes of the tree of an element are built from the elements that stand in it, in their order, and
each has what the registry lets its type have. What is reported about types is one report for each of
these elements that has an unknown type, in their order, unless unknown types are allowed. -/
theorem conforms_and_reports (e : Element) :
    List.SublistForall₂ t.Conforms (t.build e.node).1.nodes (Element.between e.node) ∧
      (t.build e.node).2.diagnostics.filter (·.code = .unknownComponent) =
        t.unknownReports (Element.between e.node) := by
  have h := Accounts.element e (t.accounts_content e.children)
  constructor
  · simpa [asContent, Component.nodesAll, build, Element.node, Element.between] using h.nodes
  · simpa [asContent, aboutTypes, build, Element.node, Element.between] using h.reports

end TreeContext

end Scenario

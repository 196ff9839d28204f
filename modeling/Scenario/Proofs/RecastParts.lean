import Scenario.Proofs.Recasting

namespace Scenario

open Syntax
open Syntax.Node (recast unwrap_recast)

variable (k : Recall)

theorem Syntax.Node.attribute?_recast (attributes : List Node) (name : String) :
    Node.attribute? (attributes.map (recast k)) name = (Node.attribute? attributes name).map (recast k) := by
  unfold Node.attribute?
  rw [← List.map_reverse, List.find?_map]
  congr 2
  funext n
  cases n <;> rfl

namespace TreeContext

variable (t : TreeContext)

@[simp] theorem objectAttribute_recast (attributes : List Node) (name : String) :
    t.objectAttribute (attributes.map (recast k)) name = t.objectAttribute attributes name := by
  unfold objectAttribute
  rw [Node.attribute?_recast k]
  cases Node.attribute? attributes name with
  | none => rfl
  | some n =>
    cases n with
    | «attribute» name value => cases value <;> simp [recast]
    | _ => rfl

@[simp] theorem component_recast (name : String) (attributes : List Node) (line : Nat)
    (inside : Content) :
    t.component name (attributes.map (recast k)) line inside = t.component name attributes line inside := by
  simp only [component, style, objectAttribute_recast]

@[simp] theorem shownText_recast (n : Node) : t.shownText (n.recast k) = t.shownText n := by
  simp only [shownText, staticValue_recast]

/-- What stands between tags and in braces. -/
theorem contents_recast :
    (∀ n, t.childContent (n.recast k) = t.childContent n) ∧
      (∀ ns, t.content (ns.map (recast k)) = t.content ns) ∧
      ∀ n, t.innerContent (n.recast k) = t.innerContent n := by
  refine childContent.mutual_induct
    (fun n => t.childContent (n.recast k) = t.childContent n)
    (fun ns => t.content (ns.map (recast k)) = t.content ns)
    (fun n => t.innerContent (n.recast k) = t.innerContent n)
    ?_ ?_ ?_ ?_ ?_ ?_ ?_ ?_ ?_ ?_ ?_ ?_ ?_ ?_
  · intro raw _ _
    rfl
  · intro raw _ _
    rfl
  · intro e ih
    exact ih
  · intro name attributes children line ih
    simp only [recast, Node.recastAll_eq_map, childContent, component_recast, ih]
  · intro children line ih
    simp only [recast, Node.recastAll_eq_map, childContent, ih]
  · intro n ht hc he hf
    have hshown := t.shownText_recast k n
    cases n with
    | text raw => exact absurd rfl (ht raw)
    | container e => exact absurd rfl (hc e)
    | element name attributes children line => exact absurd rfl (he name attributes children line)
    | fragment children line => exact absurd rfl (hf children line)
    | _ => exact hshown
  · intro e ih
    exact ih
  · intro e ih
    exact ih
  · intro e ih
    exact ih
  · intro name attributes children line ih
    simp only [recast, Node.recastAll_eq_map, innerContent, component_recast, ih]
  · intro children line ih
    simp only [recast, Node.recastAll_eq_map, innerContent, ih]
  · intro n hc hp ha he hf
    have hshown := t.shownText_recast k n
    cases n with
    | container e => exact absurd rfl (hc e)
    | parenthesized e => exact absurd rfl (hp e)
    | assertion e => exact absurd rfl (ha e)
    | element name attributes children line => exact absurd rfl (he name attributes children line)
    | fragment children line => exact absurd rfl (hf children line)
    | _ => exact hshown
  · rfl
  · intro n more ihn ihm
    rw [List.map_cons, content, content, ihn, ihm]

@[simp] theorem build_recast (n : Node) : t.build (n.recast k) = t.build n := by
  cases n with
  | element name attributes children line => simp [recast, build, (t.contents_recast k).2.1]
  | fragment children line => simp [recast, build, (t.contents_recast k).2.1]
  | _ => rfl

end TreeContext

theorem markup?_recast (n : Node) : markup? (n.recast k) = (markup? n).map (recast k) := by
  unfold markup?
  rw [unwrap_recast]
  cases n.unwrap <;> rfl

theorem returnedMarkup?_recast (ns : List Node) :
    returnedMarkup? (ns.map (recast k)) = (returnedMarkup? ns).map (recast k) := by
  induction ns with
  | nil => rfl
  | cons n more ih =>
    cases n with
    | returnStatement argument =>
      cases argument with
      | none => exact ih
      | some e =>
        simp only [List.map_cons, recast, Node.recastOption, returnedMarkup?, markup?_recast, ih]
        cases markup? e <;> rfl
    | _ => exact ih

theorem renderedMarkup?_recast (body : Node) :
    renderedMarkup? (body.recast k) = (renderedMarkup? body).map (recast k) := by
  have hmarkup := markup?_recast k body
  cases body with
  | block b => rw [recast, Node.recastAll_eq_map, renderedMarkup?, renderedMarkup?,
      returnedMarkup?_recast]
  | _ => exact hmarkup

namespace Candidate

/-- A candidate whose parameters and markup are changed. -/
def recast (c : Candidate) : Candidate :=
  { c with params := c.params.map (Node.recast k), markup := c.markup.map (Node.recast k) }

theorem ofFunction_recast (exported : Bool) (name : String) (params : List Node) (body : Node) :
    ofFunction exported name (params.map (Node.recast k)) (body.recast k) =
      (ofFunction exported name params body).recast k := by
  simp [ofFunction, recast, renderedMarkup?_recast]

theorem ofDeclarator?_recast (exported : Bool) (n : Node) :
    ofDeclarator? exported (n.recast k) = (ofDeclarator? exported n).map (recast k) := by
  cases n with
  | declarator target init =>
    cases init with
    | none => cases target <;> rfl
    | some e =>
      cases target with
      | identifier name =>
        simp [Node.recast, ofDeclarator?, Option.map_map, Function.comp_def, ofFunction_recast]
      | _ => rfl
  | _ => rfl

theorem ofDeclaration_recast (exported : Bool) (n : Node) :
    ofDeclaration exported (n.recast k) = (ofDeclaration exported n).map (recast k) := by
  cases n with
  | functionDeclaration name params body line =>
    simp [Node.recast, ofDeclaration, ofFunction_recast]
  | variableDeclaration kind declarators =>
    simp only [Node.recast, Node.recastAll_eq_map, ofDeclaration, List.filterMap_map,
      List.map_filterMap]
    congr 1
    funext n
    exact ofDeclarator?_recast k exported n
  | _ => rfl

theorem ofStatement_recast (n : Node) : ofStatement (n.recast k) = (ofStatement n).map (recast k) := by
  have hdeclaration := ofDeclaration_recast k false n
  cases n with
  | exportNamed declaration specifiers =>
    cases declaration with
    | none => rfl
    | some d => simp [Node.recast, ofStatement, ofDeclaration_recast]
  | _ => exact hdeclaration

theorem find?_recast (candidates : List Candidate) (name : String) :
    find? (candidates.map (recast k)) name = (find? candidates name).map (recast k) := by
  unfold find?
  rw [← List.map_reverse, List.find?_map]
  rfl

end Candidate

theorem exportedConstants_recast (n : Node) :
    exportedConstants (n.recast k) =
      (exportedConstants n).map fun (name, init) => (name, init.map (recast k)) := by
  cases n with
  | exportNamed declaration specifiers =>
    cases declaration with
    | none => rfl
    | some d =>
      cases d with
      | variableDeclaration kind declarators =>
        simp only [recast, Node.recastOption, Node.recastAll_eq_map, exportedConstants,
          List.filterMap_map, List.map_filterMap]
        congr 1
        funext n
        cases n with
        | declarator target init => cases target <;> simp [recast]
        | _ => rfl
      | _ => rfl
  | _ => rfl

namespace Metadata

variable (m : Metadata)

@[simp] theorem readKey_recast (n : Option Node) : m.readKey (n.map (recast k)) = m.readKey n := by
  cases n <;> simp [readKey]

@[simp] theorem readVersion_recast (n : Option Node) :
    m.readVersion (n.map (recast k)) = m.readVersion n := by
  cases n <;> simp [readVersion]

theorem wholeNumber?_recast (n : Node) : wholeNumber? (n.recast k) = wholeNumber? n := by
  unfold wholeNumber?
  rw [unwrap_recast]
  cases n.unwrap <;> rfl

@[simp] theorem readBuildNumber_recast (n : Option Node) :
    m.readBuildNumber (n.map (recast k)) = m.readBuildNumber n := by
  cases n <;> simp [readBuildNumber, wholeNumber?_recast]

theorem members_recast (ms : List Node) :
    members (ms.map (recast k)) = (members ms).mapValues (recast k) := by
  unfold members
  rw [List.foldl_map, ← List.foldl_hom (Fields.mapValues (recast k))]
  · rfl
  · intro fields n
    cases n with
    | property key value => simp [recast, Fields.put_mapValues]
    | _ => rfl

@[simp] theorem readRecord_recast (init : Option Node) :
    m.readRecord (init.map (recast k)) = m.readRecord init := by
  cases init with
  | none => rfl
  | some n =>
    simp only [readRecord, Option.map_some, Option.bind_some, objectMembers?_recast]
    cases objectMembers? n with
    | none => rfl
    | some ms => simp [members_recast]

@[simp] theorem readConstant_recast (name : String) (init : Option Node) :
    m.readConstant name (init.map (recast k)) = m.readConstant name init := by
  have htext : (init.map (recast k)).bind Node.staticString? = init.bind Node.staticString? := by
    cases init <;> simp
  simp only [readConstant, htext, readRecord_recast]

theorem ofProgram_recast (body : List Node) : ofProgram (body.map (recast k)) = ofProgram body := by
  have hconstants : (body.map (recast k)).flatMap exportedConstants =
      (body.flatMap exportedConstants).map fun (name, init) => (name, init.map (recast k)) := by
    simp [List.flatMap_map, List.map_flatMap, exportedConstants_recast]
  simp [ofProgram, hconstants, List.foldl_map]

end Metadata

namespace Rendered

variable (options : Options) (r : Rendered) (candidates : List Candidate)

@[simp] theorem tree_recast (params : List Node) (markup : Node) :
    r.tree options (params.map (recast k)) (markup.recast k) = r.tree options params markup := by
  simp [tree, List.flatMap_map]

@[simp] theorem addMain_recast (params : List Node) (markup : Option Node) :
    r.addMain options (params.map (recast k)) (markup.map (recast k)) = r.addMain options params markup := by
  cases markup <;> simp [addMain]

theorem addMainExpression_recast (n : Node) :
    r.addMainExpression options (candidates.map (Candidate.recast k)) (n.recast k) =
      r.addMainExpression options candidates n := by
  simp only [addMainExpression, Callee.identifier?_recast, Candidate.find?_recast, functionOf?_recast]
  cases Callee.identifier? n with
  | some name =>
    dsimp only
    cases Candidate.find? candidates name with
    | none => rfl
    | some c => simp only [Option.map_some, Candidate.recast, addMain_recast]
  | none =>
    cases functionOf? n with
    | none => rfl
    | some f => simp only [Option.map_some, renderedMarkup?_recast, addMain_recast]

theorem readMain_recast (n : Node) :
    r.readMain options (candidates.map (Candidate.recast k)) (n.recast k) =
      r.readMain options candidates n := by
  cases n with
  | exportDefault d =>
    have hexpression := addMainExpression_recast k options r candidates d
    cases d with
    | functionDeclaration name params body line =>
      simp only [recast, Node.recastAll_eq_map, readMain, renderedMarkup?_recast, addMain_recast]
    | _ => exact hexpression
  | _ => rfl

@[simp] theorem add_recast (name : String) (c : Candidate) :
    r.add options name (c.recast k) = r.add options name c := by
  simp only [add, Candidate.recast]
  cases c.markup <;> simp

theorem addSpecifiers_recast (specifiers : List Node) :
    addSpecifiers options (candidates.map (Candidate.recast k)) r (specifiers.map (recast k)) =
      addSpecifiers options candidates r specifiers := by
  unfold addSpecifiers
  rw [List.foldl_map]
  congr 1
  funext r n
  cases n with
  | exportSpecifier localName exported =>
    simp only [recast, Candidate.find?_recast]
    cases Candidate.find? candidates localName with
    | none => rfl
    | some c => exact add_recast k options r exported c
  | _ => rfl

theorem addDeclared_recast (elsewhere : List String) (n : Node) :
    addDeclared options elsewhere r (n.recast k) = addDeclared options elsewhere r n := by
  simp only [addDeclared, Candidate.ofStatement_recast, List.foldl_map, add_recast]
  rfl

theorem readComponents_recast (elsewhere : List String) (n : Node) :
    readComponents options (candidates.map (Candidate.recast k)) elsewhere r (n.recast k) =
      readComponents options candidates elsewhere r n := by
  have hdeclared := addDeclared_recast k options r elsewhere n
  cases n with
  | exportNamed declaration specifiers =>
    cases specifiers with
    | nil => exact hdeclared
    | cons spec more =>
      rw [recast, Node.recastAll_eq_map]
      exact addSpecifiers_recast k options r candidates (spec :: more)
  | _ => exact hdeclared

theorem reExported_recast (n : Node) : reExported (n.recast k) = reExported n := by
  cases n with
  | exportNamed declaration specifiers =>
    simp only [recast, Node.recastAll_eq_map, reExported, List.filterMap_map]
    congr 1
    funext n
    cases n <;> rfl
  | _ => rfl

theorem ofProgram_recast (body : List Node) :
    ofProgram options (body.map (recast k)) = ofProgram options body := by
  have hcandidates : (body.map (recast k)).flatMap Candidate.ofStatement =
      (body.flatMap Candidate.ofStatement).map (Candidate.recast k) := by
    simp [List.flatMap_map, List.map_flatMap, Candidate.ofStatement_recast]
  have hlocals : (((body.flatMap Candidate.ofStatement).map (Candidate.recast k)).filter
      (·.markup.isSome)).map (·.name) =
        ((body.flatMap Candidate.ofStatement).filter (·.markup.isSome)).map (·.name) := by
    simp [List.filter_map, Function.comp_def, Candidate.recast]
  have hnames : (body.map (recast k)).flatMap reExported = body.flatMap reExported := by
    simp [List.flatMap_map, reExported_recast]
  simp only [ofProgram, hcandidates, hlocals, hnames, List.foldl_map, readMain_recast,
    readComponents_recast]

end Rendered

end Scenario

import Scenario.Proofs.WrappedActions

namespace Scenario

open Syntax
open Syntax.Node (bare unwrap_bare staticString?_bare)

theorem Syntax.Node.attribute?_bare (attributes : List Node) (name : String) :
    Node.attribute? (attributes.map (bare false)) name =
      (Node.attribute? attributes name).map (bare false) := by
  unfold Node.attribute?
  rw [← List.map_reverse, List.find?_map]
  congr 2
  funext n
  cases n <;> rfl

namespace TreeContext

variable (t : TreeContext)

@[simp] theorem objectAttribute_bare (attributes : List Node) (name : String) :
    t.objectAttribute (attributes.map (bare false)) name = t.objectAttribute attributes name := by
  unfold objectAttribute
  rw [Node.attribute?_bare]
  cases Node.attribute? attributes name with
  | none => rfl
  | some n =>
    cases n with
    | «attribute» name value => cases value <;> simp [bare]
    | _ => rfl

@[simp] theorem component_bare (name : String) (attributes : List Node) (line : Nat)
    (inside : Content) :
    t.component name (attributes.map (bare false)) line inside =
      t.component name attributes line inside := by
  simp only [component, style, objectAttribute_bare]

@[simp] theorem shownText_bare (v : Bool) (n : Node) : t.shownText (n.bare v) = t.shownText n := by
  simp only [shownText, staticValue_bare]

/-- What stands between tags and in braces, without wrappers. -/
theorem contents_bare :
    (∀ n, t.childContent (n.bare false) = t.childContent n) ∧
      (∀ ns, t.content (ns.map (bare false)) = t.content ns) ∧
      ∀ n v, t.innerContent (n.bare v) = t.innerContent n := by
  refine childContent.mutual_induct
    (fun n => t.childContent (n.bare false) = t.childContent n)
    (fun ns => t.content (ns.map (bare false)) = t.content ns)
    (fun n => ∀ v, t.innerContent (n.bare v) = t.innerContent n)
    ?_ ?_ ?_ ?_ ?_ ?_ ?_ ?_ ?_ ?_ ?_ ?_ ?_ ?_
  · intro raw _ _
    rfl
  · intro raw _ _
    rfl
  · intro e ih
    exact ih true
  · intro name attributes children line ih
    simp only [bare, Node.bareAll_eq_map, childContent, component_bare, ih]
  · intro children line ih
    simp only [bare, Node.bareAll_eq_map, childContent, ih]
  · intro n ht hc he hf
    have hshown := t.shownText_bare false n
    cases n with
    | text raw => exact absurd rfl (ht raw)
    | container e => exact absurd rfl (hc e)
    | element name attributes children line => exact absurd rfl (he name attributes children line)
    | fragment children line => exact absurd rfl (hf children line)
    | _ => exact hshown
  · intro e ih v
    exact ih true
  · intro e ih v
    rw [bare]
    split <;> simp only [innerContent, ih]
  · intro e ih v
    rw [bare]
    split <;> simp only [innerContent, ih]
  · intro name attributes children line ih v
    simp only [bare, Node.bareAll_eq_map, innerContent, component_bare, ih]
  · intro children line ih v
    simp only [bare, Node.bareAll_eq_map, innerContent, ih]
  · intro n hc hp ha he hf v
    have hshown := t.shownText_bare v n
    cases n with
    | container e => exact absurd rfl (hc e)
    | parenthesized e => exact absurd rfl (hp e)
    | assertion e => exact absurd rfl (ha e)
    | element name attributes children line => exact absurd rfl (he name attributes children line)
    | fragment children line => exact absurd rfl (hf children line)
    | _ => exact hshown
  · rfl
  · intro n more ihn ihm
    rw [List.map_cons, content, content, ihn, ihm]

@[simp] theorem build_bare (n : Node) : t.build (n.bare false) = t.build n := by
  cases n with
  | element name attributes children line => simp [bare, build, t.contents_bare.2.1]
  | fragment children line => simp [bare, build, t.contents_bare.2.1]
  | _ => rfl

end TreeContext

theorem markup?_bare (v : Bool) (n : Node) : markup? (n.bare v) = (markup? n).map (bare false) := by
  unfold markup?
  rw [unwrap_bare]
  cases n.unwrap <;> rfl

theorem returnedMarkup?_bare (ns : List Node) :
    returnedMarkup? (ns.map (bare false)) = (returnedMarkup? ns).map (bare false) := by
  induction ns with
  | nil => rfl
  | cons n more ih =>
    cases n with
    | returnStatement argument =>
      cases argument with
      | none => exact ih
      | some e =>
        simp only [List.map_cons, bare, Node.bareOption, returnedMarkup?, markup?_bare, ih]
        cases markup? e <;> rfl
    | _ => exact ih

theorem renderedMarkup?_bare (body : Node) :
    renderedMarkup? (body.bare true) = (renderedMarkup? body).map (bare false) := by
  by_cases hb : ∃ b, body = .block b
  · obtain ⟨b, rfl⟩ := hb
    rw [bare, Node.bareAll_eq_map, renderedMarkup?, renderedMarkup?, returnedMarkup?_bare]
  · rw [renderedMarkup?, renderedMarkup?, markup?_bare]
    · exact fun b h => hb ⟨b, h⟩
    · exact fun b h => hb (Node.bare_eq_block h)

namespace Candidate

/-- A candidate whose parameters and markup have no wrappers. -/
def bare (c : Candidate) : Candidate :=
  { c with params := c.params.map (Node.bare false), markup := c.markup.map (Node.bare false) }

theorem ofFunction_bare (exported : Bool) (name : String) (params : List Node) (body : Node) :
    ofFunction exported name (params.map (Node.bare false)) (body.bare true) =
      (ofFunction exported name params body).bare := by
  simp [ofFunction, bare, renderedMarkup?_bare]

theorem ofDeclarator?_bare (exported : Bool) (n : Node) :
    ofDeclarator? exported (n.bare false) = (ofDeclarator? exported n).map bare := by
  cases n with
  | declarator target init =>
    cases init with
    | none => cases target <;> rfl
    | some e =>
      cases target with
      | identifier name =>
        simp [Node.bare, ofDeclarator?, Option.map_map, Function.comp_def, ofFunction_bare]
      | _ => rfl
  | _ => rfl

theorem ofDeclaration_bare (exported : Bool) (n : Node) :
    ofDeclaration exported (n.bare false) = (ofDeclaration exported n).map bare := by
  cases n with
  | functionDeclaration name params body line =>
    simp [Node.bare, ofDeclaration, ofFunction_bare]
  | variableDeclaration kind declarators =>
    simp only [Node.bare, Node.bareAll_eq_map, ofDeclaration, List.filterMap_map, List.map_filterMap]
    congr 1
    funext n
    exact ofDeclarator?_bare exported n
  | _ => rfl

theorem ofStatement_bare (n : Node) : ofStatement (n.bare false) = (ofStatement n).map bare := by
  have hdeclaration := ofDeclaration_bare false n
  cases n with
  | exportNamed declaration specifiers =>
    cases declaration with
    | none => rfl
    | some d => simp [Node.bare, ofStatement, ofDeclaration_bare]
  | _ => exact hdeclaration

theorem find?_bare (candidates : List Candidate) (name : String) :
    find? (candidates.map bare) name = (find? candidates name).map bare := by
  unfold find?
  rw [← List.map_reverse, List.find?_map]
  rfl

end Candidate

theorem exportedConstants_bare (n : Node) :
    exportedConstants (n.bare false) =
      (exportedConstants n).map fun (name, init) => (name, init.map (bare true)) := by
  cases n with
  | exportNamed declaration specifiers =>
    cases declaration with
    | none => rfl
    | some d =>
      cases d with
      | variableDeclaration kind declarators =>
        simp only [bare, Node.bareOption, Node.bareAll_eq_map, exportedConstants, List.filterMap_map,
          List.map_filterMap]
        congr 1
        funext n
        cases n with
        | declarator target init => cases target <;> simp [bare]
        | _ => rfl
      | _ => rfl
  | _ => rfl

namespace Metadata

variable (m : Metadata)

@[simp] theorem readKey_bare (n : Option Node) : m.readKey (n.map (bare true)) = m.readKey n := by
  cases n <;> simp [readKey]

@[simp] theorem readVersion_bare (n : Option Node) :
    m.readVersion (n.map (bare true)) = m.readVersion n := by
  cases n <;> simp [readVersion]

theorem wholeNumber?_bare (v : Bool) (n : Node) : wholeNumber? (n.bare v) = wholeNumber? n := by
  unfold wholeNumber?
  rw [unwrap_bare]
  cases n.unwrap <;> rfl

@[simp] theorem readBuildNumber_bare (n : Option Node) :
    m.readBuildNumber (n.map (bare true)) = m.readBuildNumber n := by
  cases n <;> simp [readBuildNumber, wholeNumber?_bare]

theorem members_bare (ms : List Node) :
    members (ms.map (bare false)) = (members ms).mapValues (bare true) := by
  unfold members
  rw [List.foldl_map, ← List.foldl_hom (Fields.mapValues (bare true))]
  · rfl
  · intro fields n
    cases n with
    | property key value => simp [bare, Fields.put_mapValues]
    | _ => rfl

@[simp] theorem readRecord_bare (init : Option Node) :
    m.readRecord (init.map (bare true)) = m.readRecord init := by
  cases init with
  | none => rfl
  | some n =>
    simp only [readRecord, Option.map_some, Option.bind_some, objectMembers?_bare]
    cases objectMembers? n with
    | none => rfl
    | some ms => simp [members_bare]

@[simp] theorem readConstant_bare (name : String) (init : Option Node) :
    m.readConstant name (init.map (bare true)) = m.readConstant name init := by
  have htext : (init.map (bare true)).bind Node.staticString? = init.bind Node.staticString? := by
    cases init <;> simp
  simp only [readConstant, htext, readRecord_bare]

theorem ofProgram_bare (body : List Node) : ofProgram (body.map (bare false)) = ofProgram body := by
  have hconstants : (body.map (bare false)).flatMap exportedConstants =
      (body.flatMap exportedConstants).map fun (name, init) => (name, init.map (bare true)) := by
    simp [List.flatMap_map, List.map_flatMap, exportedConstants_bare]
  simp [ofProgram, hconstants, List.foldl_map]

end Metadata

namespace Rendered

variable (options : Options) (r : Rendered) (candidates : List Candidate)

@[simp] theorem tree_bare (params : List Node) (markup : Node) :
    r.tree options (params.map (bare false)) (markup.bare false) = r.tree options params markup := by
  simp [tree, List.flatMap_map]

@[simp] theorem addMain_bare (params : List Node) (markup : Option Node) :
    r.addMain options (params.map (bare false)) (markup.map (bare false)) =
      r.addMain options params markup := by
  cases markup <;> simp [addMain]

theorem addMainExpression_bare (v : Bool) (n : Node) :
    r.addMainExpression options (candidates.map Candidate.bare) (n.bare v) =
      r.addMainExpression options candidates n := by
  simp only [addMainExpression, Callee.identifier?_bare, Candidate.find?_bare, functionOf?_bare]
  cases Callee.identifier? n with
  | some name =>
    dsimp only
    cases Candidate.find? candidates name with
    | none => rfl
    | some c => simp only [Option.map_some, Candidate.bare, addMain_bare]
  | none =>
    cases functionOf? n with
    | none => rfl
    | some f => simp only [Option.map_some, renderedMarkup?_bare, addMain_bare]

theorem readMain_bare (n : Node) :
    r.readMain options (candidates.map Candidate.bare) (n.bare false) =
      r.readMain options candidates n := by
  cases n with
  | exportDefault d =>
    by_cases hd : ∃ name params body line, d = .functionDeclaration name params body line
    · obtain ⟨name, params, body, line, rfl⟩ := hd
      simp only [bare, Node.bareAll_eq_map, readMain, renderedMarkup?_bare, addMain_bare]
    · rw [bare, readMain, readMain, addMainExpression_bare]
      · exact fun name params body line h => hd ⟨name, params, body, line, h⟩
      · exact fun name params body line h => hd (Node.bare_eq_functionDeclaration h)
  | _ => rfl

@[simp] theorem add_bare (name : String) (c : Candidate) :
    r.add options name c.bare = r.add options name c := by
  simp only [add, Candidate.bare]
  cases c.markup <;> simp

theorem addSpecifiers_bare (specifiers : List Node) :
    addSpecifiers options (candidates.map Candidate.bare) r (specifiers.map (bare false)) =
      addSpecifiers options candidates r specifiers := by
  unfold addSpecifiers
  rw [List.foldl_map]
  congr 1
  funext r n
  cases n with
  | exportSpecifier localName exported =>
    simp only [bare, Candidate.find?_bare]
    cases Candidate.find? candidates localName with
    | none => rfl
    | some c => exact add_bare options r exported c
  | _ => rfl

theorem addDeclared_bare (elsewhere : List String) (n : Node) :
    addDeclared options elsewhere r (n.bare false) = addDeclared options elsewhere r n := by
  simp only [addDeclared, Candidate.ofStatement_bare, List.foldl_map, add_bare]
  rfl

theorem readComponents_bare (elsewhere : List String) (n : Node) :
    readComponents options (candidates.map Candidate.bare) elsewhere r (n.bare false) =
      readComponents options candidates elsewhere r n := by
  have hdeclared := addDeclared_bare options r elsewhere n
  cases n with
  | exportNamed declaration specifiers =>
    cases specifiers with
    | nil => exact hdeclared
    | cons spec more =>
      rw [bare, Node.bareAll_eq_map]
      exact addSpecifiers_bare options r candidates (spec :: more)
  | _ => exact hdeclared

theorem reExported_bare (n : Node) : reExported (n.bare false) = reExported n := by
  cases n with
  | exportNamed declaration specifiers =>
    simp only [bare, Node.bareAll_eq_map, reExported, List.filterMap_map]
    congr 1
    funext n
    cases n <;> rfl
  | _ => rfl

theorem ofProgram_bare (body : List Node) :
    ofProgram options (body.map (bare false)) = ofProgram options body := by
  have hcandidates : (body.map (bare false)).flatMap Candidate.ofStatement =
      (body.flatMap Candidate.ofStatement).map Candidate.bare := by
    simp [List.flatMap_map, List.map_flatMap, Candidate.ofStatement_bare]
  have hlocals : (((body.flatMap Candidate.ofStatement).map Candidate.bare).filter
      (·.markup.isSome)).map (·.name) =
        ((body.flatMap Candidate.ofStatement).filter (·.markup.isSome)).map (·.name) := by
    simp [List.filter_map, Function.comp_def, Candidate.bare]
  have hnames : (body.map (bare false)).flatMap reExported = body.flatMap reExported := by
    simp [List.flatMap_map, reExported_bare]
  simp only [ofProgram, hcandidates, hlocals, hnames, List.foldl_map, readMain_bare,
    readComponents_bare]

end Rendered

theorem extract_bare (options : Options) (body : List Node) :
    extract options (body.map (bare false)) = extract options body := by
  simp only [extract, Metadata.ofProgram_bare, Rendered.ofProgram_bare, collectActions_bare]

/-- Programs that are the same without wrappers have the same parts and the same reports. -/
theorem extract_eq_of_bare_eq (options : Options) {body body' : List Node}
    (h : body.map (bare false) = body'.map (bare false)) :
    extract options body = extract options body' := by
  rw [← extract_bare options body, h, extract_bare]

theorem extract_eq_of_bare_eq_push :
    let push (callee argument : Node) : Node := .call callee [argument] 1
    let plain : List Node :=
      [.exportDefault (.arrow [] (.element "Button"
        [.attribute "onPress" (some (.container (.arrow [] (push (.identifier "push")
          (.string "Home")) 1)))] [] 1) 1)]
    let wrapped : List Node :=
      [.exportDefault (.assertion (.arrow [] (.parenthesized (.element "Button"
        [.attribute "onPress" (some (.container (.parenthesized (.arrow [] (.assertion
          (push (.parenthesized (.identifier "push")) (.assertion (.parenthesized (.string "Home")))))
          1))))] [] 1)) 1))]
    wrapped.map (bare false) = plain.map (bare false) ∧ extract {} wrapped = extract {} plain := by
  refine ⟨?_, extract_eq_of_bare_eq {} ?_⟩
  · rfl
  · rfl

end Scenario

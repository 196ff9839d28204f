import Mathlib.Data.List.Nodup
import Scenario.Proofs.Metadata
import Scenario.Proofs.Trees

namespace Scenario

open Syntax

theorem eq_of_perm_of_length_le_one {α : Type} {as bs : List α} (h : as.Perm bs)
    (hlength : as.length ≤ 1) : bs = as :=
  match as with
  | [] => h.nil_eq.symm
  | [_] => List.perm_singleton.1 h.symm
  | _ :: _ :: _ => by simp at hlength

namespace Candidate

theorem find?_eq_some_iff {cs : List Candidate} (h : (cs.map (·.name)).Nodup) {name : String}
    {c : Candidate} : find? cs name = some c ↔ c ∈ cs ∧ c.name = name := by
  unfold find?
  constructor
  · intro hfind
    have hname := List.find?_some hfind
    have hmem := List.mem_of_find?_eq_some hfind
    exact ⟨List.mem_reverse.1 hmem, by simpa using hname⟩
  · intro ⟨hmem, hname⟩
    have hsome : (cs.reverse.find? (·.name == name)).isSome = true := by
      rw [List.find?_isSome]
      exact ⟨c, List.mem_reverse.2 hmem, by simpa using hname⟩
    obtain ⟨d, hd⟩ := Option.isSome_iff_exists.1 hsome
    have hdname : d.name = name := by simpa using List.find?_some hd
    have hdmem := List.mem_reverse.1 (List.mem_of_find?_eq_some hd)
    have heq := List.inj_on_of_nodup_map h hdmem hmem (hdname.trans hname.symm)
    rw [hd, heq]

/-- Where functions have different names, a name stands for the same function in any order. -/
theorem find?_perm {cs cs' : List Candidate} (h : cs.Perm cs') (hnames : (cs.map (·.name)).Nodup)
    (name : String) : find? cs' name = find? cs name := by
  have hnames' : (cs'.map (·.name)).Nodup := (h.map _).nodup_iff.1 hnames
  ext c
  rw [find?_eq_some_iff hnames, find?_eq_some_iff hnames', h.mem_iff]

end Candidate

namespace TreeContext

variable {options : Options} {locals locals' props : List String}

theorem unknownType_congr (h : ∀ name, name ∈ locals' ↔ name ∈ locals) (name : String) (line : Nat) :
    unknownType ⟨options, locals', props⟩ name line = unknownType ⟨options, locals, props⟩ name line := by
  have hknown : isKnown ⟨options, locals', props⟩ name = isKnown ⟨options, locals, props⟩ name := by
    simp [isKnown, h]
  simp only [unknownType, hknown]

theorem component_congr (h : ∀ name, name ∈ locals' ↔ name ∈ locals) (name : String)
    (attributes : List Node) (line : Nat) (inside : Content) :
    component ⟨options, locals', props⟩ name attributes line inside =
      component ⟨options, locals, props⟩ name attributes line inside := by
  simp only [component, unknownType_congr h]
  rfl

/-- A tree depends on the set of the components that the program declares. -/
theorem build_congr (h : ∀ name, name ∈ locals' ↔ name ∈ locals) (n : Node) :
    build ⟨options, locals', props⟩ n = build ⟨options, locals, props⟩ n := by
  have hrelates : Relates ⟨options, locals', props⟩ ⟨options, locals, props⟩ Eq :=
    { texts := fun _ => rfl
      append := fun hc hd => by rw [hc, hd]
      element := fun name attributes line hc => by rw [hc, component_congr h] }
  have hcontent (ns : List Node) := hrelates.content rfl ns
  cases n with
  | element name attributes children line =>
    simp only [build, hcontent, component_congr h]
  | fragment children line => simp only [build, hcontent]
  | _ => rfl

end TreeContext

namespace Rendered

variable (options : Options)

/-- What is known of the components is the same, but for the order of the names that the program
declares. -/
def SameBut (r r' : Rendered) : Prop :=
  r' = { r with locals := r'.locals } ∧ ∀ name, name ∈ r'.locals ↔ name ∈ r.locals

theorem SameBut.tree {r r' : Rendered} (h : SameBut r r') (params : List Node) (markup : Node) :
    r'.tree options params markup = r.tree options params markup :=
  TreeContext.build_congr h.2 markup

theorem relates_sameBut : Relates options options SameBut where
  rename mainName hr := ⟨by rw [hr.1], hr.2⟩
  declare name hr := ⟨by rw [hr.1], by simp [hr.2]⟩
  report message hr := ⟨by rw [hr.1]; rfl, hr.2⟩
  main params markup hr := ⟨by rw [hr.tree, hr.1], hr.2⟩
  component name params markup hr := ⟨by rw [hr.tree, hr.1], hr.2⟩

def isDefaultExport : Node → Bool
  | .exportDefault _ => true
  | _ => false

theorem readMain_of_not_default {candidates : List Candidate} {r : Rendered} {n : Node}
    (h : ¬isDefaultExport n = true) : readMain options candidates r n = r := by
  cases n with
  | exportDefault _ => exact absurd rfl h
  | _ => rfl

theorem foldl_readMain (candidates : List Candidate) (r : Rendered) (body : List Node) :
    body.foldl (readMain options candidates) r =
      (body.filter isDefaultExport).foldl (readMain options candidates) r := by
  rw [List.foldl_filter]
  congr 1
  funext r n
  split
  · rfl
  · exact readMain_of_not_default options ‹_›

theorem readMain_congr {candidates candidates' : List Candidate}
    (h : ∀ name, Candidate.find? candidates' name = Candidate.find? candidates name) (r : Rendered)
    (n : Node) : readMain options candidates' r n = readMain options candidates r n := by
  unfold readMain addMainExpression
  simp only [h]

/-- The function that an entry of a list of exports refers to, with the name that it is exported
under. -/
def referred (candidates : List Candidate) : Node → Option (String × Candidate)
  | .exportSpecifier localName exported =>
    (Candidate.find? candidates localName).map fun c => (exported, c)
  | _ => none

/-- The functions that a statement exports or declares as components, with their names as such. -/
def added (candidates : List Candidate) (elsewhere : List String) : Node → List (String × Candidate)
  | .exportNamed _ (spec :: more) => (spec :: more).filterMap (referred candidates)
  | n =>
    ((Candidate.ofStatement n).filter fun c => c.exported || !elsewhere.contains c.name).map fun c =>
      (c.name, c)

theorem added_congr {candidates candidates' : List Candidate} {elsewhere elsewhere' : List String}
    (h : ∀ name, Candidate.find? candidates' name = Candidate.find? candidates name)
    (helse : ∀ name, name ∈ elsewhere' ↔ name ∈ elsewhere) :
    added candidates' elsewhere' = added candidates elsewhere := by
  have hreferred : referred candidates' = referred candidates := by
    funext n
    unfold referred
    simp only [h]
  funext n
  unfold added
  simp only [hreferred, List.contains_eq_mem, helse]

theorem addSpecifiers_eq (candidates : List Candidate) (r : Rendered) (specifiers : List Node) :
    addSpecifiers options candidates r specifiers =
      (specifiers.filterMap (referred candidates)).foldl (fun r c => r.add options c.1 c.2) r := by
  rw [List.foldl_filterMap, addSpecifiers]
  congr 1
  funext r spec
  cases spec with
  | exportSpecifier localName exported =>
    simp only [referred]
    cases Candidate.find? candidates localName <;> rfl
  | _ => rfl

theorem addDeclared_eq (elsewhere : List String) (r : Rendered) (n : Node) :
    addDeclared options elsewhere r n =
      (((Candidate.ofStatement n).filter fun c => c.exported || !elsewhere.contains c.name).map
        fun c => (c.name, c)).foldl (fun r c => r.add options c.1 c.2) r := by
  rw [List.foldl_map, List.foldl_filter, addDeclared]
  congr 1
  funext r c
  cases c.exported <;> cases elsewhere.contains c.name <;> rfl

theorem readComponents_eq (candidates : List Candidate) (elsewhere : List String) (r : Rendered)
    (n : Node) :
    readComponents options candidates elsewhere r n =
      (added candidates elsewhere n).foldl (fun r c => r.add options c.1 c.2) r := by
  unfold readComponents
  split
  · exact addSpecifiers_eq options candidates r _
  · rw [added]
    · exact addDeclared_eq options elsewhere r n
    · assumption

/-- The component that a function is under a name, with what its tree notes. -/
def rendering (r : Rendered) (c : String × Candidate) : Option ((String × Component) × Notes) :=
  c.2.markup.map fun markup =>
    ((c.1, (r.tree options c.2.params markup).1), (r.tree options c.2.params markup).2)

theorem rendering_add (r : Rendered) (name : String) (c : Candidate) :
    rendering options (r.add options name c) = rendering options r := by
  unfold add
  split <;> rfl

theorem SameBut.rendering {r r' : Rendered} (h : SameBut r r') :
    rendering options r' = rendering options r := by
  funext c
  simp only [Rendered.rendering, h.tree]

/-- Functions add their components and notes in turn. The names that the program declares stay, so each
tree is the one it would be if it were the first. -/
theorem foldl_add (cs : List (String × Candidate)) (r : Rendered) :
    cs.foldl (fun r c => r.add options c.1 c.2) r =
      { r with
        components := r.components ++ (cs.filterMap (rendering options r)).map (·.1)
        notes :=
          { diagnostics := r.notes.diagnostics ++
              (cs.filterMap (rendering options r)).flatMap (·.2.diagnostics)
            dropped := r.notes.dropped ++
              (cs.filterMap (rendering options r)).flatMap (·.2.dropped) } } := by
  induction cs generalizing r with
  | nil => simp
  | cons c more ih =>
    rw [List.foldl_cons, ih, rendering_add, List.filterMap_cons]
    cases hmarkup : c.2.markup with
    | none => simp [add, rendering, hmarkup]
    | some markup => simp [add, rendering, hmarkup]

theorem foldl_readComponents (candidates : List Candidate) (elsewhere : List String) (r : Rendered)
    (body : List Node) :
    body.foldl (readComponents options candidates elsewhere) r =
      (body.flatMap (added candidates elsewhere)).foldl (fun r c => r.add options c.1 c.2) r := by
  rw [List.foldl_flatMap]
  congr 1
  funext r n
  exact readComponents_eq options candidates elsewhere r n

/-- What is known when the default exports are read. -/
def afterMain (body : List Node) : Rendered :=
  let candidates := body.flatMap Candidate.ofStatement
  (body.filter isDefaultExport).foldl (readMain options candidates)
    { locals := (candidates.filter (·.markup.isSome)).map (·.name) }

/-- The names of functions that are components only where the program says so elsewhere. -/
def elsewhere (body : List Node) : List String :=
  (afterMain options body).mainName.toList ++ body.flatMap reExported

theorem ofProgram_eq (body : List Node) :
    ofProgram options body =
      (body.flatMap (added (body.flatMap Candidate.ofStatement) (elsewhere options body))).foldl
        (fun r c => r.add options c.1 c.2) (afterMain options body) := by
  unfold ofProgram
  dsimp only
  rw [foldl_readMain, foldl_readComponents]
  rfl

variable {body body' : List Node}

theorem afterMain_perm (h : body.Perm body')
    (hnames : ((body.flatMap Candidate.ofStatement).map (·.name)).Nodup)
    (hdefault : (body.filter isDefaultExport).length ≤ 1) :
    SameBut (afterMain options body) (afterMain options body') := by
  have hcandidates := h.flatMap_right Candidate.ofStatement
  have hexports : body'.filter isDefaultExport = body.filter isDefaultExport :=
    eq_of_perm_of_length_le_one (h.filter isDefaultExport) hdefault
  have hread : readMain options (body'.flatMap Candidate.ofStatement) =
      readMain options (body.flatMap Candidate.ofStatement) := by
    funext r n
    exact readMain_congr options (Candidate.find?_perm hcandidates hnames) r n
  simp only [afterMain, hexports, hread]
  refine Relates.foldl (fun r r' n hr => (relates_sameBut options).readMain _ n hr) _ ⟨rfl, ?_⟩
  intro name
  exact ((hcandidates.filter _).map _).symm.mem_iff

theorem mem_elsewhere_perm (h : body.Perm body')
    (hmain : SameBut (afterMain options body) (afterMain options body')) (name : String) :
    name ∈ elsewhere options body' ↔ name ∈ elsewhere options body := by
  have hmainName : (afterMain options body').mainName = (afterMain options body).mainName := by
    rw [hmain.1]
  rw [elsewhere, elsewhere, hmainName, List.mem_append, List.mem_append,
    (h.flatMap_right reExported).mem_iff]

/-- Statements in another order give the same main component, and the other components and what the
trees note in another order. -/
theorem ofProgram_perm (h : body.Perm body')
    (hnames : ((body.flatMap Candidate.ofStatement).map (·.name)).Nodup)
    (hdefault : (body.filter isDefaultExport).length ≤ 1) :
    (ofProgram options body').main = (ofProgram options body).main ∧
      (∀ name, name ∈ (ofProgram options body').locals ↔ name ∈ (ofProgram options body).locals) ∧
      (ofProgram options body').components.Perm (ofProgram options body).components ∧
      (ofProgram options body').notes.diagnostics.Perm (ofProgram options body).notes.diagnostics := by
  have hmain := afterMain_perm options h hnames hdefault
  have hadded := added_congr (Candidate.find?_perm (h.flatMap_right _) hnames)
    (mem_elsewhere_perm options h hmain)
  have hrendered := ((h.flatMap_right (added (body.flatMap Candidate.ofStatement)
    (elsewhere options body))).filterMap (rendering options (afterMain options body))).symm
  rw [ofProgram_eq, ofProgram_eq, foldl_add, foldl_add, hadded, hmain.rendering]
  refine ⟨by rw [hmain.1], hmain.2, ?_, ?_⟩
  · rw [hmain.1]
    exact (hrendered.map _).append_left _
  · rw [hmain.1]
    exact (hrendered.flatMap_right _).append_left _

end Rendered

/-- The statements of a program may stand in any order, if its functions have different names and there
is at most one of each thing that is read once. The reports of the actions come behind those of the
metadata and of the components and are not among these. -/
theorem extract_perm (options : Options) {body body' : List Node} (h : body.Perm body')
    (hnames : ((body.flatMap Candidate.ofStatement).map (·.name)).Nodup)
    (hdefault : (body.filter Rendered.isDefaultExport).length ≤ 1)
    (hkey : ((body.flatMap exportedConstants).filter (·.1 = "SCENARIO_KEY")).length ≤ 1)
    (hrecord : ((body.flatMap exportedConstants).filter (·.1 = "SCENARIO")).length ≤ 1) :
    let e := extract options body
    let e' := extract options body'
    e'.parts.key = e.parts.key ∧ e'.parts.version = e.parts.version ∧
      e'.parts.buildNumber = e.parts.buildNumber ∧ e'.parts.main = e.parts.main ∧
      (∀ name, name ∈ e'.locals ↔ name ∈ e.locals) ∧
      e'.parts.components.Perm e.parts.components ∧
      (Metadata.ofProgram body').diagnostics.Perm (Metadata.ofProgram body).diagnostics ∧
      (Rendered.ofProgram options body').notes.diagnostics.Perm
        (Rendered.ofProgram options body).notes.diagnostics := by
  obtain ⟨hfound, hreports⟩ := Metadata.ofProgram_perm h hkey hrecord
  obtain ⟨hmain, hlocals, hcomponents, hnotes⟩ := Rendered.ofProgram_perm options h hnames hdefault
  simp only [Metadata.found, Metadata.mk.injEq] at hfound
  obtain ⟨hexported, hlisted, hversion, hbuild, -⟩ := hfound
  have hkeys : (Metadata.ofProgram body').key = (Metadata.ofProgram body).key := by
    rw [Metadata.key, Metadata.key, hexported, hlisted]
  exact ⟨hkeys, hversion, hbuild, hmain, hlocals, hcomponents, hreports, hnotes⟩

/-- The main component uses one that is declared behind it, or in front of it. -/
theorem extract_perm_card :
    let key : Node := .exportNamed (some (.variableDeclaration "const"
      [.declarator (.identifier "SCENARIO_KEY") (some (.string "home"))])) []
    let main : Node := .exportDefault (.arrow [] (.element "Card" [] [] 1) 1)
    let card : Node := .functionDeclaration "Card" []
      (.block [.returnStatement (some (.element "Tile" [] [] 2))]) 2
    let tile : Node := .functionDeclaration "Tile" []
      (.block [.returnStatement (some (.element "Row" [] [] 3))]) 3
    let e := extract {} [key, main, card, tile]
    let e' := extract {} [tile, card, main, key]
    e'.parts.key = e.parts.key ∧ e'.parts.main = e.parts.main ∧
      e'.parts.components.Perm e.parts.components ∧ e.parts.components.map (·.1) = ["Card", "Tile"] ∧
      e'.parts.components.map (·.1) = ["Tile", "Card"] := by
  intro key main card tile e e'
  have h := extract_perm {} (List.reverse_perm [key, main, card, tile]).symm (by decide) (by decide)
    (by decide) (by decide)
  exact ⟨h.1, h.2.2.2.1, h.2.2.2.2.2.1, rfl, rfl⟩

end Scenario

import Scenario.Proofs.Erasure
import Scenario.Proofs.Trees

namespace Scenario

open Syntax

namespace Registry

/-- Every type that is registered has a name. This holds of all registries that are put together by
registering (`named_ofEntries`). -/
def Named (r : Registry) : Prop := ∀ d ∈ r.definitions, Definition.isName d.name = true

theorem named_standard : standard.Named := by
  unfold Named
  decide

theorem named_register {r r' : Registry} {d : Definition} (h : r.Named)
    (hr : r.register d = .ok r') : r'.Named := by
  unfold register at hr
  by_cases hd : Definition.isName d.name = true
  · simp only [hd, Bool.not_true, Bool.false_eq_true, if_false] at hr
    split at hr
    · cases hr
    · cases hr
      intro e he
      rcases List.mem_append.1 he with he | he
      · exact h e he
      · rwa [List.mem_singleton.1 he]
  · rw [if_pos (by simpa using hd)] at hr
    cases hr

theorem named_registerEntry {r r' : Registry} {entry : Fields Value} (h : r.Named)
    (hr : r.registerEntry entry = .ok r') : r'.Named := by
  unfold registerEntry at hr
  split at hr
  · cases hr
  · exact named_register h hr
  · cases hr

theorem named_ofEntries {entries : List (Fields Value)} {r : Registry}
    (hr : ofEntries entries = .ok r) : r.Named := by
  suffices hfold : ∀ s : Registry, s.Named → entries.foldlM registerEntry s = .ok r → r.Named by
    exact hfold empty (by simp [Named, empty]) hr
  clear hr
  induction entries with
  | nil =>
    intro s hs hr
    cases hr
    exact hs
  | cons entry more ih =>
    intro s hs hr
    rw [List.foldlM_cons] at hr
    cases hentry : s.registerEntry entry with
    | error e =>
      rw [hentry] at hr
      cases hr
    | ok t =>
      rw [hentry] at hr
      exact ih t (named_registerEntry hs hentry) hr

/-- A fragment is of no registered type. -/
theorem Named.isRegistered_empty {r : Registry} (h : r.Named) : r.isRegistered "" = false := by
  have hname : Definition.isName "" = false := by decide
  have hnone : r.find? "" = none := by
    refine List.find?_eq_none.2 ?_
    intro d hd hempty
    have hd := h d hd
    rw [beq_iff_eq.1 hempty, hname] at hd
    cases hd
  simp [isRegistered, hnone]

theorem defaultStyles_of_not_registered {r : Registry} {name : String}
    (h : r.isRegistered name = false) : r.defaultStyles name = [] := by
  have hnone : r.find? name = none := by simpa [isRegistered] using h
  simp [defaultStyles, hnone]

/-- A style with the default styles of a registered type below it. -/
def styled (r : Registry) (type : String) (own : Fields Value) : Fields Value :=
  if r.isRegistered type then (r.defaultStyles type).overlay own else own

end Registry

theorem nodup_keys_staticMembers (props : List String) (ms : List Node) {acc : Fields Value}
    (h : acc.keys.Nodup) : (staticMembers props ms acc).keys.Nodup := by
  induction ms generalizing acc with
  | nil => simpa [staticMembers] using h
  | cons m more ih =>
    unfold staticMembers
    split
    · cases ‹_ :: _ = []›
    · rename_i hm
      cases hm
      exact ih (Fields.nodup_keys_put h _ _)
    · rename_i hm
      cases hm
      exact ih h

/-- An object that an expression stands for has no member twice. -/
theorem nodup_keys_of_staticValue {props : List String} {n : Node} {fs : Fields Value}
    (h : staticValue props n = .object fs) : fs.keys.Nodup := by
  fun_induction Node.unwrap n with
  | case1 e ih => exact ih (by rwa [staticValue] at h)
  | case2 e ih => exact ih (by rwa [staticValue] at h)
  | case3 e ih => exact ih (by rwa [staticValue] at h)
  | case4 n hp ha hc =>
    cases n with
    | identifier name =>
      rw [staticValue] at h
      split at h
      · cases h
        simp [Fields.keys]
      · cases h
    | object members =>
      rw [staticValue] at h
      cases h
      exact nodup_keys_staticMembers props members (by simp [Fields.keys])
    | parenthesized e => exact absurd rfl (hp e)
    | assertion e => exact absurd rfl (ha e)
    | container e => exact absurd rfl (hc e)
    | _ => simp [staticValue] at h

theorem nodup_keys_objectAttribute (t : TreeContext) (attributes : List Node) (name : String) :
    (t.objectAttribute attributes name).keys.Nodup := by
  unfold TreeContext.objectAttribute
  split
  · rename_i value _
    cases hv : staticValue t.props value with
    | object fs =>
      have hfs := nodup_keys_of_staticValue hv
      by_cases hprop : (Value.object fs).isPropRef = true
      · simp [Value.plainObject?, hprop, Fields.keys]
      · simpa [Value.plainObject?, hprop] using hfs
    | _ => simp [Value.plainObject?, Fields.keys]
  · simp [Fields.keys]

/-- All that is reported is that something cannot be compiled. -/
def Progress.OnlyRefusals (p : Progress) : Prop :=
  ∀ d ∈ p.diagnostics, d.code = .unsupportedActionExpression

theorem Progress.OnlyRefusals.report {p : Progress} (h : p.OnlyRefusals) (r : Refused) :
    ((Collect.reportRefused r).outcome p).2.OnlyRefusals :=
  List.forall_mem_append.2 ⟨h, List.forall_mem_singleton.2 rfl⟩

namespace Likeness

/-- A run is like itself while all that it reports is that something cannot be compiled. -/
def refusing : Likeness where
  start p p' := p = p' ∧ p.OnlyRefusals
  made x x' := x = x' ∧ x.after.OnlyRefusals
  changed _ x x' := x = x' ∧ x.after.OnlyRefusals
  called x x' := x = x' ∧ x.after.OnlyRefusals

/-- Making an action reports nothing. -/
theorem refusing_one {p q r : Progress} {a : Act} (hq : q.OnlyRefusals)
    (hr : r.diagnostics = q.diagnostics) : refusing.made ⟨p, [a], r⟩ ⟨p, [a], r⟩ := by
  refine ⟨rfl, ?_⟩
  intro d hd
  exact hq d (hr ▸ hd)

theorem Branches.of_refusing {x x' : Run (List (List Act))} (h : refusing.Branches x x') :
    x = x' ∧ x.after.OnlyRefusals := by
  induction h with
  | nil hs =>
    obtain ⟨rfl, hp⟩ := hs
    exact ⟨rfl, hp⟩
  | cons hm _ ih =>
    obtain ⟨hx, -⟩ := hm
    obtain ⟨hy, hr⟩ := ih
    cases hx
    cases hy
    exact ⟨rfl, hr⟩

theorem lawful_refusing : refusing.Lawful where
  next hm := ⟨by rw [hm.1], hm.2⟩
  length_eq hm := by rw [hm.1]
  nil hp := ⟨by rw [hp.1], hp.2⟩
  append ha hb := by
    obtain ⟨hx, -⟩ := ha
    obtain ⟨hy, hr⟩ := hb
    cases hx
    cases hy
    exact ⟨rfl, hr⟩
  lose hm := ⟨by rw [hm.1], hm.2⟩
  report r hp := by
    obtain ⟨rfl, hp⟩ := hp
    exact ⟨rfl, hp.report r⟩
  unchanged _ hp := ⟨by rw [hp.1], hp.2⟩
  change ha hb := by
    obtain ⟨hx, -⟩ := ha
    obtain ⟨hy, hr⟩ := hb
    cases hx
    cases hy
    exact ⟨rfl, hr⟩
  made_of_changed hc := hc
  mutation _ _ _ hp := by
    obtain ⟨rfl, hp⟩ := hp
    exact refusing_one hp rfl
  transaction _ hc := by
    obtain ⟨hx, hq⟩ := hc
    cases hx
    exact refusing_one hq rfl
  effect _ _ hp := by
    obtain ⟨rfl, hp⟩ := hp
    exact refusing_one hp rfl
  handler _ hm := by
    obtain ⟨hx, hq⟩ := hm
    cases hx
    exact refusing_one hq (Act.diagnostics_single _ _)
  sequence hm := by
    obtain ⟨hx, hq⟩ := hm
    cases hx
    exact ⟨rfl, hq⟩
  behind hc := ⟨by rw [hc.1], hc.2⟩
  request _ ha hb := by
    obtain ⟨hx, -⟩ := ha
    obtain ⟨hy, hr⟩ := hb
    cases hx
    cases hy
    exact refusing_one hr rfl
  choice _ ha hb := by
    obtain ⟨hx, -⟩ := ha
    obtain ⟨hy, hr⟩ := hb
    cases hx
    cases hy
    exact refusing_one hr (Act.diagnostics_choice _ _ _ _)
  selection _ _ hb := by
    obtain ⟨hx, hr⟩ := hb.of_refusing
    cases hx
    exact refusing_one hr (Act.diagnostics_selection _ _ _ _)

end Likeness

theorem onlyRefusals_collectActions (body : List Node) :
    ((collectActions body).outcome {}).2.OnlyRefusals := by
  have hkeeps := declareAllStores_keeps (I := Progress.OnlyRefusals) (fun _ _ hp => hp)
    (fun r _ hp => hp.report r) body
  have hstores := hkeeps {} (by simp [Progress.OnlyRefusals])
  exact (Likeness.lawful_refusing.everywhere.walkAll (Scope.module.hoist body) body _ _
    ⟨rfl, hstores⟩).2

namespace Metadata

/-- Nothing is reported about an unknown type. -/
def Clear (m : Metadata) : Prop := ∀ d ∈ m.diagnostics, d.code ≠ .unknownComponent

theorem Clear.report {m : Metadata} (h : m.Clear) {code : Code} (hc : code ≠ .unknownComponent)
    (message : String) : (m.report code message).Clear :=
  List.forall_mem_append.2 ⟨h, List.forall_mem_singleton.2 hc⟩

theorem Clear.readKey {m : Metadata} (h : m.Clear) (n : Option Node) : (m.readKey n).Clear := by
  unfold Metadata.readKey
  split
  · exact h
  · split
    · exact h
    · exact h.report (by decide) _

theorem Clear.readVersion {m : Metadata} (h : m.Clear) (n : Option Node) :
    (m.readVersion n).Clear := by
  unfold Metadata.readVersion
  split
  · exact h
  · split
    · exact h
    · exact h.report (by decide) _

theorem Clear.readBuildNumber {m : Metadata} (h : m.Clear) (n : Option Node) :
    (m.readBuildNumber n).Clear := by
  unfold Metadata.readBuildNumber
  split
  · exact h
  · split
    · exact h
    · exact h.report (by decide) _

theorem Clear.readRecord {m : Metadata} (h : m.Clear) (init : Option Node) :
    (m.readRecord init).Clear := by
  have hlisted : Clear { m with listedKey := none } := h
  unfold Metadata.readRecord
  split
  · exact hlisted.report (by decide) _
  · exact ((hlisted.readKey _).readVersion _).readBuildNumber _

theorem Clear.readConstant {m : Metadata} (h : m.Clear) (name : String) (init : Option Node) :
    (m.readConstant name init).Clear := by
  have hexported : Clear { m with exportedKey := none } := h
  unfold Metadata.readConstant
  split
  · split
    · exact h
    · exact hexported.report (by decide) _
  · split
    · exact h.readRecord init
    · exact h

theorem clear_ofProgram (body : List Node) : (ofProgram body).Clear := by
  have hfold (cs : List (String × Option Node)) (m : Metadata) (hm : m.Clear) :
      (cs.foldl (fun m c => m.readConstant c.1 c.2) m).Clear := by
    induction cs generalizing m with
    | nil => exact hm
    | cons c more ih => exact ih _ (hm.readConstant c.1 c.2)
  exact hfold _ {} (by simp [Clear])

end Metadata

theorem actions_extract (options : Options) (body : List Node) :
    (extract options body).parts.actions = ((collectActions body).outcome {}).1 := rfl

theorem stores_extract (options : Options) (body : List Node) :
    (extract options body).parts.stores = ((collectActions body).outcome {}).2.stores := rfl

theorem diagnostics_extract (options : Options) (body : List Node) :
    (extract options body).diagnostics =
      (Metadata.ofProgram body).diagnostics ++ (Rendered.ofProgram options body).notes.diagnostics
        ++ ((collectActions body).outcome {}).2.diagnostics := rfl

namespace Component

mutual

/-- Changes the style of every node of a component, by the type of the node. -/
def restyle (f : String → Fields Value → Fields Value) : Component → Component
  | ⟨type, style, properties, children⟩ =>
    ⟨type, f type style, properties, restyleAll f children⟩

def restyleAll (f : String → Fields Value → Fields Value) : List Component → List Component
  | [] => []
  | c :: more => c.restyle f :: restyleAll f more

end

mutual

theorem restyle_own : (c : Component) → c.restyle (fun _ own => own) = c
  | ⟨type, style, properties, children⟩ => by rw [restyle, restyleAll_own children]

theorem restyleAll_own : (cs : List Component) → restyleAll (fun _ own => own) cs = cs
  | [] => rfl
  | c :: more => by rw [restyleAll, restyle_own c, restyleAll_own more]

end

theorem restyleAll_eq_map (f : String → Fields Value → Fields Value) (cs : List Component) :
    restyleAll f cs = cs.map (restyle f) := by
  induction cs with
  | nil => rfl
  | cons c more ih => simp [restyleAll, ih]

end Component

/-- Changes the style of every node, by the type of the node. -/
def Extraction.restyle (f : String → Fields Value → Fields Value) (e : Extraction) : Extraction :=
  { e with
    parts :=
      { e.parts with
        main := e.parts.main.map (Component.restyle f)
        components := e.parts.components.map fun (name, c) => (name, c.restyle f) } }

/-- Changes the reports, and nothing else. -/
def Extraction.withReports (f : List Diagnostic → List Diagnostic) (e : Extraction) : Extraction :=
  { e with diagnostics := f e.diagnostics }

/-- A change of what is extracted: of the style of every node, and of every report, which may be
left out. -/
structure Adjustment where
  style : String → Fields Value → Fields Value := fun _ own => own
  report : Diagnostic → Option Diagnostic := some

namespace Adjustment

variable (a : Adjustment)

def component (c : Component) : Component := c.restyle a.style

def notes (n : Notes) : Notes := { n with diagnostics := n.diagnostics.filterMap a.report }

/-- A component with what is noted about it. -/
def noted (x : Component × Notes) : Component × Notes := (a.component x.1, a.notes x.2)

def content (c : Content) : Content :=
  { c with nodes := c.nodes.map a.component, notes := a.notes c.notes }

def rendered (r : Rendered) : Rendered :=
  { r with
    main := r.main.map a.component
    components := r.components.map fun (name, c) => (name, a.component c)
    notes := a.notes r.notes }

def extraction (e : Extraction) : Extraction :=
  (e.restyle a.style).withReports (List.filterMap a.report)

@[simp] theorem notes_append (m n : Notes) : a.notes (m ++ n) = a.notes m ++ a.notes n := by
  change Notes.mk _ _ = Notes.mk _ _
  congr 1
  exact List.filterMap_append

@[simp] theorem content_append (c d : Content) : a.content (c ++ d) = a.content c ++ a.content d := by
  change Content.mk _ _ _ = Content.mk _ _ _
  congr 1
  · exact List.map_append
  · exact a.notes_append c.notes d.notes

/-- The change turns what is extracted under some options into what is extracted under others. It is
enough to say so for the parts of a single element. -/
structure Turns (o o' : Options) : Prop where
  registry : o'.registry = o.registry
  style (locals props : List String) (name : String) (attributes : List Node) :
    TreeContext.style ⟨o', locals, props⟩ name attributes =
      a.style name (TreeContext.style ⟨o, locals, props⟩ name attributes)
  /-- A fragment has no type and no style. -/
  fragment : a.style "" [] = []
  unknownType (locals props : List String) (name : String) (line : Nat) :
    TreeContext.unknownType ⟨o', locals, props⟩ name line =
      a.notes (TreeContext.unknownType ⟨o, locals, props⟩ name line)
  /-- All other reports stay as they are. -/
  other (d : Diagnostic) : d.code ≠ .unknownComponent → a.report d = some d

namespace Turns

variable {a} {o o' : Options} (h : a.Turns o o') (locals props : List String)

include h

theorem notes_joinedText (name : String) (line : Nat) (pieces : List TextPiece) :
    a.notes (TreeContext.joinedText name line pieces).2 =
      (TreeContext.joinedText name line pieces).2 := by
  unfold TreeContext.joinedText
  split
  · rfl
  · rfl
  · split
    · rfl
    · simp [Adjustment.notes, h.other]

theorem component_eq (name : String) (attributes : List Node) (line : Nat) (inside : Content) :
    TreeContext.component ⟨o', locals, props⟩ name attributes line (a.content inside) =
      a.noted (TreeContext.component ⟨o, locals, props⟩ name attributes line inside) := by
  have hattributes (name : String) :
      TreeContext.objectAttribute ⟨o', locals, props⟩ attributes name =
        TreeContext.objectAttribute ⟨o, locals, props⟩ attributes name := rfl
  have hchildren (takes : Bool) : (if takes then inside.nodes.map a.component else []) =
      (if takes then inside.nodes else []).map a.component := by
    cases takes <;> rfl
  have hdropped (takes : Bool) (dropped : List Dropped) :
      a.notes (if takes then {} else { dropped }) = if takes then {} else { dropped } := by
    cases takes <;> rfl
  have hmixed (takes : Bool) :
      a.notes (if takes then TreeContext.joinedText name line inside.texts else (none, {})).2 =
        (if takes then TreeContext.joinedText name line inside.texts else (none, {})).2 := by
    cases takes
    · rfl
    · exact h.notes_joinedText name line inside.texts
  unfold TreeContext.component noted
  simp only [h.registry, h.style, h.unknownType, hattributes, Adjustment.content, notes_append,
    hchildren, Adjustment.component, Component.restyle, Component.restyleAll_eq_map,
    List.length_map, List.isEmpty_map, hdropped, hmixed]
  rfl

/-- Contents under the first options and contents under the others correspond. -/
theorem relates :
    TreeContext.Relates ⟨o, locals, props⟩ ⟨o', locals, props⟩ fun c c' => c' = a.content c where
  texts _ := rfl
  append hc hd := by rw [hc, hd, content_append]
  element name attributes line hc := by
    rw [hc, h.component_eq]
    rfl

theorem build_eq (n : Node) :
    TreeContext.build ⟨o', locals, props⟩ n =
      a.noted (TreeContext.build ⟨o, locals, props⟩ n) := by
  have hcontent (ns : List Node) := (h.relates locals props).content rfl ns
  cases n with
  | element name attributes children line =>
    simp only [TreeContext.build]
    rw [hcontent children, h.component_eq]
  | fragment children line =>
    simp only [TreeContext.build, hcontent children, noted, Adjustment.component,
      Component.restyle, Component.restyleAll_eq_map, h.fragment]
    rfl
  | _ =>
    simp only [TreeContext.build, noted, Adjustment.component, Component.restyle, h.fragment]
    rfl

theorem tree_eq (r : Rendered) (params : List Node) (markup : Node) :
    (a.rendered r).tree o' params markup = a.noted (r.tree o params markup) :=
  h.build_eq r.locals _ markup

theorem report_eq (r : Rendered) (message : String) :
    (a.rendered r).report message = a.rendered (r.report message) := by
  have hkept : a.notes { diagnostics := [{ code := .missingMain, message }] } =
      { diagnostics := [{ code := .missingMain, message }] } := by
    simp [Adjustment.notes, h.other]
  simp only [Rendered.report, Adjustment.rendered, notes_append, hkept]

/-- The components under the first options and the components under the others correspond. -/
theorem relatesRendered : Rendered.Relates o o' fun r r' => r' = a.rendered r where
  rename _ hr := by rw [hr]; rfl
  declare _ hr := by rw [hr]; rfl
  report message hr := by rw [hr, h.report_eq]
  main params markup hr := by
    rw [hr, h.tree_eq]
    simp [Adjustment.rendered, noted]
  component name params markup hr := by
    rw [hr, h.tree_eq]
    simp [Adjustment.rendered, noted]

/-- Reports that are not about an unknown type stay as they are. -/
theorem filterMap_report {ds : List Diagnostic} (hds : ∀ d ∈ ds, d.code ≠ .unknownComponent) :
    ds.filterMap a.report = ds := by
  induction ds with
  | nil => rfl
  | cons d more ih =>
    obtain ⟨hd, hmore⟩ := List.forall_mem_cons.1 hds
    rw [List.filterMap_cons, h.other d hd, ih hmore]

theorem extract_eq (body : List Node) : extract o' body = a.extraction (extract o body) := by
  have hmetadata := h.filterMap_report (Metadata.clear_ofProgram body)
  have hactions : ((collectActions body).outcome {}).2.diagnostics.filterMap a.report =
      ((collectActions body).outcome {}).2.diagnostics := by
    refine h.filterMap_report ?_
    intro d hd hcode
    have hrefusal := onlyRefusals_collectActions body d hd
    rw [hcode] at hrefusal
    cases hrefusal
  have hrendered := h.relatesRendered.ofProgram (fun hr => by rw [hr]; rfl) (fun _ => rfl) body
  have hdiagnostics : (extract o' body).diagnostics =
      (extract o body).diagnostics.filterMap a.report := by
    rw [diagnostics_extract, diagnostics_extract, List.filterMap_append, List.filterMap_append,
      hmetadata, hactions, hrendered]
    rfl
  have hparts : (extract o' body).parts = ((extract o body).restyle a.style).parts := by
    change Parts.mk _ _ _ (Rendered.ofProgram o' body).main (Rendered.ofProgram o' body).components
      _ _ = _
    rw [hrendered]
    rfl
  change Extraction.mk (extract o' body).parts (Rendered.ofProgram o' body).locals
    (extract o' body).diagnostics (Rendered.ofProgram o' body).notes.dropped = _
  rw [hparts, hdiagnostics, hrendered]
  rfl

end Turns

/-- A change of reports only leaves all nodes as they are. -/
theorem extraction_of_report (report : Diagnostic → Option Diagnostic) (e : Extraction) :
    Adjustment.extraction { report } e = e.withReports (List.filterMap report) := by
  have hown : Component.restyle (fun _ own => own) = id := funext Component.restyle_own
  simp [extraction, Extraction.restyle, Extraction.withReports, hown]

end Adjustment

/-- A report with the given severity, if it is about an unknown type. -/
def Diagnostic.graded (severity : Severity) (d : Diagnostic) : Diagnostic :=
  if d.code = .unknownComponent then { d with severity } else d

namespace Options

variable (options : Options)

theorem turns_styles (h : options.registry.Named) :
    Adjustment.Turns { style := options.registry.styled } { options with emitStyles := false }
      { options with emitStyles := true } where
  registry := rfl
  style locals props name attributes := by
    have hown := nodup_keys_objectAttribute ⟨options, locals, props⟩ attributes "style"
    change (options.registry.defaultStyles name).overlay _ = options.registry.styled name _
    unfold Registry.styled
    split
    · rfl
    · rename_i hname
      rw [Registry.defaultStyles_of_not_registered (by simpa using hname)]
      exact Fields.overlay_eq_append hown
  fragment := by simp [Registry.styled, h.isRegistered_empty]
  unknownType locals props name line := by
    rw [Adjustment.notes, List.filterMap_some]
    rfl
  other _ _ := rfl

theorem turns_severity (strict : Bool) :
    Adjustment.Turns
      { report := some ∘ Diagnostic.graded (if strict then .error else .warning) }
      { options with strict := !strict } { options with strict } where
  registry := rfl
  style _ _ _ _ := rfl
  fragment := rfl
  unknownType locals props name line := by
    by_cases hk : (TreeContext.isKnown ⟨{ options with strict }, locals, props⟩ name ||
      options.allowUnknown) = true
    · have hk' : (TreeContext.isKnown ⟨{ options with strict := !strict }, locals, props⟩ name ||
        options.allowUnknown) = true := hk
      rw [TreeContext.unknownType_of_known hk, TreeContext.unknownType_of_known hk']
      rfl
    · have hk' : ¬(TreeContext.isKnown ⟨{ options with strict := !strict }, locals, props⟩ name ||
        options.allowUnknown) = true := hk
      rw [TreeContext.unknownType_of_not_known hk, TreeContext.unknownType_of_not_known hk']
      cases strict <;> rfl
  other d hd := by simp [Diagnostic.graded, hd]

theorem turns_silence :
    Adjustment.Turns { report := Option.guard fun d => d.code ≠ .unknownComponent }
      { options with allowUnknown := false } { options with allowUnknown := true } where
  registry := rfl
  style _ _ _ _ := rfl
  fragment := rfl
  unknownType locals props name line := by
    rw [TreeContext.unknownType_of_known (Bool.or_true _)]
    by_cases hk : (TreeContext.isKnown ⟨{ options with allowUnknown := false }, locals, props⟩ name ||
      false) = true
    · rw [TreeContext.unknownType_of_known hk]
      rfl
    · rw [TreeContext.unknownType_of_not_known hk]
      rfl
  other d hd := by simp [Option.guard, hd]

/-- No element has a member of its own style twice. -/
theorem nodeLaw_style :
    NodeLaw { options with emitStyles := false } fun _ _ c => c.style.keys.Nodup where
  mono _ _ hc := hc
  element locals props _ attributes _ _ :=
    nodup_keys_objectAttribute ⟨options, locals, props⟩ attributes "style"

theorem nodup_keys_of_mem_nodes (body : List Node) :
    ∀ c ∈ (extract { options with emitStyles := false } body).nodes, c.style.keys.Nodup := by
  intro c hc
  obtain ⟨root, hroot, hc⟩ := List.mem_flatMap.1 hc
  obtain ⟨hfirst, hinner⟩ := options.nodeLaw_style.of_mem_roots body root hroot
  rcases Component.mem_nodes.1 hc with rfl | hc
  · rcases hfirst with ⟨children, rfl⟩ | hfirst
    · exact List.nodup_nil
    · exact hfirst
  · exact hinner c hc

/-- Where a style is put on top of the default styles of a type, its own members win. -/
theorem get?_styled {r : Registry} {own : Fields Value} (h : own.keys.Nodup) (type key : String) :
    Fields.get? (r.styled type own) key =
      (own.get? key).or (Fields.get? (r.defaultStyles type) key) := by
  unfold Registry.styled
  split
  · exact Fields.get?_overlay h _ key
  · rename_i hname
    rw [Registry.defaultStyles_of_not_registered (by simpa using hname)]
    simp [Fields.get?]

end Options

/-- The options do not depend on each other. With default styles, every node of a registered type has
its own style on top of the default styles of the type, and all else is the same; a strict compile
differs in the severity of the reports about unknown types; and where unknown types are allowed,
exactly these reports are missing. Stores and actions depend on no option at all. -/
theorem extract_options (options : Options) (h : options.registry.Named) (body : List Node) :
    (extract { options with emitStyles := true } body =
        (extract { options with emitStyles := false } body).restyle options.registry.styled ∧
      ∀ c ∈ (extract { options with emitStyles := false } body).nodes, ∀ key,
        Fields.get? (options.registry.styled c.type c.style) key =
          (Fields.get? c.style key).or
            (Fields.get? (options.registry.defaultStyles c.type) key)) ∧
    extract { options with strict := true } body =
      (extract { options with strict := false } body).withReports
        (List.map (Diagnostic.graded .error)) ∧
    extract { options with strict := false } body =
      (extract { options with strict := true } body).withReports
        (List.map (Diagnostic.graded .warning)) ∧
    extract { options with allowUnknown := true } body =
      (extract { options with allowUnknown := false } body).withReports
        (List.filter fun d => d.code ≠ .unknownComponent) ∧
    ∀ others : Options,
      (extract others body).parts.stores = (extract options body).parts.stores ∧
        (extract others body).parts.actions = (extract options body).parts.actions := by
  refine ⟨⟨?_, ?_⟩, ?_, ?_, ?_, fun others => ⟨?_, ?_⟩⟩
  · rw [(options.turns_styles h).extract_eq body]
    simp [Adjustment.extraction, Extraction.withReports]
  · intro c hc key
    exact Options.get?_styled (options.nodup_keys_of_mem_nodes body c hc) c.type key
  · rw [(options.turns_severity true).extract_eq body, Adjustment.extraction_of_report,
      List.filterMap_eq_map]
    rfl
  · rw [(options.turns_severity false).extract_eq body, Adjustment.extraction_of_report,
      List.filterMap_eq_map]
    rfl
  · rw [options.turns_silence.extract_eq body, Adjustment.extraction_of_report,
      List.filterMap_eq_filter]
  · rw [stores_extract, stores_extract]
  · rw [actions_extract, actions_extract]

/-- A row with a style of its own around an element of an unknown type. -/
def styledRow : List Node :=
  [.exportDefault (.arrow []
    (.element "Row"
      [.attribute "style" (some (.container (.object
        [.property (.identifier "flexDirection") (.string "column"),
         .property (.identifier "gap") (.number (.int 4))])))]
      [.element "Spacer" [] [] 1, .element "Card" [] [] 1] 1) 1)]

theorem extract_options_row :
    Registry.standard.Named ∧
    (extract { emitStyles := true } styledRow).parts.main =
      some
        { type := "Row", style := [("flexDirection", .string "column"), ("gap", .int 4)]
          children := [{ type := "Spacer", style := [("flex", .int 1)] }, { type := "Card" }] } ∧
    (extract { strict := true } styledRow).diagnostics.map (·.severity) = [.error] ∧
    (extract { strict := false } styledRow).diagnostics.map (·.severity) = [.warning] ∧
    (extract { allowUnknown := true } styledRow).diagnostics = [] := by
  obtain ⟨⟨hstyles, -⟩, hstrict, hlax, hallowed, -⟩ :=
    extract_options {} Registry.named_standard styledRow
  have hactions : ((collectActions styledRow).outcome {}).2.diagnostics = [] := by
    simp [collectActions, styledRow, declareAllStores, declareStores, walkAll, walk, walkFunction,
      walkAttributes, walkAttribute_of_none, handler?, isHandlerName, Node.children, Node.fields,
      Node.isAbsent]
  have hreports (strict : Bool) : (extract { strict } styledRow).diagnostics =
      (Rendered.ofProgram { strict } styledRow).notes.diagnostics := by
    rw [diagnostics_extract, hactions, List.append_nil]
    rfl
  refine ⟨Registry.named_standard, ?_, ?_, ?_, ?_⟩
  · rw [hstyles]
    change (Rendered.ofProgram {} styledRow).main.map (Component.restyle Registry.standard.styled) = _
    rfl
  · rw [hstrict, Extraction.withReports, hreports]
    rfl
  · rw [hlax, Extraction.withReports, hreports]
    rfl
  · rw [hallowed, Extraction.withReports, hreports]
    rfl

end Scenario

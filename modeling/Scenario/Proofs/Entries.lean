import Mathlib.Data.List.Perm.Basic
import Scenario.Proofs.References
import Scenario.Proofs.StatementOrder

namespace Scenario

open Syntax

def Syntax.Node.isMarkup : Node → Bool
  | .element .. | .fragment .. => true
  | _ => false

/-- The markup that a function with the given body renders: its body, or what the first of its own return
statements returns that returns markup. -/
inductive Renders : Node → Node → Prop where
  | expression {body : Node} : (∀ statements, body ≠ .block statements) →
    body.unwrap.isMarkup = true → Renders body body.unwrap
  | statement {before after : List Node} {e : Node} :
    (∀ x, .returnStatement (some x) ∈ before → x.unwrap.isMarkup = false) → e.unwrap.isMarkup = true →
    Renders (.block (before ++ .returnStatement (some e) :: after)) e.unwrap

/-- A declaration binds a name to a function with the given parameters and body. -/
inductive Binds : Node → String → List Node → Node → Prop where
  | function {name : String} {params : List Node} {body : Node} {line : Nat} :
    Binds (.functionDeclaration name params body line) name params body
  | variable {kind name : String} {declarators params : List Node} {init body : Node} :
    .declarator (.identifier name) (some init) ∈ declarators →
    init.unwrap.isFunctionExpression = true → init.unwrap.function? = some (params, body) →
    Binds (.variableDeclaration kind declarators) name params body

/-- A function that a statement of a program declares, exported or not. One that stands in a default export
is the main component and is not meant. -/
inductive TopLevel (program : List Node) (c : Candidate) : Prop where
  | plain {declaration body : Node} : declaration ∈ program →
    Binds declaration c.name c.params body → (∀ m, c.markup = some m ↔ Renders body m) →
    c.exported = false → TopLevel program c
  | exported {declaration body : Node} {specifiers : List Node} :
    .exportNamed (some declaration) specifiers ∈ program →
    Binds declaration c.name c.params body → (∀ m, c.markup = some m ↔ Renders body m) →
    c.exported = true → TopLevel program c

theorem markup?_eq_ite (n : Node) : markup? n = if n.unwrap.isMarkup then some n.unwrap else none := by
  unfold markup?
  cases n.unwrap <;> rfl

theorem markup?_eq_some_iff {n m : Node} :
    markup? n = some m ↔ n.unwrap.isMarkup = true ∧ n.unwrap = m := by
  rw [markup?_eq_ite]
  split <;> simp_all

theorem markup?_eq_none_iff {n : Node} : markup? n = none ↔ n.unwrap.isMarkup = false := by
  rw [markup?_eq_ite]
  split <;> simp_all

/-- The markup that a statement returns. -/
def returned? : Node → Option Node
  | .returnStatement (some e) => markup? e
  | _ => none

theorem returned?_eq_some_iff {n m : Node} :
    returned? n = some m ↔ ∃ e, n = .returnStatement (some e) ∧ markup? e = some m := by
  unfold returned?
  split <;> simp_all

theorem returnedMarkup?_eq_findSome? (statements : List Node) :
    returnedMarkup? statements = statements.findSome? returned? := by
  fun_induction returnedMarkup? statements with
  | case1 => rfl
  | case2 e more ih =>
    rw [List.findSome?_cons, returned?, ih]
    cases markup? e <;> rfl
  | case3 n more hn ih =>
    rw [List.findSome?_cons, returned?, ih]
    exact hn

theorem renderedMarkup?_eq_some_iff {body m : Node} :
    renderedMarkup? body = some m ↔ Renders body m := by
  by_cases hbody : ∃ statements, body = .block statements
  · obtain ⟨statements, rfl⟩ := hbody
    rw [renderedMarkup?, returnedMarkup?_eq_findSome?, List.findSome?_eq_some_iff]
    constructor
    · rintro ⟨before, n, after, rfl, hn, hbefore⟩
      obtain ⟨e, rfl, he⟩ := returned?_eq_some_iff.1 hn
      obtain ⟨hmarkup, rfl⟩ := markup?_eq_some_iff.1 he
      exact .statement (fun x hx => markup?_eq_none_iff.1 (hbefore _ hx)) hmarkup
    · intro h
      cases h with
      | expression hblock => exact absurd rfl (hblock statements)
      | @statement before after e hbefore hmarkup =>
        refine ⟨before, _, after, rfl, markup?_eq_some_iff.2 ⟨hmarkup, rfl⟩, ?_⟩
        intro n hn
        by_contra hreturned
        obtain ⟨m, hm⟩ := Option.ne_none_iff_exists'.1 hreturned
        obtain ⟨x, rfl, hx⟩ := returned?_eq_some_iff.1 hm
        rw [markup?_eq_none_iff.2 (hbefore x hn)] at hx
        cases hx
  · have hblock (statements : List Node) : body ≠ .block statements := fun h => hbody ⟨statements, h⟩
    rw [renderedMarkup?, markup?_eq_some_iff]
    · constructor
      · rintro ⟨hmarkup, rfl⟩
        exact .expression hblock hmarkup
      · intro h
        cases h with
        | expression _ hmarkup => exact ⟨hmarkup, rfl⟩
        | statement => exact absurd rfl (hblock _)
    · exact hblock

theorem functionOf?_eq_some_iff {n body : Node} {params : List Node} :
    functionOf? n = some (params, body) ↔
      n.unwrap.isFunctionExpression = true ∧ n.unwrap.function? = some (params, body) := by
  unfold functionOf?
  cases n.unwrap <;> simp [Node.isFunctionExpression, Node.function?]

namespace Candidate

theorem eq_ofFunction_iff {c : Candidate} {exported : Bool} {name : String} {params : List Node}
    {body : Node} :
    c = ofFunction exported name params body ↔ c.exported = exported ∧ c.name = name ∧
      c.params = params ∧ ∀ m, c.markup = some m ↔ Renders body m := by
  constructor
  · rintro rfl
    exact ⟨rfl, rfl, rfl, fun m => renderedMarkup?_eq_some_iff⟩
  · rintro ⟨rfl, rfl, rfl, hmarkup⟩
    have hmarkup : c.markup = renderedMarkup? body := by
      ext m
      rw [hmarkup, renderedMarkup?_eq_some_iff]
    cases c
    simp_all [ofFunction]

theorem mem_ofDeclaration {exported : Bool} {declaration : Node} {c : Candidate} :
    c ∈ ofDeclaration exported declaration ↔ c.exported = exported ∧
      ∃ body, Binds declaration c.name c.params body ∧ ∀ m, c.markup = some m ↔ Renders body m := by
  constructor
  · intro h
    unfold ofDeclaration at h
    split at h
    · obtain ⟨hexported, rfl, rfl, hmarkup⟩ := eq_ofFunction_iff.1 (List.mem_singleton.1 h)
      exact ⟨hexported, _, .function, hmarkup⟩
    · obtain ⟨d, hd, hc⟩ := List.mem_filterMap.1 h
      unfold ofDeclarator? at hc
      split at hc
      · obtain ⟨⟨params, body⟩, hf, rfl⟩ := Option.map_eq_some_iff.1 hc
        obtain ⟨hexpression, hfunction⟩ := functionOf?_eq_some_iff.1 hf
        exact ⟨rfl, body, .variable hd hexpression hfunction, fun m => renderedMarkup?_eq_some_iff⟩
      · cases hc
    · cases h
  · rintro ⟨hexported, body, hbinds, hmarkup⟩
    have hc : c = ofFunction exported c.name c.params body :=
      eq_ofFunction_iff.2 ⟨hexported, rfl, rfl, hmarkup⟩
    rcases c with ⟨name, params, markup, exported⟩
    cases hbinds with
    | function => exact List.mem_singleton.2 hc
    | «variable» hd hexpression hfunction =>
      refine List.mem_filterMap.2 ⟨_, hd, ?_⟩
      rw [ofDeclarator?, functionOf?_eq_some_iff.2 ⟨hexpression, hfunction⟩, hc]
      rfl

/-- What is looked at as a component are the functions of the top level. -/
theorem mem_flatMap_ofStatement {program : List Node} {c : Candidate} :
    c ∈ program.flatMap ofStatement ↔ TopLevel program c := by
  rw [List.mem_flatMap]
  constructor
  · rintro ⟨n, hn, hc⟩
    unfold ofStatement at hc
    split at hc
    · rename_i declaration specifiers
      obtain ⟨d, hd, hc⟩ := List.mem_flatMap.1 hc
      obtain ⟨hexported, body, hbinds, hmarkup⟩ := mem_ofDeclaration.1 hc
      rw [Option.mem_toList.1 hd] at hn
      exact .exported hn hbinds hmarkup hexported
    · obtain ⟨hexported, body, hbinds, hmarkup⟩ := mem_ofDeclaration.1 hc
      exact .plain hn hbinds hmarkup hexported
  · intro h
    cases h with
    | plain hn hbinds hmarkup hexported =>
      refine ⟨_, hn, ?_⟩
      have hc := mem_ofDeclaration.2 ⟨hexported, _, hbinds, hmarkup⟩
      cases hbinds <;> exact hc
    | exported hn hbinds hmarkup hexported =>
      refine ⟨_, hn, ?_⟩
      have hc := mem_ofDeclaration.2 ⟨hexported, _, hbinds, hmarkup⟩
      simpa [ofStatement] using hc

end Candidate

/-- The entries of a list of exports: the name of a function and the name that it is exported under. -/
def specifiers : Node → List (String × String)
  | .exportNamed _ specifiers => specifiers.filterMap fun
    | .exportSpecifier localName exported => some (localName, exported)
    | _ => none
  | _ => []

/-- The name that a default export refers to. -/
def defaultName? : Node → Option String
  | .exportDefault n => Callee.identifier? n
  | _ => none

/-- Whether a statement is both a declaration and a list of exports. -/
def isMixedExport : Node → Bool
  | .exportNamed (some _) (_ :: _) => true
  | _ => false

/-- The names under which a function is a component. -/
def entryNames (program : List Node) (c : Candidate) : List String :=
  ((program.flatMap specifiers).filter (·.1 = c.name)).map (·.2) ++
    if c.exported ∨ c.name ∉ (program.flatMap specifiers).map (·.1) ∧
      c.name ∉ program.filterMap defaultName? then [c.name] else []

/-- The components that a function is: its tree under each of its names. -/
def entries (options : Options) (locals : List String) (program : List Node) (c : Candidate) :
    List (String × Component) :=
  c.markup.toList.flatMap fun markup =>
    (entryNames program c).map fun name =>
      (name, (TreeContext.build ⟨options, locals, c.props⟩ markup).1)

theorem flatMap_ite_singleton {α β : Type} (p : α → Prop) [DecidablePred p] (f : α → β)
    (as : List α) :
    (as.flatMap fun a => if p a then [f a] else []) = (as.filter p).map f := by
  induction as with
  | nil => rfl
  | cons a more ih => by_cases ha : p a <;> simp [ha, ih]

section Grouping

variable {cs : List Candidate} (hnames : (cs.map (·.name)).Nodup)

include hnames

theorem find?_toList_perm (name : String) :
    (Candidate.find? cs name).toList.Perm (cs.filter (name = ·.name)) := by
  have hcs : cs.Nodup := List.Nodup.of_map _ hnames
  refine (List.perm_ext_iff_of_nodup ?_ (hcs.filter _)).2 ?_
  · cases Candidate.find? cs name <;> simp
  · intro c
    rw [List.mem_filter, Option.mem_toList, Candidate.find?_eq_some_iff hnames]
    simp [eq_comm]

/-- The exports of a program, each with its function, are for each function the exports that name it. -/
theorem filterMap_find?_perm (specs : List (String × String)) :
    (specs.filterMap fun s => (Candidate.find? cs s.1).map fun c => (s.2, c)).Perm
      (cs.flatMap fun c => (specs.filter (·.1 = c.name)).map fun s => (s.2, c)) := by
  induction specs with
  | nil => simp
  | cons s more ih =>
    have hfirst : ((Candidate.find? cs s.1).map fun c => (s.2, c)).toList.Perm
        (cs.flatMap fun c => if s.1 = c.name then [(s.2, c)] else []) := by
      rw [flatMap_ite_singleton, Option.toList_map]
      exact (find?_toList_perm hnames s.1).map _
    have hcons : (fun c : Candidate => ((s :: more).filter (·.1 = c.name)).map fun x => (x.2, c)) =
        fun c => (if s.1 = c.name then [(s.2, c)] else []) ++
          (more.filter (·.1 = c.name)).map fun x => (x.2, c) := by
      funext c
      by_cases hc : s.1 = c.name <;> simp [hc]
    have hhead : ((s :: more).filterMap fun s => (Candidate.find? cs s.1).map fun c => (s.2, c)) =
        ((Candidate.find? cs s.1).map fun c => (s.2, c)).toList ++
          more.filterMap fun s => (Candidate.find? cs s.1).map fun c => (s.2, c) := by
      cases hs : Candidate.find? cs s.1 <;> simp [hs]
    rw [hhead, hcons]
    exact (hfirst.append ih).trans (List.flatMap_append_perm cs _ _)

end Grouping

namespace Rendered

variable (options : Options) {body : List Node}

theorem reExported_eq_map (n : Node) : reExported n = (specifiers n).map (·.1) := by
  cases n with
  | exportNamed declaration specs =>
    rw [reExported, specifiers, List.map_filterMap]
    congr 1
    funext spec
    cases spec <;> rfl
  | _ => rfl

/-- A statement that is not two things at once adds the functions that it lists or those that it
declares. -/
theorem added_eq (candidates : List Candidate) (elsewhere : List String) {n : Node}
    (h : isMixedExport n = false) :
    added candidates elsewhere n =
      ((specifiers n).filterMap fun s => (Candidate.find? candidates s.1).map fun c => (s.2, c)) ++
        (((Candidate.ofStatement n).filter fun c => c.exported || !elsewhere.contains c.name).map
          fun c => (c.name, c)) := by
  have hlisted (specs : List Node) : specs.filterMap (referred candidates) =
      (specs.filterMap fun
        | .exportSpecifier localName exported => some (localName, exported)
        | _ => none).filterMap fun s => (Candidate.find? candidates s.1).map fun c => (s.2, c) := by
    rw [List.filterMap_filterMap]
    congr 1
    funext spec
    cases spec <;> rfl
  cases n with
  | exportNamed declaration specs =>
    cases specs with
    | nil => rfl
    | cons spec more =>
      cases declaration with
      | none =>
        rw [added, hlisted]
        simp [specifiers, Candidate.ofStatement]
      | some d => cases h
  | _ => rfl

/-- The functions that a program adds, by function. -/
theorem flatMap_added_perm (elsewhere : List String)
    (hnames : ((body.flatMap Candidate.ofStatement).map (·.name)).Nodup)
    (hmixed : ∀ n ∈ body, isMixedExport n = false) :
    (body.flatMap (added (body.flatMap Candidate.ofStatement) elsewhere)).Perm
      ((body.flatMap Candidate.ofStatement).flatMap fun c =>
        ((body.flatMap specifiers).filter (·.1 = c.name)).map (fun s => (s.2, c)) ++
          if (c.exported || !elsewhere.contains c.name) = true then [(c.name, c)] else []) := by
  have hsplit : body.flatMap (added (body.flatMap Candidate.ofStatement) elsewhere) =
      body.flatMap fun n => ((specifiers n).filterMap fun s =>
          (Candidate.find? (body.flatMap Candidate.ofStatement) s.1).map fun c => (s.2, c)) ++
        (((Candidate.ofStatement n).filter fun c => c.exported || !elsewhere.contains c.name).map
          fun c => (c.name, c)) := by
    refine List.flatMap_congr ?_
    intro n hn
    exact added_eq _ elsewhere (hmixed n hn)
  have hown := flatMap_ite_singleton (fun c : Candidate => (c.exported || !elsewhere.contains c.name) = true)
    (fun c => (c.name, c)) (body.flatMap Candidate.ofStatement)
  rw [hsplit]
  refine (List.flatMap_append_perm body _ _).symm.trans ?_
  refine .trans ?_ (List.flatMap_append_perm _ _ _)
  rw [hown]
  refine .append ?_ ?_
  · rw [← List.filterMap_flatMap]
    exact filterMap_find?_perm hnames _
  · rw [List.filter_flatMap, List.map_flatMap]
    simp

theorem components_addMain (r : Rendered) (params : List Node) (markup : Option Node) :
    (r.addMain options params markup).components = r.components := by
  cases markup <;> rfl

theorem components_addMainExpression (candidates : List Candidate) (r : Rendered) (n : Node) :
    (r.addMainExpression options candidates n).components = r.components := by
  unfold addMainExpression
  split
  · split
    · rw [components_addMain]
    · rfl
  · split
    · rw [components_addMain]
    · rfl

theorem components_readMain (candidates : List Candidate) (r : Rendered) (n : Node) :
    (readMain options candidates r n).components = r.components := by
  unfold readMain
  split
  · rw [components_addMain]
  · exact components_addMainExpression options candidates r _
  · rfl

theorem components_afterMain (body : List Node) : (afterMain options body).components = [] := by
  refine List.foldlRecOn (motive := fun r : Rendered => r.components = []) _ _ rfl ?_
  intro r hr n _
  rw [components_readMain, hr]

/-- The name that is kept as that of the main component is the name in a default export. -/
theorem mem_defaultName?_of_mainName {name : String}
    (h : (afterMain options body).mainName = some name) : name ∈ body.filterMap defaultName? := by
  revert name
  refine List.foldlRecOn (motive := fun r : Rendered =>
    ∀ {name}, r.mainName = some name → name ∈ body.filterMap defaultName?) _ _ ?_ ?_
  · intro name hname
    cases hname
  · intro r hr n hn name hname
    have hn : n ∈ body := (List.mem_filter.1 hn).1
    unfold readMain at hname
    split at hname
    · rw [mainName_addMain] at hname
      cases hname
    · exact List.mem_filterMap.2 ⟨_, hn, (addMainExpression_cases options _ r _).2 name hname⟩
    · exact hr hname

/-- A function that the one default export names is the main component. -/
theorem afterMain_of_named {c : Candidate}
    (hnames : ((body.flatMap Candidate.ofStatement).map (·.name)).Nodup)
    (hdefault : (body.filter isDefaultExport).length ≤ 1)
    (hc : c ∈ body.flatMap Candidate.ofStatement) (hname : c.name ∈ body.filterMap defaultName?) :
    afterMain options body =
      addMain options
        { mainName := some c.name
          locals := ((body.flatMap Candidate.ofStatement).filter (·.markup.isSome)).map (·.name) }
        c.params c.markup := by
  obtain ⟨n, hn, hname⟩ := List.mem_filterMap.1 hname
  cases n with
  | exportDefault e =>
    have hmem : .exportDefault e ∈ body.filter isDefaultExport := List.mem_filter.2 ⟨hn, rfl⟩
    have honly : body.filter isDefaultExport = [.exportDefault e] := by
      generalize body.filter isDefaultExport = exports at hmem hdefault
      match exports, hmem, hdefault with
      | [x], hmem, _ => rw [List.mem_singleton.1 hmem]
    have hfind : Candidate.find? (body.flatMap Candidate.ofStatement) c.name = some c :=
      (Candidate.find?_eq_some_iff hnames).2 ⟨hc, rfl⟩
    have hidentifier : Callee.identifier? e = some c.name := hname
    have hread (candidates : List Candidate) (r : Rendered) :
        readMain options candidates r (.exportDefault e) = r.addMainExpression options candidates e := by
      cases e with
      | functionDeclaration name params body line => cases hidentifier
      | _ => rfl
    rw [afterMain, honly, List.foldl_cons, List.foldl_nil, hread, addMainExpression, hidentifier]
    simp only [hfind]
  | _ => cases hname

/-- A function is exported where it is declared or nowhere. -/
theorem own_iff {c : Candidate}
    (hnames : ((body.flatMap Candidate.ofStatement).map (·.name)).Nodup)
    (hdefault : (body.filter isDefaultExport).length ≤ 1)
    (hc : c ∈ body.flatMap Candidate.ofStatement) :
    (c.exported || !(elsewhere options body).contains c.name) = true ↔
      c.exported ∨ c.name ∉ (body.flatMap specifiers).map (·.1) ∧
        c.name ∉ body.filterMap defaultName? := by
  have hmain : (afterMain options body).mainName = some c.name ↔
      c.name ∈ body.filterMap defaultName? := by
    refine ⟨mem_defaultName?_of_mainName options, ?_⟩
    intro hname
    rw [afterMain_of_named options hnames hdefault hc hname, mainName_addMain]
  have hlisted : body.flatMap reExported = (body.flatMap specifiers).map (·.1) := by
    rw [List.map_flatMap]
    exact List.flatMap_congr fun n _ => reExported_eq_map n
  have helsewhere : c.name ∈ elsewhere options body ↔
      c.name ∈ body.filterMap defaultName? ∨ c.name ∈ (body.flatMap specifiers).map (·.1) := by
    rw [elsewhere, List.mem_append, hlisted, Option.mem_toList, hmain]
  rw [Bool.or_eq_true, Bool.not_eq_true', ← Bool.not_eq_true, List.contains_iff_mem, helsewhere,
    not_or, and_comm]

theorem filterMap_rendering (r : Rendered) (program : List Node) (c : Candidate) :
    (((entryNames program c).map fun name => (name, c)).filterMap (rendering options r)).map (·.1) =
      entries options r.locals program c := by
  unfold entries
  rw [List.filterMap_map]
  cases hmarkup : c.markup with
  | none => simp [rendering, hmarkup, Function.comp_def]
  | some markup =>
    have hsome : (rendering options r ∘ fun name => (name, c)) = fun name =>
        some ((name, (r.tree options c.params markup).1), (r.tree options c.params markup).2) := by
      funext name
      simp [rendering, hmarkup]
    rw [hsome, List.filterMap_eq_map', List.map_map]
    simp [Function.comp_def, tree, Candidate.props]

theorem components_ofProgram_perm
    (hnames : ((body.flatMap Candidate.ofStatement).map (·.name)).Nodup)
    (hdefault : (body.filter isDefaultExport).length ≤ 1)
    (hmixed : ∀ n ∈ body, isMixedExport n = false) :
    (ofProgram options body).components.Perm
      ((body.flatMap Candidate.ofStatement).flatMap
        (entries options (afterMain options body).locals body)) := by
  have hadded := flatMap_added_perm (elsewhere options body) hnames hmixed
  have hentries : (body.flatMap Candidate.ofStatement).flatMap
        (entries options (afterMain options body).locals body) =
      (((body.flatMap Candidate.ofStatement).flatMap fun c =>
        ((body.flatMap specifiers).filter (·.1 = c.name)).map (fun s => (s.2, c)) ++
          if (c.exported || !(elsewhere options body).contains c.name) = true then [(c.name, c)]
          else []).filterMap (rendering options (afterMain options body))).map (·.1) := by
    rw [List.filterMap_flatMap, List.map_flatMap]
    refine List.flatMap_congr ?_
    intro c hc
    rw [← filterMap_rendering]
    congr 2
    simp only [own_iff options hnames hdefault hc, entryNames, List.map_append, List.map_map]
    split <;> rfl
  rw [ofProgram_eq, foldl_add, components_afterMain, List.nil_append, hentries]
  exact (hadded.filterMap _).map _

end Rendered

/-- No component is lost and none is there twice, if functions have different names, there is at most one
default export and no statement is both a declaration and a list of exports: the components are those
that the functions of the top level are, and a function that the default export names is the main
component. -/
theorem extract_components_perm (options : Options) {body : List Node}
    (hnames : ((body.flatMap Candidate.ofStatement).map (·.name)).Nodup)
    (hdefault : (body.filter Rendered.isDefaultExport).length ≤ 1)
    (hmixed : ∀ n ∈ body, isMixedExport n = false) :
    let e := extract options body
    let functions := body.flatMap Candidate.ofStatement
    (∀ c, c ∈ functions ↔ TopLevel body c) ∧
      e.parts.components.Perm (functions.flatMap (entries options e.locals body)) ∧
      ∀ c ∈ functions, c.name ∈ body.filterMap defaultName? →
        e.parts.main =
          c.markup.map fun markup => (TreeContext.build ⟨options, e.locals, c.props⟩ markup).1 := by
  intro e functions
  have hlocals : e.locals = (Rendered.afterMain options body).locals := by
    change (Rendered.ofProgram options body).locals = _
    rw [Rendered.ofProgram_eq, Rendered.foldl_add]
  refine ⟨fun c => Candidate.mem_flatMap_ofStatement, ?_, ?_⟩
  · rw [hlocals]
    exact Rendered.components_ofProgram_perm options hnames hdefault hmixed
  · intro c hc hname
    have hmain : e.parts.main = (Rendered.afterMain options body).main := by
      change (Rendered.ofProgram options body).main = _
      rw [Rendered.ofProgram_eq, Rendered.foldl_add]
    rw [hmain, hlocals, Rendered.afterMain_of_named options hnames hdefault hc hname]
    cases c.markup <;> rfl

/-- A function that is exported twice and used as the main component, one that is exported where it is
declared and under another name, and one that is exported nowhere. -/
theorem extract_components_perm_cards :
    let card (name type : String) : Node := .functionDeclaration name [.objectPattern ["title"]]
      (.block [.returnStatement (some (.element type [] [] 1))]) 1
    let body : List Node :=
      [card "Card" "View", .exportNamed (some (card "Tile" "Row")) [],
       .exportNamed none [.exportSpecifier "Card" "Panel", .exportSpecifier "Tile" "Brick",
         .exportSpecifier "Card" "Sheet"],
       card "Badge" "Image", .exportDefault (.identifier "Card")]
    let e := extract {} body
    e.parts.components.Perm
        [("Panel", { type := "View" }), ("Sheet", { type := "View" }), ("Brick", { type := "Row" }),
         ("Tile", { type := "Row" }), ("Badge", { type := "Image" })] ∧
      e.parts.main = some { type := "View" } := by
  intro card body e
  have h := @extract_components_perm {} body (by decide) (by decide) (by decide)
  refine ⟨h.2.1, ?_⟩
  exact h.2.2 _ List.mem_cons_self (by decide)

end Scenario

import Mathlib.Data.List.Induction
import Scenario.Compile
import Scenario.Proofs.Options

namespace Scenario

open Syntax

/-- The report about a type is an error unless the type is known. -/
theorem nodeLaw_known {options : Options} (hs : options.strict = true)
    (ha : options.allowUnknown = false) :
    NodeLaw options fun locals ds c =>
      options.registry.isRegistered c.type = true ∨ c.type ∈ locals ∨ ∃ x ∈ ds, x.isError = true where
  mono hl hd hc := by
    rcases hc with hc | hc | ⟨x, hx, he⟩
    · exact .inl hc
    · exact .inr (.inl (hl hc))
    · exact .inr (.inr ⟨x, hd hx, he⟩)
  element locals props name attributes line inside := by
    by_cases hk : (TreeContext.isKnown ⟨options, locals, props⟩ name || options.allowUnknown) = true
    · have hk : name ∈ locals ∨ options.registry.isRegistered name = true := by
        simpa [TreeContext.isKnown, ha] using hk
      rcases hk with hk | hk
      · exact .inr (.inl hk)
      · exact .inl hk
    · rw [TreeContext.unknownType_of_not_known hk]
      refine .inr (.inr ⟨_, List.mem_singleton_self _, ?_⟩)
      simp [Diagnostic.isError, hs]

/-- A name that the program gives to a component: to a function that renders markup, or to the function
that is its default export. -/
inductive Declares (body : List Node) (name : String) : Prop where
  | candidate {n : Node} {c : Candidate} : n ∈ body → c ∈ Candidate.ofStatement n → c.name = name →
    c.markup.isSome = true → Declares body name
  | default {params : List Node} {block : Node} {line : Nat} :
    .exportDefault (.functionDeclaration name params block line) ∈ body → Declares body name

/-- What the last default export of a program exports. -/
def defaultExport? (body : List Node) : Option Node :=
  body.reverse.findSome? fun
    | .exportDefault n => some n
    | _ => none

/-- The main component is the tree that a function renders. -/
def IsMain (options : Options) (body : List Node) (main : Component) (params : List Node)
    (markup : Option Node) : Prop :=
  ∃ m, markup = some m ∧
    main = ((Rendered.ofProgram options body).tree options params m).1

/-- Why a component that the program declares is not among those of the document under its own name,
given the main component and the names of the others. -/
inductive Aside (options : Options) (body : List Node) (main : Component) (keys : List String)
    (name : String) : Prop where
  /-- It is the last default export, and the main component is its tree. -/
  | function {params : List Node} {block : Node} {line : Nat} :
    defaultExport? body = some (.functionDeclaration name params block line) →
    IsMain options body main params (renderedMarkup? block) → Aside options body main keys name
  /-- It is a default export in front of another one, which counts alone. -/
  | replaced {params : List Node} {block : Node} {line : Nat} :
    .exportDefault (.functionDeclaration name params block line) ∈ body →
    defaultExport? body ≠ some (.functionDeclaration name params block line) →
    Aside options body main keys name
  /-- The last default export refers to it, and the main component is its tree. -/
  | named {n : Node} {c : Candidate} : defaultExport? body = some n →
    Callee.identifier? n = some name →
    Candidate.find? (body.flatMap Candidate.ofStatement) name = some c →
    IsMain options body main c.params c.markup → Aside options body main keys name
  /-- A list of exports names it, and gives it another name among those of the document, unless the
  name is declared again as a function without markup. -/
  | listed {declaration : Option Node} {specifiers : List Node} {exported : String} :
    .exportNamed declaration specifiers ∈ body → .exportSpecifier name exported ∈ specifiers →
    (∀ c, Candidate.find? (body.flatMap Candidate.ofStatement) name = some c →
      c.markup.isSome = true → exported ∈ keys) → Aside options body main keys name
  /-- It is declared beside a list of exports, which counts alone. -/
  | beside {declaration : Option Node} {spec : Node} {more : List Node} {c : Candidate} :
    .exportNamed declaration (spec :: more) ∈ body →
    c ∈ Candidate.ofStatement (.exportNamed declaration (spec :: more)) → c.name = name →
    Aside options body main keys name

theorem defaultExport?_append (body : List Node) (n : Node) :
    defaultExport? (body ++ [n]) =
      match n with
      | .exportDefault e => some e
      | _ => defaultExport? body := by
  unfold defaultExport?
  rw [List.reverse_append, List.reverse_singleton, List.singleton_append, List.findSome?_cons]
  split <;> rename_i h
  · split at h
    · exact h.symm
    · cases h
  · split at h
    · cases h
    · rfl

namespace Rendered

variable (options : Options)

/-- The names of the components that are known. -/
def keys (r : Rendered) : List String := r.components.map (·.1)

theorem locals_addMain (r : Rendered) (params : List Node) (markup : Option Node) :
    (r.addMain options params markup).locals = r.locals := by
  cases markup <;> rfl

theorem mainName_addMain (r : Rendered) (params : List Node) (markup : Option Node) :
    (r.addMain options params markup).mainName = r.mainName := by
  cases markup <;> rfl

theorem addMainExpression_cases (candidates : List Candidate) (r : Rendered) (n : Node) :
    (r.addMainExpression options candidates n).locals = r.locals ∧
      ∀ name, (r.addMainExpression options candidates n).mainName = some name →
        Callee.identifier? n = some name := by
  unfold addMainExpression
  split
  · rename_i name hn
    split
    · rw [locals_addMain, mainName_addMain, hn]
      exact ⟨rfl, fun _ h => h⟩
    · exact ⟨rfl, fun _ h => by cases h⟩
  · split
    · rw [locals_addMain, mainName_addMain]
      exact ⟨rfl, fun _ h => by cases h⟩
    · exact ⟨rfl, fun _ h => by cases h⟩

/-- Where the names come from that are known while the main component is looked for. -/
def Sourced (body : List Node) (r : Rendered) : Prop := ∀ name ∈ r.locals, Declares body name

theorem Sourced.readMain {body : List Node} {r : Rendered} (h : r.Sourced body)
    (candidates : List Candidate) {n : Node} (hn : n ∈ body) :
    (Rendered.readMain options candidates r n).Sourced body := by
  unfold Rendered.readMain
  split
  · rename_i name params block line
    intro x hx
    rw [locals_addMain] at hx
    rcases List.mem_append.1 hx with hx | hx
    · exact h x hx
    · rw [List.mem_singleton.1 hx]
      exact .default hn
  · rename_i e _
    intro x hx
    rw [(addMainExpression_cases options candidates r e).1] at hx
    exact h x hx
  · exact h

/-- The main component is the tree that a function renders. -/
def HasMain (r : Rendered) (params : List Node) (markup : Option Node) : Prop :=
  ∃ m, markup = some m ∧ r.main = some (r.tree options params m).1

/-- Nothing that is noted is an error. -/
def IsQuiet (r : Rendered) : Prop := ∀ x ∈ r.notes.diagnostics, x.isError = false

/-- A default export either gives the main component or is an error. -/
theorem hasMain_addMain {r : Rendered} {params : List Node} {markup : Option Node}
    (hquiet : (r.addMain options params markup).IsQuiet) :
    (r.addMain options params markup).HasMain options params markup := by
  cases markup with
  | none =>
    have herror := hquiet ⟨.missingMain, "Default export does not return JSX", .error, none, none⟩
      (by simp [addMain, report])
    cases herror
  | some m => exact ⟨m, rfl, rfl⟩

/-- What is known behind a default export that is no error. -/
structure Follows (candidates : List Candidate) (e : Node) (r : Rendered) : Prop where
  function {name : String} {params : List Node} {block : Node} {line : Nat} :
    e = .functionDeclaration name params block line →
    r.HasMain options params (renderedMarkup? block)
  named {name : String} : r.mainName = some name → Callee.identifier? e = some name ∧
    ∃ c, Candidate.find? candidates name = some c ∧ r.HasMain options c.params c.markup

theorem follows_addMainExpression {candidates : List Candidate} {r : Rendered} {n : Node}
    (hn : ∀ name params block line, n ≠ .functionDeclaration name params block line)
    (hquiet : (r.addMainExpression options candidates n).IsQuiet) :
    (r.addMainExpression options candidates n).Follows options candidates n := by
  refine ⟨fun h => absurd h (hn _ _ _ _), ?_⟩
  intro name hname
  have hidentifier := (addMainExpression_cases options candidates r n).2 name hname
  refine ⟨hidentifier, ?_⟩
  cases hc : Candidate.find? candidates name with
  | none =>
    rw [addMainExpression, hidentifier] at hname
    simp only [hc] at hname
    cases hname
  | some c =>
    have heq : r.addMainExpression options candidates n =
        { r with mainName := some name }.addMain options c.params c.markup := by
      rw [addMainExpression, hidentifier]
      simp only [hc]
    rw [heq] at hquiet ⊢
    exact ⟨c, rfl, hasMain_addMain options hquiet⟩

theorem follows_readMain {candidates : List Candidate} {r : Rendered} {e : Node}
    (hquiet : (Rendered.readMain options candidates r (.exportDefault e)).IsQuiet) :
    (Rendered.readMain options candidates r (.exportDefault e)).Follows options candidates e := by
  by_cases he : ∃ name params block line, e = .functionDeclaration name params block line
  · obtain ⟨name, params, block, line, rfl⟩ := he
    refine ⟨?_, ?_⟩
    · rintro name' params' block' line' ⟨⟩
      exact hasMain_addMain options hquiet
    · intro name' hname
      rw [Rendered.readMain, mainName_addMain] at hname
      cases hname
  · have hn : ∀ name params block line, e ≠ .functionDeclaration name params block line :=
      fun name params block line h => he ⟨name, params, block, line, h⟩
    have heq : Rendered.readMain options candidates r (.exportDefault e) =
        r.addMainExpression options candidates e := by
      rw [Rendered.readMain]
      exact hn
    rw [heq] at hquiet ⊢
    exact follows_addMainExpression options hn hquiet

/-- What the default exports leave is what the last of them leaves. -/
theorem foldl_readMain_of_defaultExport? (candidates : List Candidate) (body : List Node)
    (start : Rendered) :
    match defaultExport? body with
    | some e => ∃ r, body.foldl (Rendered.readMain options candidates) start =
        Rendered.readMain options candidates r (.exportDefault e)
    | none => body.foldl (Rendered.readMain options candidates) start = start := by
  induction body using List.reverseRecOn with
  | nil => rfl
  | append_singleton body n ih =>
    rw [defaultExport?_append, List.foldl_append, List.foldl_cons, List.foldl_nil]
    cases n with
    | exportDefault e => exact ⟨_, rfl⟩
    | _ => exact ih

/-- What the statements keep that are read behind the default exports. -/
structure Keeps (r r' : Rendered) : Prop where
  locals : r'.locals = r.locals
  main : r'.main = r.main
  notes : r.notes.diagnostics ⊆ r'.notes.diagnostics

theorem keeps_add (r : Rendered) (name : String) (c : Candidate) :
    r.Keeps (r.add options name c) := by
  unfold add
  split
  · exact ⟨rfl, rfl, List.Subset.refl _⟩
  · exact ⟨rfl, rfl, by simp⟩

theorem Keeps.add {r r' : Rendered} (h : r.Keeps r') (name : String) (c : Candidate) :
    r.Keeps (r'.add options name c) := by
  have hadd := keeps_add options r' name c
  exact ⟨hadd.locals.trans h.locals, hadd.main.trans h.main,
    List.Subset.trans h.notes hadd.notes⟩

theorem Keeps.readComponents {r r' : Rendered} (h : r.Keeps r') (candidates : List Candidate)
    (elsewhere : List String) (n : Node) :
    r.Keeps (Rendered.readComponents options candidates elsewhere r' n) := by
  unfold Rendered.readComponents
  split
  · refine List.foldlRecOn (motive := fun x : Rendered => r.Keeps x) _ _ h ?_
    intro x hx spec _
    split
    · split
      · exact hx.add options _ _
      · exact hx
    · exact hx
  · refine List.foldlRecOn (motive := fun x : Rendered => r.Keeps x) _ _ h ?_
    intro x hx c _
    split
    · exact hx
    · exact hx.add options _ _

/-- What is known behind the default exports of a program. -/
structure Introduced (body : List Node) (r : Rendered) : Prop where
  sourced : r.Sourced body
  named : ∀ name, r.mainName = some name → ∃ e, defaultExport? body = some e
  follows : r.IsQuiet → ∀ e, defaultExport? body = some e →
    r.Follows options (body.flatMap Candidate.ofStatement) e

/-- The statements of a program are read twice: first for the main component, then for all others. -/
theorem exists_ofProgram (body : List Node) : ∃ r : Rendered, r.Introduced options body ∧
    ofProgram options body =
      body.foldl (readComponents options (body.flatMap Candidate.ofStatement)
        (r.mainName.toList ++ body.flatMap reExported)) r := by
  refine ⟨_, ⟨?_, ?_, ?_⟩, rfl⟩
  · refine List.foldlRecOn (motive := Sourced body) _ _ ?_ ?_
    · intro name hname
      obtain ⟨c, hc, rfl⟩ := List.mem_map.1 hname
      obtain ⟨hc, hm⟩ := List.mem_filter.1 hc
      obtain ⟨n, hn, hc⟩ := List.mem_flatMap.1 hc
      exact .candidate hn hc rfl hm
    · intro r hr n hn
      exact hr.readMain options _ hn
  · intro name hname
    have hlast := foldl_readMain_of_defaultExport? options (body.flatMap Candidate.ofStatement) body
      { locals := ((body.flatMap Candidate.ofStatement).filter (·.markup.isSome)).map (·.name) }
    split at hlast
    · exact ⟨_, by assumption⟩
    · rw [hlast] at hname
      cases hname
  · intro hquiet e he
    have hlast := foldl_readMain_of_defaultExport? options (body.flatMap Candidate.ofStatement) body
      { locals := ((body.flatMap Candidate.ofStatement).filter (·.markup.isSome)).map (·.name) }
    rw [he] at hlast
    obtain ⟨r, hr⟩ := hlast
    rw [hr] at hquiet ⊢
    exact follows_readMain options hquiet

theorem keeps_foldl (candidates : List Candidate) (elsewhere : List String) (body : List Node)
    (r : Rendered) : r.Keeps (body.foldl (readComponents options candidates elsewhere) r) :=
  List.foldlRecOn (motive := fun x : Rendered => r.Keeps x) _ _ ⟨rfl, rfl, List.Subset.refl _⟩
    fun _ hx n _ => hx.readComponents options candidates elsewhere n

theorem locals_ofProgram (body : List Node) :
    ∀ name ∈ (ofProgram options body).locals, Declares body name := by
  obtain ⟨r, hr, heq⟩ := exists_ofProgram options body
  rw [heq, (keeps_foldl options _ _ body r).locals]
  exact hr.sourced

/-- A function whose tree is the main component behind the default exports is so in the end. -/
theorem HasMain.isMain {body : List Node} {r : Rendered} {params : List Node}
    {markup : Option Node} {main : Component} (h : r.HasMain options params markup)
    (hkeeps : r.Keeps (ofProgram options body))
    (hmain : (ofProgram options body).main = some main) :
    IsMain options body main params markup := by
  obtain ⟨m, rfl, hm⟩ := h
  have htree : (ofProgram options body).tree options params m = r.tree options params m := by
    rw [tree, tree, hkeeps.locals]
  rw [hkeeps.main, hm, Option.some.injEq] at hmain
  exact ⟨m, rfl, by rw [htree, hmain]⟩

theorem keys_add (r : Rendered) (name : String) (c : Candidate) :
    (r.add options name c).keys = r.keys ++ if c.markup.isSome then [name] else [] := by
  unfold add
  cases c.markup <;> simp [keys]

/-- Names are never lost. -/
theorem relates_keys (name : String) :
    Relates options options fun r r' => r = r' ∧ name ∈ r.keys where
  rename _ hr := ⟨by rw [hr.1], hr.2⟩
  declare _ hr := ⟨by rw [hr.1], hr.2⟩
  report _ hr := ⟨by rw [hr.1], hr.2⟩
  main _ _ hr := ⟨by rw [hr.1], hr.2⟩
  component _ _ _ hr := by
    refine ⟨by rw [hr.1], ?_⟩
    simp only [keys, List.map_append, List.mem_append]
    exact .inl hr.2

/-- What one of the steps brings about and all of them keep holds behind them. -/
theorem foldl_of_mem {α : Type} {P : Rendered → Prop} {f : Rendered → α → Rendered}
    (hkeep : ∀ r a, P r → P (f r a)) {as : List α} {a : α} (ha : a ∈ as) (hmake : ∀ r, P (f r a))
    (r : Rendered) : P (as.foldl f r) := by
  induction as generalizing r with
  | nil => cases ha
  | cons b more ih =>
    rcases List.mem_cons.1 ha with rfl | ha
    · exact List.foldlRecOn more f (hmake r) fun r hr b _ => hkeep r b hr
    · exact ih ha (f r b)

theorem mem_keys_addSpecifiers {candidates : List Candidate} {c : Candidate}
    {specifiers : List Node} {name exported : String}
    (hs : .exportSpecifier name exported ∈ specifiers)
    (hc : Candidate.find? candidates name = some c) (hm : c.markup.isSome = true) (r : Rendered) :
    exported ∈ (addSpecifiers options candidates r specifiers).keys := by
  refine foldl_of_mem (P := fun r => exported ∈ r.keys) ?_ hs ?_ r
  · intro r spec hr
    exact ((relates_keys options exported).addSpecifiers candidates [spec] ⟨rfl, hr⟩).2
  · intro r
    simp [hc, keys_add, hm]

theorem mem_keys_addDeclared {elsewhere : List String} {n : Node} {c : Candidate}
    (hc : c ∈ Candidate.ofStatement n) (hm : c.markup.isSome = true)
    (hown : (!c.exported && elsewhere.contains c.name) = false) (r : Rendered) :
    c.name ∈ (addDeclared options elsewhere r n).keys := by
  refine foldl_of_mem (P := fun r => c.name ∈ r.keys) ?_ hc ?_ r
  · intro r b hr
    split
    · exact hr
    · exact ((relates_keys options c.name).add b.name b ⟨rfl, hr⟩).2
  · intro r
    rw [hown, if_neg Bool.false_ne_true, keys_add, hm]
    simp

theorem mem_keys_foldl {candidates : List Candidate} {elsewhere : List String} {body : List Node}
    {n : Node} {name : String} (hn : n ∈ body)
    (h : ∀ x, name ∈ (readComponents options candidates elsewhere x n).keys) (r : Rendered) :
    name ∈ (body.foldl (readComponents options candidates elsewhere) r).keys := by
  refine foldl_of_mem (P := fun r => name ∈ r.keys) ?_ hn h r
  intro x m hx
  exact ((relates_keys options name).readComponents _ _ m ⟨rfl, hx⟩).2

/-- A list of exports gives a component the name that it says. -/
theorem mem_keys_of_listed {body : List Node} {declaration : Option Node} {specifiers : List Node}
    {name exported : String} {c : Candidate} (hn : .exportNamed declaration specifiers ∈ body)
    (hs : .exportSpecifier name exported ∈ specifiers)
    (hc : Candidate.find? (body.flatMap Candidate.ofStatement) name = some c)
    (hm : c.markup.isSome = true) : exported ∈ (ofProgram options body).keys := by
  obtain ⟨r, -, heq⟩ := exists_ofProgram options body
  rw [heq]
  refine mem_keys_foldl options hn ?_ r
  intro x
  cases specifiers with
  | nil => cases hs
  | cons spec more => exact mem_keys_addSpecifiers options hs hc hm x

theorem exists_of_mem_reExported {body : List Node} {name : String}
    (h : name ∈ body.flatMap reExported) : ∃ declaration specifiers exported,
      .exportNamed declaration specifiers ∈ body ∧ .exportSpecifier name exported ∈ specifiers := by
  obtain ⟨n, hn, hname⟩ := List.mem_flatMap.1 h
  unfold reExported at hname
  split at hname
  · rename_i declaration specifiers
    obtain ⟨spec, hspec, hname⟩ := List.mem_filterMap.1 hname
    split at hname
    · cases hname
      exact ⟨declaration, specifiers, _, hn, hspec⟩
    · cases hname
  · cases hname

section Quiet

variable {body : List Node} {main : Component} (hquiet : (ofProgram options body).IsQuiet)
  (hmain : (ofProgram options body).main = some main)

include hquiet hmain

/-- A function that renders markup is known under its own name, or it is set aside. -/
theorem mem_keys_or_aside_of_candidate {n : Node} {c : Candidate} (hn : n ∈ body)
    (hc : c ∈ Candidate.ofStatement n) (hm : c.markup.isSome = true) :
    c.name ∈ (ofProgram options body).keys ∨
      Aside options body main (ofProgram options body).keys c.name := by
  obtain ⟨r, hr, heq⟩ := exists_ofProgram options body
  by_cases hlist : ∃ declaration spec more, n = .exportNamed declaration (spec :: more)
  · obtain ⟨declaration, spec, more, rfl⟩ := hlist
    exact .inr (.beside hn hc rfl)
  have hdeclared (elsewhere : List String) (x : Rendered) :
      readComponents options (body.flatMap Candidate.ofStatement) elsewhere x n =
        addDeclared options elsewhere x n := by
    unfold readComponents
    split
    · exact absurd ⟨_, _, _, rfl⟩ hlist
    · rfl
  cases hown : !c.exported && (r.mainName.toList ++ body.flatMap reExported).contains c.name with
  | false =>
    left
    rw [heq]
    refine mem_keys_foldl options hn ?_ r
    intro x
    rw [hdeclared]
    exact mem_keys_addDeclared options hc hm hown x
  | true =>
    right
    have hmem : c.name ∈ r.mainName.toList ++ body.flatMap reExported := by
      simpa using (Bool.and_eq_true_iff.1 hown).2
    rcases List.mem_append.1 hmem with hname | hlisted
    · have hname : r.mainName = some c.name := by simpa using hname
      have hkeeps : r.Keeps (ofProgram options body) := heq ▸ keeps_foldl options _ _ body r
      obtain ⟨e, he⟩ := hr.named c.name hname
      have hfollows := hr.follows (fun x hx => hquiet x (hkeeps.notes hx)) e he
      obtain ⟨hidentifier, last, hlast, htree⟩ := hfollows.named hname
      exact .named he hidentifier hlast (htree.isMain options hkeeps hmain)
    · obtain ⟨declaration, specifiers, exported, hbody, hspec⟩ := exists_of_mem_reExported hlisted
      refine .listed hbody hspec ?_
      intro last hlast hmarkup
      exact mem_keys_of_listed options hbody hspec hlast hmarkup

/-- A component that the program declares is known under its own name, or it is set aside. -/
theorem mem_keys_or_aside {name : String} (h : Declares body name) :
    name ∈ (ofProgram options body).keys ∨
      Aside options body main (ofProgram options body).keys name := by
  cases h with
  | candidate hn hc hname hm =>
    rw [← hname]
    exact mem_keys_or_aside_of_candidate options hquiet hmain hn hc hm
  | @default params block line hn =>
    right
    by_cases hlast : defaultExport? body = some (.functionDeclaration name params block line)
    · obtain ⟨r, hr, heq⟩ := exists_ofProgram options body
      have hkeeps : r.Keeps (ofProgram options body) := heq ▸ keeps_foldl options _ _ body r
      have hfollows := hr.follows (fun x hx => hquiet x (hkeeps.notes hx)) _ hlast
      exact .function hlast ((hfollows.function rfl).isMain options hkeeps hmain)
    · exact .replaced hn hlast

end Quiet

end Rendered

namespace Parts

theorem isError_componentProblems (seen : List String) (cs : List (String × Component)) :
    ∀ x ∈ componentProblems seen cs, x.isError = true := by
  induction cs generalizing seen with
  | nil => simp [componentProblems]
  | cons c more ih =>
    intro x hx
    unfold componentProblems at hx
    split at hx
    · rcases List.mem_cons.1 hx with rfl | hx
      · rfl
      · exact ih seen x hx
    · rcases List.mem_append.1 hx with hx | hx
      · split at hx
        · rw [List.mem_singleton.1 hx]
          rfl
        · cases hx
      · exact ih _ x hx

/-- Where nothing is wrong with the components, their names are different, and each has a type. -/
theorem of_componentProblems {seen : List String} {cs : List (String × Component)}
    (h : componentProblems seen cs = []) :
    (cs.map (·.1)).Nodup ∧ (∀ c ∈ cs, c.1 ∉ seen) ∧ ∀ c ∈ cs, c.2.type ≠ "" := by
  induction cs generalizing seen with
  | nil => simp
  | cons c more ih =>
    obtain ⟨name, c⟩ := c
    unfold componentProblems at h
    split at h
    · cases h
    rename_i hseen
    obtain ⟨htype, hmore⟩ := List.append_eq_nil_iff.1 h
    obtain ⟨hnodup, hfresh, htypes⟩ := ih hmore
    have htype : c.type ≠ "" := by
      intro hempty
      simp [hempty] at htype
    refine ⟨?_, ?_, List.forall_mem_cons.2 ⟨htype, htypes⟩⟩
    · rw [List.map_cons, List.nodup_cons]
      refine ⟨?_, hnodup⟩
      intro hname
      obtain ⟨d, hd, hd'⟩ := List.mem_map.1 hname
      exact hfresh d hd (hd' ▸ List.mem_cons_self)
    · refine List.forall_mem_cons.2 ⟨by simpa using hseen, ?_⟩
      intro d hd hd'
      exact hfresh d hd (List.mem_cons_of_mem _ hd')

variable {ι : Type}

/-- What is known of parts that make a document. -/
theorem of_assemble {p : Parts ι} {earlier : List Diagnostic} {d : Document ι}
    (h : p.assemble earlier = .ok d) :
    (∀ x ∈ earlier, x.isError = false) ∧ p.main = some d.main ∧ d.components = p.components ∧
      d.main.type ≠ "" ∧ ∀ c ∈ d.components, c.2.type ≠ "" := by
  unfold assemble at h
  simp only at h
  split at h
  · cases h
  rename_i hnone
  have hquiet : ∀ x ∈ earlier ++ p.problems earlier, x.isError = false := by
    simpa [or_imp, forall_and] using hnone
  split at h
  · rename_i key main hkey hmain
    cases h
    have hcomponents : componentProblems [] p.components = [] := by
      refine List.eq_nil_iff_forall_not_mem.2 ?_
      intro x hx
      have herror := isError_componentProblems [] p.components x hx
      have hquiet := hquiet x (List.mem_append_right _ (List.mem_append_right _ hx))
      rw [herror] at hquiet
      cases hquiet
    obtain ⟨hnodup, -, htypes⟩ := of_componentProblems hcomponents
    have hsame : Fields.overlay [] p.components = p.components :=
      Fields.overlay_eq_append hnodup
    refine ⟨fun x hx => hquiet x (List.mem_append_left _ hx), hmain, hsame, ?_, ?_⟩
    · intro hempty
      have hempty : main.type = "" := hempty
      have hproblem : ⟨.emptyMain, "Main component must render a single root element, not a fragment",
          .error, none, none⟩ ∈ p.mainProblems earlier := by
        simp [mainProblems, hmain, hempty]
      have hquiet := hquiet _ (List.mem_append_right _ (List.mem_append_left _
        (List.mem_append_left _ hproblem)))
      cases hquiet
    · intro c hc
      exact htypes c (hsame ▸ hc)
  · cases h

/-- Parts with nothing wrong make a document. -/
theorem exists_of_quiet {p : Parts ι} {key : String} {main : Component}
    (hquiet : p.problems [] = []) (hkey : p.key = some key) (hmain : p.main = some main) :
    ∃ d, p.assemble [] = .ok d ∧ d.main = main ∧
      d.components = Fields.ofAssignments p.components := by
  unfold assemble
  simp only [hquiet, hkey, hmain]
  exact ⟨_, rfl, rfl, rfl⟩

end Parts

/-- The nodes of all components of a document. -/
def Document.nodes {ι : Type} (d : Document ι) : List Component :=
  (d.main :: d.components.map (·.2)).flatMap Component.nodes

theorem assemble_of_compileProgram {options : Options} {body : List Node} {d : Document Ticket}
    (h : (compileProgram options body).result = .ok d) :
    (extract options body).parts.assemble (extract options body).diagnostics = .ok d := by
  unfold compileProgram at h
  simp only at h
  split at h
  · rename_i e he
    cases h
    exact he
  · cases h
  · cases h

/-- In a strict compile every type is registered, or it is declared by the program and is then a
component of the document, under its own name unless it is set aside. -/
theorem declared_of_compileProgram {options : Options} {body : List Node} {d : Document Ticket}
    (hs : options.strict = true) (ha : options.allowUnknown = false)
    (h : (compileProgram options body).result = .ok d) :
    ∀ c ∈ d.nodes, options.registry.isRegistered c.type = true ∨ c.type ∈ d.components.keys ∨
      Declares body c.type ∧ Aside options body d.main d.components.keys c.type := by
  obtain ⟨hquiet, hmain, hcomponents, htype, htypes⟩ :=
    Parts.of_assemble (assemble_of_compileProgram h)
  have hroots : (extract options body).roots = d.main :: d.components.map (·.2) := by
    rw [Extraction.roots, hmain, hcomponents]
    rfl
  have hkeys : d.components.keys = (Rendered.ofProgram options body).keys := by
    rw [hcomponents]
    rfl
  have hknown := (nodeLaw_known hs ha).of_mem_roots body
  intro c hc
  obtain ⟨root, hroot, hc⟩ := List.mem_flatMap.1 hc
  have hroot' : root.type ≠ "" := by
    rcases List.mem_cons.1 hroot with rfl | hroot
    · exact htype
    · obtain ⟨x, hx, rfl⟩ := List.mem_map.1 hroot
      exact htypes x hx
  obtain ⟨hfirst, hinner⟩ := hknown root (hroots ▸ hroot)
  have hc : options.registry.isRegistered c.type = true ∨ c.type ∈ (extract options body).locals ∨
      ∃ x ∈ (extract options body).diagnostics, x.isError = true := by
    rcases Component.mem_nodes.1 hc with rfl | hc
    · rcases hfirst with ⟨children, rfl⟩ | hfirst
      · exact absurd rfl hroot'
      · exact hfirst
    · exact hinner c hc
  rcases hc with hc | hc | ⟨x, hx, herror⟩
  · exact .inl hc
  · have hdeclares := Rendered.locals_ofProgram options body c.type hc
    have hnotes : (Rendered.ofProgram options body).IsQuiet := by
      intro x hx
      exact hquiet x (List.mem_append_left _ (List.mem_append_right _ hx))
    rw [hkeys]
    rcases Rendered.mem_keys_or_aside options hnotes hmain hdeclares with hkey | haside
    · exact .inr (.inl hkey)
    · exact .inr (.inr ⟨hdeclares, haside⟩)
  · rw [hquiet x hx] at herror
    cases herror

/-- A component that is used under its own name and exported under another one. -/
def renamedCard : List Node :=
  [.exportNamed (some (.variableDeclaration "const"
     [.declarator (.identifier "SCENARIO_KEY") (some (.string "k"))])) [],
   .functionDeclaration "Card" [] (.block [.returnStatement (some (.element "View" [] [] 2))]) 2,
   .exportNamed none [.exportSpecifier "Card" "Tile"],
   .exportDefault (.arrow [] (.element "Card" [] [] 4) 4)]

theorem compileProgram_renamedCard :
    ∃ d, (compileProgram { strict := true } renamedCard).result = .ok d ∧
      d.main = { type := "Card" } ∧ d.components.keys = ["Tile"] := by
  have hactions : ((collectActions renamedCard).outcome {}).2.diagnostics = [] := by
    simp [collectActions, renamedCard, declareAllStores, declareStores, walkAll, walk, walkFunction,
      walkAttributes, Node.children, Node.fields, Node.isAbsent]
  have hdiagnostics : (extract { strict := true } renamedCard).diagnostics = [] := by
    rw [diagnostics_extract, hactions]
    rfl
  have hcomponents : (extract { strict := true } renamedCard).parts.components =
      [("Tile", { type := "View" })] := by
    change (Rendered.ofProgram { strict := true } renamedCard).components = _
    rfl
  have hmain : (extract { strict := true } renamedCard).parts.main = some { type := "Card" } := by
    change (Rendered.ofProgram { strict := true } renamedCard).main = _
    rfl
  have hkey : (extract { strict := true } renamedCard).parts.key = some "k" := by
    change (Metadata.ofProgram renamedCard).key = _
    rfl
  have hproblems : (extract { strict := true } renamedCard).parts.problems [] = [] := by
    have hvalid : keyProblem? "k" = none := by decide
    simp [Parts.problems, Parts.mainProblems, Parts.keyProblems, Parts.componentProblems, hmain,
      hkey, hcomponents, hvalid]
  obtain ⟨d, hd, hdm, hdc⟩ := Parts.exists_of_quiet hproblems hkey hmain
  refine ⟨d, ?_, hdm, ?_⟩
  · unfold compileProgram
    simp only [hdiagnostics, hd]
  · rw [hdc, hcomponents]
    rfl

/-- So a type of a document need be neither registered nor the name of one of its components. -/
theorem exists_undeclared_type :
    ∃ d, (compileProgram { strict := true } renamedCard).result = .ok d ∧
      ∃ c ∈ d.nodes, Registry.standard.isRegistered c.type = false ∧
        c.type ∉ d.components.keys := by
  obtain ⟨d, hd, hmain, hkeys⟩ := compileProgram_renamedCard
  refine ⟨d, hd, d.main, ?_, ?_, ?_⟩
  · exact List.mem_flatMap.2 ⟨d.main, List.mem_cons_self, Component.mem_nodes.2 (.inl rfl)⟩
  · rw [hmain]
    rfl
  · rw [hmain, hkeys]
    decide

theorem declared_of_compileProgram_renamedCard :
    ∃ d, (compileProgram { strict := true } renamedCard).result = .ok d ∧
      Registry.standard.isRegistered d.main.type = false ∧ d.main.type ∉ d.components.keys ∧
      Declares renamedCard d.main.type ∧
        Aside { strict := true } renamedCard d.main d.components.keys d.main.type := by
  obtain ⟨d, hd, hmain, hkeys⟩ := compileProgram_renamedCard
  have hregistered : Registry.standard.isRegistered d.main.type = false := by
    rw [hmain]
    rfl
  have hkey : d.main.type ∉ d.components.keys := by
    rw [hmain, hkeys]
    decide
  have hmem : d.main ∈ d.nodes :=
    List.mem_flatMap.2 ⟨d.main, List.mem_cons_self, Component.mem_nodes.2 (.inl rfl)⟩
  refine ⟨d, hd, hregistered, hkey, ?_⟩
  rcases declared_of_compileProgram rfl rfl hd d.main hmem with h | h | h
  · rw [hregistered] at h
    cases h
  · exact absurd h hkey
  · exact h

end Scenario

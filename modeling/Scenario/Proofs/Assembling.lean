import Scenario.Proofs.Metadata
import Scenario.Proofs.References

namespace Scenario

open Syntax

/-- A missing main component and a key that cannot be read are never reported as warnings. -/
def GapsAreErrors (ds : List Diagnostic) : Prop :=
  ∀ d ∈ ds, d.code = .missingMain ∨ d.code = .invalidKey → d.isError = true

theorem GapsAreErrors.append {ds es : List Diagnostic} (hd : GapsAreErrors ds)
    (he : GapsAreErrors es) : GapsAreErrors (ds ++ es) :=
  List.forall_mem_append.2 ⟨hd, he⟩

/-- All that is reported about a tree is about the types and the texts in it. -/
def Notes.OnTrees (n : Notes) : Prop :=
  ∀ d ∈ n.diagnostics, d.code = .unknownComponent ∨ d.code = .mixedTextChildren

theorem Notes.OnTrees.append {m n : Notes} (hm : m.OnTrees) (hn : n.OnTrees) : (m ++ n).OnTrees :=
  List.forall_mem_append.2 ⟨hm, hn⟩

theorem Notes.OnTrees.gapsAreErrors {n : Notes} (h : n.OnTrees) : GapsAreErrors n.diagnostics := by
  intro d hd hgap
  rcases h d hd with hcode | hcode <;> simp [hcode] at hgap

namespace TreeContext

variable (t : TreeContext)

theorem onTrees_unknownType (name : String) (line : Nat) : (t.unknownType name line).OnTrees := by
  by_cases h : (t.isKnown name || t.options.allowUnknown) = true
  · simp [unknownType_of_known h, Notes.OnTrees]
  · simp [unknownType_of_not_known h, Notes.OnTrees]

theorem onTrees_joinedText (name : String) (line : Nat) (pieces : List TextPiece) :
    (joinedText name line pieces).2.OnTrees := by
  unfold joinedText
  split
  · simp [Notes.OnTrees]
  · simp [Notes.OnTrees]
  · split
    · simp [Notes.OnTrees]
    · simp [Notes.OnTrees]

theorem onTrees_component (name : String) (attributes : List Node) (line : Nat) {inside : Content}
    (h : inside.notes.OnTrees) : (t.component name attributes line inside).2.OnTrees := by
  have hdropped (c : Bool) (d : List Dropped) :
      (if c then {} else { dropped := d } : Notes).OnTrees := by
    cases c <;> simp [Notes.OnTrees]
  have hmixed (c : Bool) :
      (if c then joinedText name line inside.texts else (none, {})).2.OnTrees := by
    cases c with
    | false => simp [Notes.OnTrees]
    | true => exact onTrees_joinedText name line inside.texts
  exact (((t.onTrees_unknownType name line).append h).append (hdropped _ _)).append (hmixed _)

theorem relates_onTrees : Relates t t fun c _ => c.notes.OnTrees where
  texts _ := by simp [Notes.OnTrees]
  append hc hd := hc.append hd
  element name attributes line hc := t.onTrees_component name attributes line hc

theorem onTrees_build (n : Node) : (t.build n).2.OnTrees := by
  have hcontent (ns : List Node) : (t.content ns).notes.OnTrees := t.relates_onTrees.content rfl ns
  cases n with
  | element name attributes children line =>
    exact t.onTrees_component name attributes line (hcontent children)
  | fragment children line => exact hcontent children
  | _ => simp [build, Notes.OnTrees]

end TreeContext

theorem Rendered.relates_gapsAreErrors (options : Options) :
    Relates options options fun r r' => r = r' ∧ GapsAreErrors r.notes.diagnostics where
  rename _ hr := ⟨by rw [hr.1], hr.2⟩
  declare _ hr := ⟨by rw [hr.1], hr.2⟩
  report _ hr := ⟨by rw [hr.1], hr.2.append (by simp [GapsAreErrors, Diagnostic.isError])⟩
  main _ _ hr := ⟨by rw [hr.1], hr.2.append (TreeContext.onTrees_build _ _).gapsAreErrors⟩
  component _ _ _ hr := ⟨by rw [hr.1], hr.2.append (TreeContext.onTrees_build _ _).gapsAreErrors⟩

/-- What is extracted from a program is never incomplete without an error. -/
theorem gapsAreErrors_extract (options : Options) (body : List Node) :
    GapsAreErrors (extract options body).diagnostics := by
  have hmetadata : GapsAreErrors (Metadata.ofProgram body).diagnostics := by
    rw [Metadata.diagnostics_ofProgram]
    intro d hd _
    obtain ⟨c, -, hd⟩ := List.mem_flatMap.1 hd
    exact Metadata.isError_of_mem_reports hd
  have hrendered := (Rendered.relates_gapsAreErrors options).ofProgram (fun hr => by rw [hr.1])
    (fun _ => ⟨rfl, by simp [GapsAreErrors]⟩) body
  have hactions : GapsAreErrors ((collectActions body).outcome {}).2.diagnostics := by
    intro d hd hgap
    simp [onlyRefusals_collectActions body d hd] at hgap
  rw [diagnostics_extract]
  exact (hmetadata.append hrendered.2).append hactions

/-- The names that have occurred before, in the list itself or among those seen already: one for each
place where that is so. -/
def repeats (seen names : List String) : List String :=
  (names.zipIdx.filter fun p => seen.contains p.1 || (names.take p.2).contains p.1).map (·.1)

example : repeats [] ["Row", "Tile", "Row", "Tile", "Row"] = ["Row", "Tile", "Row"] := by decide

theorem repeats_cons (seen : List String) (name : String) (names : List String) :
    repeats seen (name :: names) =
      (if seen.contains name then [name] else []) ++ repeats (name :: seen) names := by
  have hbehind (p : String × Nat) :
      (seen.contains p.1 || ((name :: names).take (p.2 + 1)).contains p.1) =
        ((name :: seen).contains p.1 || (names.take p.2).contains p.1) := by
    rw [List.take_succ_cons, List.contains_cons, List.contains_cons]
    grind
  have hfirst : (seen.contains name || ((name :: names).take 0).contains name) =
      seen.contains name := by
    simp
  unfold repeats
  rw [List.zipIdx_cons, List.zipIdx_succ, List.filter_cons, hfirst, List.filter_map]
  simp only [Function.comp_def, hbehind]
  split
  · simp [Function.comp_def]
  · simp [Function.comp_def]

theorem repeats_of_contains {seen : List String} {name : String} (h : seen.contains name = true)
    (names : List String) : repeats (name :: seen) names = repeats seen names := by
  have hsame (x : String) : (name :: seen).contains x = seen.contains x := by
    rw [List.contains_cons]
    grind
  simp only [repeats, hsame]

namespace Parts

/-- The report about a name that has occurred before. -/
def duplicateName (name : String) : Diagnostic :=
  { code := .duplicateComponentName
    message := "Duplicate component name: " ++ name
      ++ " (exported and helper components share one namespace)" }

/-- There is one report about a duplicate name for each name that has occurred before. -/
theorem filter_componentProblems (seen : List String) (cs : List (String × Component)) :
    (componentProblems seen cs).filter (·.code = .duplicateComponentName) =
      (repeats seen (cs.map (·.1))).map duplicateName := by
  induction cs generalizing seen with
  | nil => rfl
  | cons c more ih =>
    obtain ⟨name, c⟩ := c
    rw [List.map_cons, repeats_cons, componentProblems]
    split
    · rename_i hseen
      rw [repeats_of_contains hseen]
      simp [ih, duplicateName]
    · have htype (c : Prop) [Decidable c] (message : String) :
          (if c then [({ code := .missingComponentType, message } : Diagnostic)] else []).filter
            (·.code = .duplicateComponentName) = [] := by
        split <;> simp
      rw [List.filter_append, htype, ih]
      rfl

/-- Components with different names, each of a type, have nothing wrong with them. -/
theorem componentProblems_eq_nil {seen : List String} {cs : List (String × Component)}
    (hnames : (cs.map (·.1)).Nodup) (hseen : ∀ c ∈ cs, c.1 ∉ seen)
    (htypes : ∀ c ∈ cs, c.2.type ≠ "") : componentProblems seen cs = [] := by
  induction cs generalizing seen with
  | nil => rfl
  | cons c more ih =>
    obtain ⟨name, c⟩ := c
    obtain ⟨hname, hnames⟩ := List.nodup_cons.1 hnames
    obtain ⟨hfirst, hseen⟩ := List.forall_mem_cons.1 hseen
    obtain ⟨htype, htypes⟩ := List.forall_mem_cons.1 htypes
    have hrest : componentProblems (name :: seen) more = [] := by
      refine ih hnames ?_ htypes
      intro d hd hmem
      rcases List.mem_cons.1 hmem with heq | hmem
      · exact hname (List.mem_map.2 ⟨d, hd, heq⟩)
      · exact hseen d hd hmem
    rw [componentProblems, if_neg (by simpa using hfirst), if_neg htype, hrest]
    rfl

variable {ι : Type} {p : Parts ι} {earlier : List Diagnostic}

/-- Parts that a document can be made of: a main component and components of different names, all with
a type, and a key of the right form. -/
structure Complete (p : Parts ι) : Prop where
  main : ∃ c, p.main = some c ∧ c.type ≠ ""
  key : ∃ key, p.key = some key ∧ keyProblem? key = none
  names : (p.components.map (·.1)).Nodup
  types : ∀ c ∈ p.components, c.2.type ≠ ""

theorem mainProblems_eq_nil_iff (h : hasCode earlier .missingMain = false) :
    p.mainProblems earlier = [] ↔ ∃ c, p.main = some c ∧ c.type ≠ "" := by
  unfold mainProblems
  cases p.main with
  | none => simp [h]
  | some c => simp

theorem keyProblems_eq_nil_iff (h : hasCode earlier .invalidKey = false) :
    p.keyProblems earlier = [] ↔ ∃ key, p.key = some key ∧ keyProblem? key = none := by
  unfold keyProblems
  cases p.key with
  | none => simp [h]
  | some key => simp

theorem componentProblems_eq_nil_iff (cs : List (String × Component)) :
    componentProblems [] cs = [] ↔ (cs.map (·.1)).Nodup ∧ ∀ c ∈ cs, c.2.type ≠ "" := by
  constructor
  · intro h
    obtain ⟨hnames, -, htypes⟩ := of_componentProblems h
    exact ⟨hnames, htypes⟩
  · intro ⟨hnames, htypes⟩
    exact componentProblems_eq_nil hnames (by simp) htypes

/-- Nothing is wrong with parts, where no gap has been reported, exactly if they are complete. -/
theorem problems_eq_nil_iff (hmain : hasCode earlier .missingMain = false)
    (hkey : hasCode earlier .invalidKey = false) : p.problems earlier = [] ↔ p.Complete := by
  unfold problems
  simp only [List.append_eq_nil_iff, mainProblems_eq_nil_iff hmain, componentProblems_eq_nil_iff]
  constructor
  · intro ⟨⟨hm, hk⟩, hnames, htypes⟩
    rw [(mainProblems_eq_nil_iff hmain).2 hm, List.append_nil] at hk
    exact ⟨hm, (keyProblems_eq_nil_iff hkey).1 hk, hnames, htypes⟩
  · intro h
    refine ⟨⟨h.main, ?_⟩, h.names, h.types⟩
    rw [(mainProblems_eq_nil_iff hmain).2 h.main, List.append_nil]
    exact (keyProblems_eq_nil_iff hkey).2 h.key

theorem isError_of_mem_problems {x : Diagnostic} (h : x ∈ p.problems earlier) :
    x.isError = true := by
  have hmain : ∀ x ∈ p.mainProblems earlier, x.isError = true := by
    unfold mainProblems
    intro x hx
    split at hx
    · split at hx
      · cases hx
      · rw [List.mem_singleton.1 hx]
        rfl
    · split at hx
      · rw [List.mem_singleton.1 hx]
        rfl
      · cases hx
  have hkey (earlier : List Diagnostic) : ∀ x ∈ p.keyProblems earlier, x.isError = true := by
    unfold keyProblems
    intro x hx
    split at hx
    · split at hx
      · cases hx
      · rw [List.mem_singleton.1 hx]
        rfl
    · obtain ⟨problem, -, rfl⟩ := List.mem_map.1 hx
      rfl
  rcases List.mem_append.1 h with h | h
  · rcases List.mem_append.1 h with h | h
    · exact hmain x h
    · exact hkey _ x h
  · exact isError_componentProblems [] p.components x h

/-- Of all that is wrong with parts, the reports about duplicate names are those of the components. -/
theorem filter_problems (p : Parts ι) (earlier : List Diagnostic) :
    (p.problems earlier).filter (·.code = .duplicateComponentName) =
      (repeats [] (p.components.map (·.1))).map duplicateName := by
  have hmain : (p.mainProblems earlier).filter (·.code = .duplicateComponentName) = [] := by
    unfold mainProblems
    split <;> split <;> simp
  have hkey (earlier : List Diagnostic) :
      (p.keyProblems earlier).filter (·.code = .duplicateComponentName) = [] := by
    unfold keyProblems
    split
    · split <;> simp
    · simp [List.filter_map, Function.comp_def]
  unfold problems
  rw [List.filter_append, List.filter_append, hmain, hkey, filter_componentProblems]
  rfl

theorem hasCode_eq_false (hgaps : GapsAreErrors earlier)
    (hquiet : ∀ x ∈ earlier, x.isError = false) {code : Code}
    (hcode : code = .missingMain ∨ code = .invalidKey) : hasCode earlier code = false := by
  refine List.any_eq_false.2 ?_
  intro x hx heq
  have hx' : x.code = code := by simpa using heq
  have herror := hgaps x hx (hx' ▸ hcode)
  rw [hquiet x hx] at herror
  cases herror

/-- Complete parts without an earlier error make a document of just these parts, whose warnings are all
that was reported. -/
theorem assemble_of_complete (hgaps : GapsAreErrors earlier)
    (hquiet : ∀ x ∈ earlier, x.isError = false) (h : p.Complete) :
    ∃ key main, p.key = some key ∧ p.main = some main ∧
      p.assemble earlier = .ok
        { key, version := p.version, buildNumber := p.buildNumber, main, components := p.components
          stores := p.stores, actions := p.actions, warnings := earlier } := by
  obtain ⟨main, hmain, -⟩ := h.main
  obtain ⟨key, hkey, -⟩ := h.key
  refine ⟨key, main, hkey, hmain, ?_⟩
  have hproblems : p.problems earlier = [] :=
    (problems_eq_nil_iff (hasCode_eq_false hgaps hquiet (.inl rfl))
      (hasCode_eq_false hgaps hquiet (.inr rfl))).2 h
  have hcomponents : Fields.ofAssignments p.components = p.components :=
    Fields.overlay_eq_append h.names
  unfold assemble
  simp only [hproblems, List.append_nil, hkey, hmain, hcomponents]
  rw [dif_neg]
  simpa using hquiet

/-- Otherwise what was reported earlier fails the document together with all that is wrong. -/
theorem assemble_of_not_complete (hgaps : GapsAreErrors earlier)
    (h : ¬((∀ x ∈ earlier, x.isError = false) ∧ p.Complete)) :
    ∃ f : Failure, p.assemble earlier = .error (.failed f) ∧
      f.diagnostics = earlier ++ p.problems earlier ∧ ∃ x ∈ f.diagnostics, x.isError = true := by
  have herror : ∃ x ∈ earlier ++ p.problems earlier, x.isError = true := by
    by_cases hquiet : ∀ x ∈ earlier, x.isError = false
    · have hproblems : p.problems earlier ≠ [] := by
        intro hnil
        refine h ⟨hquiet, ?_⟩
        exact (problems_eq_nil_iff (hasCode_eq_false hgaps hquiet (.inl rfl))
          (hasCode_eq_false hgaps hquiet (.inr rfl))).1 hnil
      obtain ⟨x, hx⟩ := List.exists_mem_of_ne_nil _ hproblems
      exact ⟨x, List.mem_append_right _ hx, isError_of_mem_problems hx⟩
    · simp only [not_forall, Bool.not_eq_false] at hquiet
      obtain ⟨x, hx, hx'⟩ := hquiet
      exact ⟨x, List.mem_append_left _ hx, hx'⟩
  unfold assemble
  simp only
  rw [dif_pos (List.any_eq_true.2 herror)]
  exact ⟨_, rfl, rfl, herror⟩

/-- Gaps in what is extracted from a program are reported as errors. Where that is so, parts make a
document exactly if they are complete and nothing reported earlier is an error, and the document has all
components and all warnings. Parts that make none fail with all that was reported earlier and then with
all that is wrong, among it one report for each name that occurs again; one of the reports at least is an
error. -/
theorem assemble_iff_complete (options : Options) (body : List Node) (p : Parts ι)
    (earlier : List Diagnostic) :
    GapsAreErrors (extract options body).diagnostics ∧
      (GapsAreErrors earlier →
        ((∃ d, p.assemble earlier = .ok d) ↔ (∀ x ∈ earlier, x.isError = false) ∧ p.Complete) ∧
        (∀ d, p.assemble earlier = .ok d → d.components = p.components ∧ d.warnings = earlier ∧
          p.key = some d.key ∧ p.main = some d.main ∧ d.version = p.version ∧
          d.buildNumber = p.buildNumber ∧ d.stores = p.stores ∧ d.actions = p.actions) ∧
        ∀ r, p.assemble earlier = .error r → ∃ f : Failure, r = .failed f ∧
          f.diagnostics = earlier ++ p.problems earlier ∧
          (p.problems earlier).filter (·.code = .duplicateComponentName) =
            (repeats [] (p.components.map (·.1))).map duplicateName ∧
          ∃ x ∈ f.diagnostics, x.isError = true) := by
  refine ⟨gapsAreErrors_extract options body, ?_⟩
  intro hgaps
  by_cases h : (∀ x ∈ earlier, x.isError = false) ∧ p.Complete
  · obtain ⟨key, main, hkey, hmain, heq⟩ := assemble_of_complete hgaps h.1 h.2
    refine ⟨⟨fun _ => h, fun _ => ⟨_, heq⟩⟩, ?_, ?_⟩
    · intro d hd
      rw [heq] at hd
      cases hd
      exact ⟨rfl, rfl, hkey, hmain, rfl, rfl, rfl, rfl⟩
    · intro r hr
      rw [heq] at hr
      cases hr
  · obtain ⟨f, heq, hdiagnostics, herror⟩ := assemble_of_not_complete hgaps h
    refine ⟨⟨?_, fun h' => absurd h' h⟩, ?_, ?_⟩
    · intro ⟨d, hd⟩
      rw [heq] at hd
      cases hd
    · intro d hd
      rw [heq] at hd
      cases hd
    · intro r hr
      rw [heq] at hr
      cases hr
      exact ⟨f, rfl, hdiagnostics, filter_problems p earlier, herror⟩

theorem assemble_iff_complete_tiles :
    let earlier : List Diagnostic :=
      [{ code := .unknownComponent, message := "Unknown component <Card>", severity := .warning }]
    let once : Parts Ticket :=
      { key := some "home", main := some { type := "View" }
        components := [("Tile", { type := "Row" })] }
    let twice : Parts Ticket :=
      { once with components := [("Tile", { type := "Row" }), ("Tile", { type := "Row" })] }
    GapsAreErrors earlier ∧ (∃ d, once.assemble earlier = .ok d ∧ d.warnings = earlier) ∧
      ∃ f, twice.assemble earlier = .error (.failed f) ∧
        f.diagnostics = earlier ++ twice.problems earlier ∧
        (twice.problems earlier).filter (·.code = .duplicateComponentName) =
          [duplicateName "Tile"] := by
  intro earlier once twice
  have hgaps : GapsAreErrors earlier := by simp [earlier, GapsAreErrors]
  have hkey : keyProblem? "home" = none := by decide
  have honce : once.Complete :=
    ⟨⟨_, rfl, by decide⟩, ⟨_, rfl, hkey⟩, by simp [once], by simp [once]⟩
  have htwice : ¬twice.Complete := fun h => by
    have hnames := h.names
    simp [twice] at hnames
  obtain ⟨-, h⟩ := assemble_iff_complete {} [] once earlier
  obtain ⟨-, h'⟩ := assemble_iff_complete {} [] twice earlier
  obtain ⟨d, hd⟩ := (h hgaps).1.2 ⟨by simp [earlier, Diagnostic.isError], honce⟩
  refine ⟨hgaps, ⟨d, hd, ((h hgaps).2.1 d hd).2.1⟩, ?_⟩
  cases heq : twice.assemble earlier with
  | ok d => exact absurd ((h' hgaps).1.1 ⟨d, heq⟩).2 htwice
  | error r =>
    obtain ⟨f, rfl, hf, hduplicates, -⟩ := (h' hgaps).2.2 r heq
    exact ⟨f, rfl, hf, hduplicates⟩

end Parts

/-- The characters that a key is meant to consist of. -/
def IsKeyLetter (c : Char) : Prop :=
  ('a' ≤ c ∧ c ≤ 'z') ∨ ('A' ≤ c ∧ c ≤ 'Z') ∨ ('0' ≤ c ∧ c ≤ '9') ∨ c = '_' ∨ c = '-'

/-- A key as it is meant to be. -/
def IsLegalKey (key : String) : Prop :=
  1 ≤ key.length ∧ key.length ≤ 100 ∧ ∀ c ∈ key.toList, IsKeyLetter c

theorem isKeyChar_iff (c : Char) : isKeyChar c = true ↔ IsKeyLetter c := by
  have hupper : c.isUpper = true ↔ 'A' ≤ c ∧ c ≤ 'Z' := decide_eq_true_iff
  have hlower : c.isLower = true ↔ 'a' ≤ c ∧ c ≤ 'z' := by
    change (decide ('a'.val ≤ c.val) && decide (c.val ≤ 'z'.val)) = true ↔ _
    simp [Char.le_def]
  have halpha : c.isAlpha = true ↔ c.isUpper = true ∨ c.isLower = true := Bool.or_eq_true_iff
  simp only [isKeyChar, IsKeyLetter, Char.isAlphanum, Char.isDigit, Bool.or_eq_true, Bool.and_eq_true,
    decide_eq_true_eq, halpha, hupper, hlower, Char.le_def]
  grind

theorem not_isKeyLetter_break : ¬IsKeyLetter '\n' := by
  rw [← isKeyChar_iff]
  decide

theorem withoutFinalBreak_cases (cs : List Char) :
    cs = withoutFinalBreak cs ∨ cs = withoutFinalBreak cs ++ ['\n'] := by
  unfold withoutFinalBreak
  split
  · rename_i h
    obtain ⟨ds, rfl⟩ := List.getLast?_eq_some_iff.1 h
    simp
  · exact .inl rfl

theorem withoutFinalBreak_append (cs : List Char) : withoutFinalBreak (cs ++ ['\n']) = cs := by
  simp [withoutFinalBreak]

theorem withoutFinalBreak_of_isKeyLetter {cs : List Char} (h : ∀ c ∈ cs, IsKeyLetter c) :
    withoutFinalBreak cs = cs := by
  unfold withoutFinalBreak
  rw [if_neg]
  intro hlast
  exact not_isKeyLetter_break (h _ (List.mem_of_getLast? hlast))

/-- The check of keys lets a line break behind a key pass. -/
theorem keyProblem?_eq_none_iff (key : String) :
    keyProblem? key = none ↔ key.length ≤ 100 ∧ ∃ cs, cs ≠ [] ∧ (∀ c ∈ cs, IsKeyLetter c) ∧
      (key.toList = cs ∨ key.toList = cs ++ ['\n']) := by
  have hcheck : keyProblem? key = none ↔ (key.toList ≠ [] ∧ key.length ≤ 100) ∧
      withoutFinalBreak key.toList ≠ [] ∧ ∀ c ∈ withoutFinalBreak key.toList, IsKeyLetter c := by
    simp only [← isKeyChar_iff, ← List.length_pos_iff, String.length_toList]
    unfold keyProblem?
    simp only
    split
    · rename_i hlength
      simp only [reduceCtorEq, false_iff]
      intro h
      omega
    · rename_i hlength
      split
      · rename_i hcharacters
        simp only [reduceCtorEq, false_iff]
        grind
      · grind
  rw [hcheck]
  constructor
  · intro ⟨⟨_, hlength⟩, hne, hletters⟩
    exact ⟨hlength, _, hne, hletters, withoutFinalBreak_cases key.toList⟩
  · intro ⟨hlength, cs, hne, hletters, hkey⟩
    have hbody : withoutFinalBreak key.toList = cs := by
      rcases hkey with hkey | hkey
      · rw [hkey, withoutFinalBreak_of_isKeyLetter hletters]
      · rw [hkey, withoutFinalBreak_append]
    have hkey : key.toList ≠ [] := by
      rcases hkey with hkey | hkey
      · rw [hkey]
        exact hne
      · rw [hkey]
        simp
    rw [hbody]
    exact ⟨⟨hkey, hlength⟩, hne, hletters⟩

/-- A key that passes the check is one as it is meant to be unless it ends in a line break. -/
theorem isLegalKey_iff {key : String} (h : keyProblem? key = none) :
    IsLegalKey key ↔ key.toList.getLast? ≠ some '\n' := by
  obtain ⟨hlength, cs, hne, hletters, hkey⟩ := (keyProblem?_eq_none_iff key).1 h
  constructor
  · intro hlegal hlast
    exact not_isKeyLetter_break (hlegal.2.2 _ (List.mem_of_getLast? hlast))
  · intro hlast
    rcases hkey with hkey | hkey
    · refine ⟨?_, hlength, hkey ▸ hletters⟩
      rw [← String.length_toList, hkey]
      exact List.length_pos_iff.2 hne
    · rw [hkey] at hlast
      simp at hlast

theorem Parts.key_of_assemble {ι : Type} {p : Parts ι} {earlier : List Diagnostic} {d : Document ι}
    (h : p.assemble earlier = .ok d) : p.key = some d.key ∧ keyProblem? d.key = none := by
  unfold assemble at h
  simp only at h
  split at h
  · cases h
  rename_i hquiet
  have hproblems : p.problems earlier = [] := by
    refine List.eq_nil_iff_forall_not_mem.2 ?_
    intro x hx
    refine hquiet (List.any_eq_true.2 ⟨x, List.mem_append_right _ hx, ?_⟩)
    exact isError_of_mem_problems hx
  split at h
  · rename_i key main hkey hmain
    cases h
    refine ⟨hkey, ?_⟩
    obtain ⟨hproblems, -⟩ := List.append_eq_nil_iff.1 hproblems
    obtain ⟨-, hproblems⟩ := List.append_eq_nil_iff.1 hproblems
    simpa [keyProblems, hkey] using hproblems
  · cases h

/-- A compile fails or gives a document with the key that the program exports. The key has 1 to 100
characters and is one as it is meant to be, except that a line break may stand behind it; so it is one as
it is meant to be unless it ends in a line break. -/
theorem key_of_compile (options : Options) (source : String) :
    (∃ f, (compile options source).result = .error f) ∨
      ∃ d body, (compile options source).result = .ok d ∧
        Syntax.parse? source = some (.program body) ∧ (Metadata.ofProgram body).key = some d.key ∧
        1 ≤ d.key.length ∧ d.key.length ≤ 100 ∧
        (∃ cs, cs ≠ [] ∧ (∀ c ∈ cs, IsKeyLetter c) ∧
          (d.key.toList = cs ∨ d.key.toList = cs ++ ['\n'])) ∧
        (IsLegalKey d.key ↔ d.key.toList.getLast? ≠ some '\n') := by
  cases hresult : (compile options source).result with
  | error f => exact .inl ⟨f, rfl⟩
  | ok d =>
    right
    unfold compile at hresult
    split at hresult
    · cases hresult
    · split at hresult
      · rename_i body hbody
        obtain ⟨hkey, hvalid⟩ := Parts.key_of_assemble (assemble_of_compileProgram hresult)
        obtain ⟨hlength, cs, hne, hletters, hcs⟩ := (keyProblem?_eq_none_iff d.key).1 hvalid
        have hpos : 1 ≤ d.key.length := by
          rw [← String.length_toList]
          rcases hcs with hcs | hcs
          · rw [hcs]
            exact List.length_pos_iff.2 hne
          · rw [hcs]
            simp
        exact ⟨d, body, rfl, hbody, hkey, hpos, hlength, ⟨cs, hne, hletters, hcs⟩,
          isLegalKey_iff hvalid⟩
      · cases hresult

/-- A program whose key has a line break behind it. -/
def brokenKey : List Node :=
  [.exportNamed (some (.variableDeclaration "const"
     [.declarator (.identifier "SCENARIO_KEY") (some (.string "home\n"))])) [],
   .exportDefault (.arrow [] (.element "View" [] [] 2) 2)]

/-- So a document may have a key that is not as it is meant to be. -/
theorem exists_key_with_break :
    ∃ d, (compileProgram {} brokenKey).result = .ok d ∧ d.key = "home\n" ∧ ¬IsLegalKey d.key := by
  have hactions : ((collectActions brokenKey).outcome {}).2.diagnostics = [] := by
    simp [collectActions, brokenKey, declareAllStores, declareStores, walkAll, walk, walkFunction,
      walkAttributes, Node.children, Node.fields, Node.isAbsent]
  have hdiagnostics : (extract {} brokenKey).diagnostics = [] := by
    rw [diagnostics_extract, hactions]
    rfl
  have hcomponents : (extract {} brokenKey).parts.components = [] := by
    change (Rendered.ofProgram {} brokenKey).components = _
    rfl
  have hmain : (extract {} brokenKey).parts.main = some { type := "View" } := by
    change (Rendered.ofProgram {} brokenKey).main = _
    rfl
  have hkey : (extract {} brokenKey).parts.key = some "home\n" := by
    change (Metadata.ofProgram brokenKey).key = _
    rfl
  have hvalid : keyProblem? "home\n" = none := by decide
  have hcomplete : (extract {} brokenKey).parts.Complete :=
    ⟨⟨_, hmain, by decide⟩, ⟨_, hkey, hvalid⟩, by simp [hcomponents], by simp [hcomponents]⟩
  obtain ⟨d, hd⟩ : ∃ d, (extract {} brokenKey).parts.assemble [] = .ok d := by
    have hgaps : GapsAreErrors [] := by simp [GapsAreErrors]
    obtain ⟨key, main, -, -, hd⟩ := Parts.assemble_of_complete hgaps (by simp) hcomplete
    exact ⟨_, hd⟩
  have hbreak : d.key = "home\n" := by
    obtain ⟨hd, -⟩ := Parts.key_of_assemble hd
    exact Option.some.inj (hd.symm.trans hkey)
  refine ⟨d, ?_, hbreak, ?_⟩
  · unfold compileProgram
    simp only [hdiagnostics, hd]
  · rw [hbreak, isLegalKey_iff hvalid]
    decide

end Scenario

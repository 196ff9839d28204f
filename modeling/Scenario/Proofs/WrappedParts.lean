import Scenario.Proofs.Outcome
import Scenario.Proofs.WrappedReadings

namespace Scenario

open Syntax
open Syntax.Node (bare)

/-- Lists of the same nodes, with and without wrappers. -/
def Bared : List Node → List Node → Prop := List.Forall₂ fun n m => ∃ v, m = n.bare v

theorem bared_map (v : Bool) (ns : List Node) : Bared ns (ns.map (bare v)) := by
  induction ns with
  | nil => exact .nil
  | cons n more ih => exact .cons ⟨v, rfl⟩ ih

theorem bared_toList (v : Bool) (n : Option Node) : Bared n.toList (n.map (bare v)).toList := by
  cases n with
  | none => exact .nil
  | some n => exact .cons ⟨v, rfl⟩ .nil

theorem bared_singleton (v : Bool) (n : Node) : Bared [n] [n.bare v] := .cons ⟨v, rfl⟩ .nil

theorem Bared.append {ms ms' ns ns' : List Node} (h : Bared ms ms') (h' : Bared ns ns') :
    Bared (ms ++ ns) (ms' ++ ns') :=
  List.rel_append h h'

theorem Bared.filter {ns ms : List Node} (h : Bared ns ms) :
    Bared (ns.filter (!·.isAbsent)) (ms.filter (!·.isAbsent)) := by
  induction h with
  | nil => exact .nil
  | cons hn _ ih =>
    obtain ⟨v, rfl⟩ := hn
    rename_i n _ _ _
    cases hn : n.isAbsent with
    | true => simpa [hn] using ih
    | false =>
      rw [List.filter_cons_of_pos (by simp [hn]), List.filter_cons_of_pos (by simp [hn])]
      exact .cons ⟨v, rfl⟩ ih

theorem bared_fields (n : Node) : Bared n.fields (n.bare false).fields := by
  cases n <;> simp only [bare, Node.fields, Node.bareAll_eq_map, Node.bareOption_eq_map,
    Bool.false_and, Bool.false_eq_true, if_false]
  case absent | string | number | boolean | null | identifier | objectPattern | text |
      breakStatement | exportSpecifier | importDeclaration => exact .nil
  case template | object | array | fragment | block | variableDeclaration | unsupported | program =>
    exact bared_map _ _
  case returnStatement => exact bared_toList _ _
  case spread | parenthesized | assertion | unary | await | spreadAttribute | container |
      expressionStatement | exportDefault => exact bared_singleton _ _
  case property | member | binary => exact .cons ⟨_, rfl⟩ (bared_singleton _ _)
  case call | switchStatement => exact .cons ⟨_, rfl⟩ (bared_map _ _)
  case declarator => exact .cons ⟨_, rfl⟩ (bared_toList _ _)
  case ifStatement => exact .cons ⟨_, rfl⟩ (.cons ⟨_, rfl⟩ (bared_toList _ _))
  case element => exact (bared_map _ _).append (bared_map _ _)
  case arrow | function | functionDeclaration => exact (bared_map _ _).append (bared_singleton _ _)
  case switchCase | exportNamed => exact (bared_toList _ _).append (bared_map _ _)
  exact bared_toList _ _

theorem bared_children (n : Node) : Bared n.children (n.bare false).children :=
  (bared_fields n).filter

/-- What a wrapper has in it. -/
theorem Syntax.Node.Wraps.children {n e : Node} (h : n.Wraps e) : n.children = [e] := by
  obtain ⟨rfl | rfl, he⟩ := h <;>
    simp [Node.children, Node.fields, Node.isAbsent_of_isExpression he]

theorem Bared.mentionsAny {ns ms : List Node} (h : Bared ns ms) (s : Scope)
    (hs : ∀ c ∈ ns, ∀ v, mentions s (c.bare v) = mentions s c) :
    mentionsAny s ms = mentionsAny s ns := by
  induction h with
  | nil => rfl
  | cons hn _ ih =>
    obtain ⟨v, rfl⟩ := hn
    obtain ⟨hfirst, hrest⟩ := List.forall_mem_cons.1 hs
    rw [Scenario.mentionsAny, Scenario.mentionsAny, hfirst v, ih hrest]

@[simp] theorem mentions_bare (s : Scope) (v : Bool) (n : Node) :
    mentions s (n.bare v) = mentions s n := by
  refine Node.bare_induction (P := fun n m => ∀ s, mentions s m = mentions s n) ?_ ?_ v n s
  · intro n e hw ih s
    have hn : s.isActionCall n = false ∧ s.within n = s := by
      obtain ⟨rfl | rfl, -⟩ := hw <;> exact ⟨rfl, rfl⟩
    rw [ih, mentions.eq_def s n, hn.1, hn.2, hw.children]
    simp [mentionsAny]
  · intro n ih s
    rw [mentions, mentions, s.isActionCall_bare_false, s.within_bare_false,
      (bared_children n).mentionsAny _ fun c hc v => ih c hc v _]

theorem Bared.firstNestedFunction? {ns ms : List Node} (h : Bared ns ms) (s : Scope)
    (hs : ∀ c ∈ ns, ∀ v, nestedFunction? s (c.bare v) = nestedFunction? s c) :
    firstNestedFunction? s ms = firstNestedFunction? s ns := by
  induction h with
  | nil => rfl
  | cons hn _ ih =>
    obtain ⟨v, rfl⟩ := hn
    obtain ⟨hfirst, hrest⟩ := List.forall_mem_cons.1 hs
    rw [Scenario.firstNestedFunction?, Scenario.firstNestedFunction?, hfirst v, ih hrest]

theorem nestedFunction?_of_not_function {n : Node} (h : n.isFunctionExpression = false) (s : Scope) :
    nestedFunction? s n =
      if s.isActionCall n then none else firstNestedFunction? (s.within n) n.children := by
  rw [nestedFunction?]
  · intro params body line hn
    rw [hn] at h
    cases h
  · intro name params body line hn
    rw [hn] at h
    cases h

theorem isFunctionExpression_bare (n : Node) :
    (n.bare false).isFunctionExpression = n.isFunctionExpression := by
  cases n <;> rfl

@[simp] theorem nestedFunction?_bare (s : Scope) (v : Bool) (n : Node) :
    nestedFunction? s (n.bare v) = nestedFunction? s n := by
  refine Node.bare_induction (P := fun n m => ∀ s, nestedFunction? s m = nestedFunction? s n)
    ?_ ?_ v n s
  · intro n e hw ih s
    have hn : s.isActionCall n = false ∧ s.within n = s ∧ n.isFunctionExpression = false := by
      obtain ⟨rfl | rfl, -⟩ := hw <;> exact ⟨rfl, rfl, rfl⟩
    rw [ih, nestedFunction?_of_not_function hn.2.2, hn.1, hn.2.1, hw.children]
    simp only [firstNestedFunction?, Bool.false_eq_true, if_false]
    cases nestedFunction? s e <;> rfl
  · intro n ih s
    cases hf : n.isFunctionExpression with
    | false =>
      have hf' := (isFunctionExpression_bare n).trans hf
      rw [nestedFunction?_of_not_function hf, nestedFunction?_of_not_function hf',
        s.isActionCall_bare_false, s.within_bare_false,
        (bared_children n).firstNestedFunction? _ fun c hc v => ih c hc v _]
    | true =>
      cases n with
      | arrow params body line => simp [bare, nestedFunction?, Scope.isActionCall]
      | function name params body line => simp [bare, nestedFunction?, Scope.isActionCall]
      | _ => cases hf

theorem exits_bare (n : Node) : exits (n.bare false) = exits n := by
  refine (exits.mutual_induct (fun n => exits (n.bare false) = exits n)
    (fun n => exitsOption (n.map (bare false)) = exitsOption n)
    (fun ns => exitsAny (ns.map (bare false)) = exitsAny ns) ?_ ?_ ?_ ?_ ?_ ?_ ?_ ?_ ?_).1 n
  · rfl
  · intro argument
    rfl
  · intro body ih
    simpa [bare, exits] using ih
  · intro test consequent alternate ihc iha
    simp only [bare, exits, Node.bareOption_eq_map, ihc, iha]
  · intro n hk hr hb hi
    cases n with
    | breakStatement => exact absurd rfl hk
    | returnStatement argument => exact absurd rfl (hr argument)
    | block body => exact absurd rfl (hb body)
    | ifStatement test consequent alternate => exact absurd rfl (hi test consequent alternate)
    | _ => rfl
  · rfl
  · intro n more ihn ihm
    simp only [List.map_cons, exitsAny, ihn, ihm]
  · rfl
  · intro n ih
    exact ih

theorem caseFlow?_bare (ns : List Node) :
    caseFlow? (ns.map (bare false)) =
      (caseFlow? ns).map fun (run, leaves) => (run.map (bare false), leaves) := by
  induction ns using caseFlow?.induct with
  | case1 => simp [caseFlow?]
  | case2 more => simp [bare, caseFlow?]
  | case3 e more => simp [bare, caseFlow?]
  | case4 body more hb ih => simp [bare, caseFlow?, ih, hb]
  | case5 body more run hb ih => simp [bare, caseFlow?, ih, hb]
  | case6 body more run hb ihb ihm =>
    simp only [List.map_cons, bare, Node.bareAll_eq_map, caseFlow?, ihb, hb, Option.map_some, ihm]
    cases caseFlow? more <;> simp [bare]
  | case7 test consequent alternate more he =>
    have he' := (exits_bare (.ifStatement test consequent alternate)).trans he
    simp only [bare] at he'
    simp only [List.map_cons, bare, caseFlow?, he, he', if_true, Option.map_none]
  | case8 test consequent alternate more he ih =>
    have he' := (exits_bare (.ifStatement test consequent alternate)).trans (by simpa using he)
    simp only [bare] at he'
    simp only [List.map_cons, bare, caseFlow?, he, he', Bool.false_eq_true, if_false, ih]
    cases caseFlow? more <;> simp [bare]
  | case9 n more hb hr hk hi ih =>
    have hflow : caseFlow? (n.bare false :: more.map (bare false)) =
        (caseFlow? (more.map (bare false))).map fun (run, leaves) => (n.bare false :: run, leaves) := by
      rw [caseFlow?]
      · intro h
        cases n with
        | breakStatement => exact hb rfl
        | _ => cases h
      · intro e h
        cases n with
        | returnStatement argument => exact hr argument rfl
        | _ => cases h
      · intro body h
        obtain ⟨b, rfl⟩ := Node.bare_eq_block h
        exact hk b rfl
      · intro test consequent alternate h
        cases n with
        | ifStatement test consequent alternate => exact hi test consequent alternate rfl
        | _ => cases h
    rw [List.map_cons, hflow, ih, caseFlow?]
    · cases caseFlow? more <;> rfl
    · exact hb
    · exact hr
    · exact hk
    · exact hi

theorem caseBody_bare (c : Node) : caseBody (c.bare false) = (caseBody c).map (bare false) := by
  cases c with
  | switchCase test body => simp [bare, caseBody]
  | _ => rfl

theorem caseTest_bare (c : Node) : caseTest (c.bare false) = (caseTest c).map (bare true) := by
  cases c with
  | switchCase test body => simp [bare, caseTest]
  | _ => rfl

theorem caseRun?_bare (cs : List Node) :
    caseRun? (cs.map (bare false)) = (caseRun? cs).map (List.map (bare false)) := by
  induction cs with
  | nil => rfl
  | cons c more ih =>
    simp only [List.map_cons, caseRun?, caseBody_bare, caseFlow?_bare, ih]
    cases caseFlow? (caseBody c) with
    | none => rfl
    | some flow =>
      obtain ⟨run, leaves⟩ := flow
      cases leaves with
      | true => rfl
      | false => cases caseRun? more <;> simp

theorem Bared.declareAllStores {ns ms : List Node} (h : Bared ns ms)
    (hs : ∀ c ∈ ns, ∀ v, declareStores (c.bare v) = declareStores c) :
    declareAllStores ms = declareAllStores ns := by
  induction h with
  | nil => rfl
  | cons hn _ ih =>
    obtain ⟨v, rfl⟩ := hn
    obtain ⟨hfirst, hrest⟩ := List.forall_mem_cons.1 hs
    rw [Scenario.declareAllStores, Scenario.declareAllStores, hfirst v, ih hrest]

theorem declareStores_of_not_call {n : Node}
    (h : ∀ callee arguments line, n ≠ .call callee arguments line) :
    declareStores n = declareAllStores n.children := by
  rw [declareStores]
  exact h

theorem declareStores_bare (v : Bool) (n : Node) : declareStores (n.bare v) = declareStores n := by
  refine Node.bare_induction (P := fun n m => declareStores m = declareStores n) ?_ ?_ v n
  · intro n e hw ih
    have hn : ∀ callee arguments line, n ≠ .call callee arguments line := by
      obtain ⟨rfl | rfl, -⟩ := hw <;> simp
    rw [ih, declareStores_of_not_call hn, hw.children, declareAllStores, declareAllStores]
    rfl
  · intro n ih
    have hparts := (bared_children n).declareAllStores ih
    by_cases hn : ∃ callee arguments line, n = .call callee arguments line
    · obtain ⟨callee, arguments, line, rfl⟩ := hn
      simp only [bare] at hparts ⊢
      rw [declareStores, declareStores, Callee.isStoreFactory_bare, hparts, Node.bareAll_eq_map,
        Store.ofArguments_bare]
    · have hn' : ∀ callee arguments line, n.bare false ≠ .call callee arguments line := by
        intro callee arguments line h
        cases n with
        | call callee arguments line => exact hn ⟨callee, arguments, line, rfl⟩
        | _ => cases h
      rw [declareStores_of_not_call hn', hparts, declareStores_of_not_call]
      intro callee arguments line h
      exact hn ⟨callee, arguments, line, h⟩

end Scenario

import Scenario.Proofs.ReservedNames
import Scenario.Proofs.WrappedActions

namespace Scenario

open Syntax Analysis
open Syntax.Node (inherited_avoids inFull inFull_eq_recast recast AllAvoid FunctionAvoids)

variable {s : Scope}

theorem children_inFull_of_fields {n : Node} (h : n.inFull.fields = n.fields.map inFull) :
    n.inFull.children = n.children.map inFull := by
  rw [inFull_eq_recast] at h ⊢
  exact Node.children_recast_of_fields _ h

/-- The parts of a node that is no action are the same in full. -/
theorem children_inFull (hs : s.Avoids) {n : Node} (h : s.isActionCall n = false) :
    n.inFull.children = n.children.map inFull := by
  refine children_inFull_of_fields ?_
  by_cases hn : ∃ callee arguments line, n = .call callee arguments line
  · obtain ⟨callee, arguments, line, rfl⟩ := hn
    have hdirect : Callee.direct? callee = none := by
      by_contra hd
      obtain ⟨⟨space, method⟩, hd⟩ := Option.ne_none_iff_exists'.1 hd
      rw [Scope.isActionCall, (hs.classify_of_direct hd).1] at h
      cases h
    simp [inFull, Node.fields,
      Callee.inFull_of_not_direct ((Callee.direct?_inFull callee).trans hdirect)]
  · exact Node.fields_inFull fun callee arguments line h => hn ⟨callee, arguments, line, h⟩

theorem mentionsAny_map {f : Node → Node} {ns : List Node}
    (h : ∀ c ∈ ns, mentions s (f c) = mentions s c) : mentionsAny s (ns.map f) = mentionsAny s ns := by
  induction ns with
  | nil => rfl
  | cons n more ih =>
    obtain ⟨hn, hmore⟩ := List.forall_mem_cons.1 h
    rw [List.map_cons, mentionsAny, mentionsAny, hn, ih hmore]

theorem mentions_inFull {s : Scope} (hs : s.Avoids) (n : Node) : mentions s n.inFull = mentions s n := by
  rw [mentions, mentions, hs.isActionCall_inFull, Scope.within_inFull]
  cases h : s.isActionCall n with
  | true => rfl
  | false =>
    rw [children_inFull hs h, mentionsAny_map]
    intro c hc
    exact mentions_inFull (hs.within n) c
termination_by sizeOf n
decreasing_by exact Node.sizeOf_lt_of_mem_children hc

theorem firstNestedFunction?_map {f : Node → Node} {ns : List Node}
    (h : ∀ c ∈ ns, nestedFunction? s (f c) = nestedFunction? s c) :
    firstNestedFunction? s (ns.map f) = firstNestedFunction? s ns := by
  induction ns with
  | nil => rfl
  | cons n more ih =>
    obtain ⟨hn, hmore⟩ := List.forall_mem_cons.1 h
    rw [List.map_cons, firstNestedFunction?, firstNestedFunction?, hn, ih hmore]

theorem nestedFunction?_inFull {s : Scope} (hs : s.Avoids) {n : Node} (hn : n.Avoids) :
    nestedFunction? s n.inFull = nestedFunction? s n := by
  cases hf : n.isFunctionExpression with
  | true =>
    cases n with
    | arrow params body line =>
      have hbody := mentions_inFull (hs.function (hn.function? rfl).params) body
      simp [inFull, nestedFunction?, Scope.isActionCall, hbody]
    | function name params body line =>
      have hbody := mentions_inFull (hs.function (hn.function? rfl).params) body
      simp [inFull, nestedFunction?, Scope.isActionCall, hbody]
    | _ => cases hf
  | false =>
    have hf' : n.inFull.isFunctionExpression = false := by
      cases n <;> first | rfl | cases hf
    rw [nestedFunction?_of_not_function hf, nestedFunction?_of_not_function hf',
      hs.isActionCall_inFull, Scope.within_inFull]
    cases h : s.isActionCall n with
    | true => rfl
    | false =>
      rw [children_inFull hs h, firstNestedFunction?_map]
      intro c hc
      exact nestedFunction?_inFull (hs.within n) (hn.children c hc)
termination_by sizeOf n
decreasing_by exact Node.sizeOf_lt_of_mem_children hc

theorem declareAllStores_map {f : Node → Node} {ns : List Node}
    (h : ∀ c ∈ ns, declareStores (f c) = declareStores c) :
    declareAllStores (ns.map f) = declareAllStores ns := by
  induction ns with
  | nil => rfl
  | cons n more ih =>
    obtain ⟨hn, hmore⟩ := List.forall_mem_cons.1 h
    rw [List.map_cons, declareAllStores, declareAllStores, hn, ih hmore]

/-- A hole declares nothing. -/
theorem declareAllStores_children (n : Node) : declareAllStores n.children = declareAllStores n.fields := by
  unfold Node.children
  induction n.fields with
  | nil => rfl
  | cons c more ih =>
    cases hc : c.isAbsent with
    | true =>
      have habsent : declareStores c = pure () := by
        cases c with
        | absent =>
          rw [declareStores_of_not_call (by simp)]
          exact declareAllStores.eq_1
        | _ => cases hc
      rw [List.filter_cons_of_neg (by simp [hc]), declareAllStores, habsent, pure_bind, ih]
    | false => rw [List.filter_cons_of_pos (by simp [hc]), declareAllStores, declareAllStores, ih]

theorem declareStores_of_fields {n e : Node}
    (hn : ∀ callee arguments line, n ≠ .call callee arguments line) (hf : n.fields = [e]) :
    declareStores n = declareStores e := by
  rw [declareStores_of_not_call hn, declareAllStores_children, hf, declareAllStores, declareAllStores]
  rfl

/-- A wrapper declares what it holds. -/
theorem declareStores_unwrap (n : Node) : declareStores n.unwrap = declareStores n := by
  fun_induction Node.unwrap n with
  | case1 e ih | case2 e ih | case3 e ih =>
    rw [ih]
    exact (declareStores_of_fields (by simp) rfl).symm
  | case4 => rfl

theorem declareStores_identifier (name : String) : declareStores (.identifier name) = pure () := by
  rw [declareStores_of_not_call (by simp)]
  exact declareAllStores.eq_1

theorem declareStores_callee (c : Node) : declareStores (Callee.inFull c) = declareStores c := by
  cases h : Callee.direct? c with
  | none => rw [Callee.inFull_of_not_direct h]
  | some d =>
    obtain ⟨name, hname, -⟩ := Callee.identifier?_of_direct h
    have hc : c.unwrap = .identifier name := by
      unfold Callee.identifier? at hname
      split at hname
      · cases hname
        assumption
      · cases hname
    rw [← declareStores_unwrap, Callee.unwrap_inFull_of_direct h, ← declareStores_unwrap c, hc,
      declareStores_of_not_call (by simp)]
    simp [Node.children, Node.fields, Node.isAbsent, declareAllStores, declareStores_identifier]

theorem declareStores_inFull (n : Node) : declareStores n.inFull = declareStores n := by
  have ih (c : Node) (hc : c ∈ n.fields) : declareStores c.inFull = declareStores c :=
    declareStores_inFull c
  by_cases hn : ∃ callee arguments line, n = .call callee arguments line
  · obtain ⟨callee, arguments, line, rfl⟩ := hn
    obtain ⟨hcallee, harguments⟩ := List.forall_mem_cons.1 ih
    have hparts : declareAllStores (Node.call callee arguments line).inFull.children =
        declareAllStores (Node.call callee arguments line).children := by
      rw [declareAllStores_children, declareAllStores_children]
      simp only [inFull, Node.inFullAll_eq_map, Node.fields, declareAllStores, declareStores_callee,
        hcallee, declareAllStores_map harguments]
    simp only [inFull, Node.inFullAll_eq_map] at hparts ⊢
    rw [declareStores, declareStores, Callee.isStoreFactory_callee, Callee.isStoreFactory_inFull,
      Store.ofArguments_inFull, hparts]
  · have hn (callee : Node) (arguments : List Node) (line : Nat) : n ≠ .call callee arguments line :=
      fun h => hn ⟨callee, arguments, line, h⟩
    have hn' (callee : Node) (arguments : List Node) (line : Nat) :
        n.inFull ≠ .call callee arguments line := by
      intro h
      cases n with
      | call callee arguments line => exact hn callee arguments line rfl
      | _ => cases h
    rw [declareStores_of_not_call hn', declareStores_of_not_call hn, declareAllStores_children,
      declareAllStores_children, Node.fields_inFull hn, declareAllStores_map ih]
termination_by sizeOf n
decreasing_by exact Node.sizeOf_lt_of_mem_fields hc

theorem mutationOn?_inFull_eq_none {proxy : String} {n : Node} (h : mutationOn? proxy n = none) :
    mutationOn? proxy n.inFull = none := by
  rw [mutationOn?_inFull, h]
  rfl

def fullStoreTraversal (store : Store) : StoreTraversal where
  storeAction s method arguments line := s.Avoids → AllAvoid arguments →
    storeAction s store method (arguments.map inFull) line = storeAction s store method arguments line
  transactionActions s proxy line ns := s.Avoids → AllAvoid ns →
    transactionActions s store proxy line (ns.map inFull) = transactionActions s store proxy line ns

theorem steps_fullStoreTraversal (store : Store) : (fullStoreTraversal store).Steps store where
  unnamed s arguments line _ _ := by
    rw [storeAction, storeAction]
  unknown arguments line hm _ _ := by
    simp only [storeAction, hm]
  mutation {s method kind} arguments line hk ht _ _ := by
    rw [storeAction_of_mutation hk ht, storeAction_of_mutation hk ht, plainArguments_inFull,
      ofReading_map, bind_map_left]
    exact bind_congr fun _ => mutationAct_inFull kind store _ arguments line
  transaction {s arguments line} ih hs ha := by
    rw [storeAction_of_transaction rfl, storeAction_of_transaction rfl, plainArguments_inFull,
      ofReading_map, bind_map_left, Transaction.ofArguments_inFull]
    refine bind_congr fun _ => ?_
    cases hr : Transaction.ofArguments arguments line with
    | error r => rfl
    | ok t =>
      obtain ⟨hparams, hproxy, hstatements⟩ := ha.transaction hr
      have hinner := ih t hr ((hs.function hparams).bind hproxy (some store)) hstatements
      change (transactionActions ((s.function t.inFull.params).bind t.inFull.proxy (some store)) store
        t.inFull.proxy line t.inFull.statements >>= _) = (transactionActions _ store _ line _ >>= _)
      rw [Transaction.inFull, Scope.function_inFull, hinner]
  nil s proxy line _ _ := rfl
  change {s proxy line n more c} hc ihc ihm hs hns := by
    obtain ⟨hn, hmore⟩ := List.forall_mem_cons.1 hns
    have hc' : mutationOn? proxy n.inFull = some c.inFull := by
      rw [mutationOn?_inFull, hc]
      rfl
    rw [List.map_cons, transactionActions_of_mutation hc', transactionActions_of_mutation hc,
      ihm hs hmore]
    change (storeAction s store c.method (c.arguments.map inFull) c.line >>= _) = _
    rw [ihc hs (hn.mutationOn? hc)]
  foreign {s proxy line n more} hn hm hs hns := by
    rw [List.map_cons, transactionActions_of_none (mutationOn?_inFull_eq_none hn),
      transactionActions_of_none hn, mentions_inFull hs, if_pos hm, if_pos hm]
  quiet {s proxy line n more} hn hm ih hs hns := by
    rw [List.map_cons, transactionActions_of_none (mutationOn?_inFull_eq_none hn),
      transactionActions_of_none hn, mentions_inFull hs, if_neg hm, if_neg hm,
      ih hs (List.forall_mem_cons.1 hns).2]

/-- The analyses of a store's calls and of a transaction's statements, in full. -/
theorem store_inFull (store : Store) :
    (∀ s method arguments line, s.Avoids → AllAvoid arguments →
      storeAction s store method (arguments.map inFull) line =
        storeAction s store method arguments line) ∧
    ∀ s proxy line ns, s.Avoids → AllAvoid ns →
      transactionActions s store proxy line (ns.map inFull) =
        transactionActions s store proxy line ns :=
  (steps_fullStoreTraversal store).everywhere

section Recast

variable (k : Recall)

theorem isPassed_recast (n : Node) : (n.recast k).isPassed = n.isPassed := by
  cases n <;> rfl

theorem isSearched_recast {n : Node} (h : n.isSearched = true) :
    (n.recast k).isSearched = true := by
  cases n with
  | unsupported kind parts line =>
    by_cases hk : kind = "ternary_expression"
    · subst hk
      match parts with
      | [] | [_] | [_, _] | _ :: _ :: _ :: _ :: _ => simp [recast, Node.isSearched]
      | [_, _, _] => cases h
    · simp [recast, Node.isSearched, hk]
  | parenthesized | assertion | container | await | binary => cases h
  | _ => rfl

theorem isFormless_recast (n : Node) : (n.recast k).isFormless = n.isFormless := by
  cases n with
  | returnStatement argument => cases argument <;> rfl
  | _ => rfl

theorem statementKind_recast (n : Node) : statementKind (n.recast k) = statementKind n := by
  cases n <;> rfl

end Recast

theorem Analysis.Ensures.bind_congr {α β : Type} {P : α → Prop} {m : Analysis α} {f g : α → Analysis β}
    (hm : m.Ensures P) (h : ∀ a, P a → f a = g a) : m >>= f = m >>= g := by
  funext p
  change (m >>= f).outcome p = (m >>= g).outcome p
  rw [outcome_bind, outcome_bind]
  rcases ho : m.outcome p with ⟨r | a, q⟩
  · rfl
  · exact congrArg (·.outcome q) (h a (hm p q a ho))

theorem Analysis.ensures_bind {α β : Type} {Q : β → Prop} (m : Analysis α) {f : α → Analysis β}
    (h : ∀ a, (f a).Ensures Q) : (m >>= f).Ensures Q :=
  Ensures.bind (P := fun _ => True) (fun _ _ _ _ => trivial) fun a _ => h a

theorem ensures_scope (m : Analysis (List Act)) (t : Scope) :
    (do return (← m, t) : Analysis (List Act × Scope)).Ensures fun x => x.2 = t :=
  ensures_bind m fun _ => ensures_pure rfl

theorem ensures_behind_if {test consequent : Node} {alternate : Option Node}
    (hc : (statement s consequent).Ensures fun x => x.2 = s.behind consequent)
    (ha : (alternative (s.behind consequent) alternate).Ensures fun x =>
      x.2 = (s.behind consequent).behindOption alternate) :
    (statement s (.ifStatement test consequent alternate)).Ensures fun x =>
      x.2 = s.behind (.ifStatement test consequent alternate) := by
  rw [statement, Scope.behind_ifStatement]
  refine hc.bind fun x hx => ?_
  obtain ⟨first, t⟩ := x
  obtain rfl : t = s.behind consequent := hx
  refine ha.bind fun y hy => ?_
  obtain ⟨second, u⟩ := y
  obtain rfl : u = (s.behind consequent).behindOption alternate := hy
  dsimp only
  split
  · exact ensures_pure rfl
  · exact ensures_bind _ fun _ => ensures_pure rfl

/-- The scope behind a statement does not depend on what is made of the statement. -/
theorem ensures_behind (s : Scope) (n : Node) : (statement s n).Ensures fun x => x.2 = s.behind n := by
  fun_induction Scope.behind s n with
  | case1 s kind declarators =>
    rw [statement]
    exact ensures_scope _ _
  | case2 s test consequent ih =>
    have h : (statement s (.ifStatement test consequent none)).Ensures fun x =>
        x.2 = s.behind (.ifStatement test consequent none) := by
      refine ensures_behind_if ih ?_
      rw [alternative]
      exact ensures_pure rfl
    rwa [Scope.behind] at h
  | case3 s test consequent alternate ihc iha =>
    have h : (statement s (.ifStatement test consequent (some alternate))).Ensures fun x =>
        x.2 = s.behind (.ifStatement test consequent (some alternate)) := by
      refine ensures_behind_if ihc ?_
      rw [alternative]
      exact iha
    rwa [Scope.behind] at h
  | case4 n s hdeclaration hif hifelse =>
    unfold statement
    split
    · exact ensures_scope _ _
    · exact ensures_scope _ _
    · exact ensures_pure rfl
    · exact (hdeclaration _ _ rfl).elim
    · exact ensures_scope _ _
    · rename_i test consequent alternate
      cases alternate with
      | none => exact (hif _ _ rfl).elim
      | some alternate => exact (hifelse _ _ _ rfl).elim
    · split
      · exact ensures_pure rfl
      · split
        · exact ensures_throw _
        · exact ensures_bind _ fun branches => ensures_bind _ fun _ => ensures_pure rfl
    · exact ensures_pure rfl
    · split
      · exact ensures_throw _
      · exact ensures_pure rfl

theorem statement_inFull_of_isFormless (hs : s.Avoids) {n : Node} (h : n.isFormless = true) :
    statement s n.inFull = statement s n := by
  have hmentions := mentions_inFull hs n
  rw [inFull_eq_recast] at hmentions ⊢
  have h' := (isFormless_recast Callee.fullForms n).trans h
  rw [statement_of_isFormless h, statement_of_isFormless h', hmentions, statementKind_recast]

theorem statement_switch_inFull (hs : s.Avoids) {discriminant : Node} {cases : List Node}
    (ih : mentions s (.switchStatement discriminant cases) = true →
      cases.any (fun c => (caseFlow? (caseBody c)).isNone) = false →
      branchActions s (cases.map inFull) = branchActions s cases) :
    statement s (Node.switchStatement discriminant cases).inFull =
      statement s (.switchStatement discriminant cases) := by
  have hmentions := mentions_inFull hs (.switchStatement discriminant cases)
  have hflow : (cases.map inFull).any (fun c => (caseFlow? (caseBody c)).isNone) =
      cases.any fun c => (caseFlow? (caseBody c)).isNone := by
    simp [List.any_map, Function.comp_def, caseBody_inFull, caseFlow?_inFull]
  simp only [inFull, Node.inFullAll_eq_map] at hmentions
  simp only [inFull, Node.inFullAll_eq_map, statement, hmentions, hflow, switchAct_inFull]
  split
  · rfl
  · split
    · rfl
    · rw [ih (by simp_all) (by simp_all)]

theorem expression_inFull_of_isSearched {n : Node} (h : n.isSearched = true)
    (ih : plainActions s n.inFull = plainActions s n) : expression s n.inFull = expression s n := by
  rw [inFull_eq_recast] at ih ⊢
  have h' := isSearched_recast Callee.fullForms h
  rw [expression_of_isSearched h, expression_of_isSearched h', ih]

theorem walk_inFull_of_isPassed {n : Node} (h : n.isPassed = true)
    (ih : walkAll s (n.children.map inFull) = walkAll s n.children) : walk s n.inFull = walk s n := by
  have hcall (callee : Node) (arguments : List Node) (line : Nat) : n ≠ .call callee arguments line := by
    rintro rfl
    cases h
  have hparts := children_inFull_of_fields (Node.fields_inFull hcall)
  rw [inFull_eq_recast] at ih hparts ⊢
  have h' := (isPassed_recast Callee.fullForms n).trans h
  rw [walk_of_isPassed h, walk_of_isPassed h', hparts, ih]

theorem callActions_request_inFull {arguments : List Node} {line : Nat} {r : Request}
    (hr : Request.ofArguments arguments line s.props = .ok r)
    (hs : callback s "onSuccess" (r.onSuccess.map inFull) = callback s "onSuccess" r.onSuccess)
    (he : callback s "onError" (r.onError.map inFull) = callback s "onError" r.onError) :
    callActions s (.effect .api (some "request")) (arguments.map inFull) line =
      callActions s (.effect .api (some "request")) arguments line := by
  have hr' : Request.ofArguments (arguments.map inFull) line s.props = .ok r.inFull := by
    rw [Request.ofArguments_inFull, hr]
    rfl
  rw [callActions_of_request hr, callActions_of_request hr', Request.inFull, hs, he]

/-- What the walk and the analyses under it give in full, where no reserved name is bound. -/
def fullTraversal : Traversal where
  walk s n := s.Avoids → n.Avoids → walk s n.inFull = walk s n
  walkAll s ns := s.Avoids → AllAvoid ns → walkAll s (ns.map inFull) = walkAll s ns
  walkFunction s params body := s.Avoids → FunctionAvoids params body →
    walkFunction s (params.map inFull) body.inFull = walkFunction s params body
  walkAttributes s ns := s.Avoids → AllAvoid ns →
    walkAttributes s (ns.map inFull) = walkAttributes s ns
  walkAttribute s n := s.Avoids → n.Avoids → walkAttribute s n.inFull = walkAttribute s n
  handlerActions s params body := s.Avoids → FunctionAvoids params body →
    handlerActions s (params.map inFull) body.inFull = handlerActions s params body
  callActions s call arguments line := s.Avoids → AllAvoid arguments →
    callActions s call (arguments.map inFull) line = callActions s call arguments line
  callback s name n := s.Avoids → (∀ m ∈ n, m.Avoids) →
    callback s name (n.map inFull) = callback s name n
  functionActions s params body := s.Avoids → FunctionAvoids params body →
    functionActions s (params.map inFull) body.inFull = functionActions s params body
  statements s ns := s.Avoids → AllAvoid ns → statements s (ns.map inFull) = statements s ns
  statement s n := s.Avoids → n.Avoids → statement s n.inFull = statement s n
  alternative s n := s.Avoids → (∀ m ∈ n, m.Avoids) → alternative s (n.map inFull) = alternative s n
  initialisers s ns := s.Avoids → AllAvoid ns → initialisers s (ns.map inFull) = initialisers s ns
  branchActions s cases := s.Avoids → AllAvoid cases →
    branchActions s (cases.map inFull) = branchActions s cases
  expression s n := s.Avoids → n.Avoids → expression s n.inFull = expression s n
  plainActions s n := s.Avoids → n.Avoids → plainActions s n.inFull = plainActions s n

theorem inFull_ne_block {e : Node} (he : ∀ body, e ≠ .block body) (body : List Node) :
    e.inFull ≠ .block body := by
  intro hb
  obtain ⟨b, hb⟩ := Node.inFull_eq_block hb
  exact he b hb

theorem function?_inFull {n body : Node} {params : List Node}
    (h : n.function? = some (params, body)) :
    n.inFull.function? = some (params.map inFull, body.inFull) := by
  cases n with
  | arrow | function | functionDeclaration =>
    cases h
    simp [inFull, Node.function?]
  | _ => cases h

theorem fullTraversal_search : fullTraversal.Search where
  function hf ih hs hn := by
    rw [walk_of_function? hf, walk_of_function? (function?_inFull hf)]
    exact ih hs (hn.function? hf)
  block ih hs hn := by
    rw [inFull, Node.inFullAll_eq_map, walk, walk, Scope.hoist_inFull,
      ih (hs.child.hoist hn.fields) hn.fields]
  element ihattributes ihchildren hs hn := by
    obtain ⟨hattributes, hchildren⟩ := List.forall_mem_append.1 hn.fields
    rw [inFull, Node.inFullAll_eq_map, Node.inFullAll_eq_map, walk, walk, ihattributes hs hattributes,
      ihchildren hs hchildren]
  call hc ih hs hn := by
    have harguments := (List.forall_mem_cons.1 hn.fields).2
    rw [inFull, Node.inFullAll_eq_map, walk_of_classify hc, walk_of_classify, ih hs harguments]
    rwa [hs.classify_inFull]
  ordinary {s callee arguments line} hc ih hs hn := by
    have hparts := children_inFull hs (show s.isActionCall (.call callee arguments line) = false by
      simp [Scope.isActionCall, hc])
    rw [inFull] at hparts ⊢
    rw [walk_of_classify_eq_none hc, walk_of_classify_eq_none, hparts, ih hs hn.children]
    rwa [hs.classify_inFull]
  passed hn ih hs havoids := walk_inFull_of_isPassed hn (ih hs havoids.children)
  nil s hs hns := rfl
  cons ihn ihm hs hns := by
    obtain ⟨hn, hmore⟩ := List.forall_mem_cons.1 hns
    rw [List.map_cons, walkAll, walkAll, ihn hs hn, ihm hs hmore]
  body_block ih hs hf := by
    rw [inFull, Node.inFullAll_eq_map, walkFunction, walkFunction, Scope.function_inFull,
      Scope.hoist_inFull, ih ((hs.function hf.params).hoist hf.body.fields) hf.body.fields]
  body_expression he ih hs hf := by
    rw [walkFunction_of_expression he, walkFunction_of_expression (inFull_ne_block he),
      Scope.function_inFull, ih (hs.function hf.params) hf.body]
  attributes_nil s hs hns := rfl
  attributes_cons ihn ihm hs hns := by
    obtain ⟨hn, hmore⟩ := List.forall_mem_cons.1 hns
    rw [List.map_cons, walkAttributes, walkAttributes, ihn hs hn, ihm hs hmore]
  handler hf ih hs hn := by
    rw [walkAttribute_of_handler? hf, walkAttribute_of_handler?, ih hs (inherited_avoids.handler? hn hf)]
    rw [handler?_inFull, hf]
    rfl
  «attribute» hf ih hs hn := by
    rw [walkAttribute_of_none hf, walkAttribute_of_none, ih hs hn]
    rw [handler?_inFull, hf]
    rfl

theorem fullTraversal_calls : fullTraversal.Calls where
  silent arguments line hc hs ha := by simp only [callActions_of_isAction_eq_false hc]
  mutation s store method arguments line hs ha := by
    rw [callActions, callActions, (store_inFull store).1 s method arguments line hs ha]
  refused hr hs ha := by
    rw [callActions_of_refused hr, callActions_of_refused]
    rw [Request.ofArguments_inFull, hr]
    rfl
  request hr ihs ihe hs ha :=
    callActions_request_inFull hr (ihs hs (inherited_avoids.request ha hr).1)
      (ihe hs (inherited_avoids.request ha hr).2)
  unknown arguments line hm hs ha := by simp only [callActions, if_neg hm]
  effect method arguments line hspace hs ha := by
    rw [callActions, callActions, effectAct_inFull] <;> exact hspace
  missing s name hs hn := rfl
  callback {s n body params} name hf ih hs hn := by
    rw [Option.map_some, callback_of_functionOf? hf, callback_of_functionOf?,
      ih hs (inherited_avoids.functionOf? (hn n rfl) hf)]
    rw [functionOf?_inFull, hf]
    rfl
  other name hf hs hn := by
    rw [Option.map_some, callback_of_none hf, callback_of_none]
    rw [functionOf?_inFull, hf]
    rfl

theorem held?_inFull {n e : Node} (h : n.held? = some e) : n.inFull.held? = some e.inFull := by
  cases n with
  | parenthesized | assertion | container | await =>
    cases h
    simp [inFull, Node.held?]
  | _ => cases h

theorem fullTraversal_expressions : fullTraversal.Expressions where
  held hheld ih hs hn := by
    rw [expression_of_held? hheld, expression_of_held? (held?_inFull hheld), ih hs (inherited_avoids.held? hn hheld)]
  guarded {s operator left right} hop ih hs hn := by
    have hright := hn.fields right (by simp [Node.fields])
    simp only [inFull, expression, mentions_inFull hs, if_pos hop, ih hs hright, conditionalAct_inFull]
  unguarded hop ih hs hn := by
    have hplain := ih hs hn
    simp only [inFull] at hplain
    simp only [inFull, expression, mentions_inFull hs, if_neg hop, hplain]
  ternary {s test consequent alternate line} ht ihc iha hs hn := by
    have hconsequent := hn.fields consequent (by simp [Node.fields])
    have halternate := hn.fields alternate (by simp [Node.fields])
    simp only [inFull, Node.inFullAll_eq_map, List.map_cons, List.map_nil, expression,
      mentions_inFull hs, if_neg ht, ihc hs hconsequent, iha hs halternate, conditionalAct_inFull]
  active ht ih hs hn := by
    have hplain := ih hs hn
    simp only [inFull, Node.inFullAll_eq_map, List.map_cons, List.map_nil] at hplain
    simp only [inFull, Node.inFullAll_eq_map, List.map_cons, List.map_nil, expression,
      mentions_inFull hs, if_pos ht, hplain]
  searched hsearched ih hs hn := expression_inFull_of_isSearched hsearched (ih hs hn)
  nested hf hs hn := by simp only [plainActions, nestedFunction?_inFull hs hn, hf]
  plain hf ih hs hn := by simp only [plainActions, nestedFunction?_inFull hs hn, hf, ih hs hn]

theorem initialiser?_inFull (n : Node) : initialiser? n.inFull = (initialiser? n).map inFull := by
  cases n with
  | declarator target init => cases init <;> rfl
  | _ => rfl

theorem statement_if_inFull (hs : s.Avoids) {test consequent : Node} {alternate : Option Node}
    (hn : (Node.ifStatement test consequent alternate).Avoids)
    (hc : statement s consequent.inFull = statement s consequent)
    (ha : ∀ t : Scope, t.Avoids → (∀ m ∈ alternate, m.Avoids) →
      alternative t (alternate.map inFull) = alternative t alternate) :
    statement s (Node.ifStatement test consequent alternate).inFull =
      statement s (.ifStatement test consequent alternate) := by
  have hconsequent := hn.fields consequent (by simp [Node.fields])
  have halternate (m : Node) (hm : m ∈ alternate) : m.Avoids := by
    obtain rfl : alternate = some m := hm
    exact hn.fields m (by simp [Node.fields])
  simp only [inFull, Node.inFullOption_eq_map, statement, hc, conditionalAct_inFull]
  refine (ensures_behind s consequent).bind_congr fun x hx => ?_
  obtain ⟨first, t⟩ := x
  obtain rfl : t = s.behind consequent := hx
  simp only [ha _ (hs.behind hconsequent) halternate]

theorem fullTraversal_statements : fullTraversal.Statements where
  handler ih hs hf := by rw [handlerActions, handlerActions, ih hs hf]
  body_block ih hs hf := by
    rw [inFull, Node.inFullAll_eq_map, functionActions, functionActions, Scope.function_inFull,
      Scope.hoist_inFull, ih ((hs.function hf.params).hoist hf.body.fields) hf.body.fields]
  body_expression he ih hs hf := by
    rw [functionActions_of_expression he, functionActions_of_expression (inFull_ne_block he),
      Scope.function_inFull, ih (hs.function hf.params) hf.body]
  nil s hs hns := rfl
  cons {s n more} ihn ihm hs hns := by
    obtain ⟨hn, hmore⟩ := List.forall_mem_cons.1 hns
    rw [List.map_cons, statements, statements, ihn hs hn]
    refine (ensures_behind s n).bind_congr fun x hx => ?_
    obtain ⟨first, t⟩ := x
    obtain rfl : t = s.behind n := hx
    simp only [ihm _ (hs.behind hn) hmore]
  expression ih hs hn := by
    simp only [inFull, statement, ih hs (hn.fields _ List.mem_cons_self)]
  returned ih hs hn := by
    simp only [inFull, Node.inFullOption, statement, ih hs (hn.fields _ List.mem_cons_self)]
  bare_return s hs hn := rfl
  declaration {s kind declarators} ih hs hn := by
    have hhoist := s.hoistStatement_inFull (.variableDeclaration kind declarators)
    simp only [inFull, Node.inFullAll_eq_map] at hhoist
    simp only [inFull, Node.inFullAll_eq_map, statement, hhoist, ih (hs.hoistStatement hn) hn.fields]
  block ih hs hn := by
    simp only [inFull, Node.inFullAll_eq_map, statement, Scope.hoist_inFull,
      ih (hs.child.hoist hn.fields) hn.fields]
  choice {s test consequent alternate} ihc iha hs hn :=
    statement_if_inFull hs hn (ihc hs (hn.fields consequent (by simp [Node.fields]))) iha
  switch ih hs hn := statement_switch_inFull hs fun hm hx =>
    ih hm hx hs (List.forall_mem_cons.1 hn.fields).2
  leave s hs hn := rfl
  formless hformless hs hn := statement_inFull_of_isFormless hs hformless
  alternative_none s hs hn := rfl
  alternative_some ih hs hn := by rw [Option.map_some, alternative, alternative, ih hs (hn _ rfl)]
  initialisers_nil s hs hns := rfl
  initialiser {s n e more} he ihe ihm hs hns := by
    obtain ⟨hn, hmore⟩ := List.forall_mem_cons.1 hns
    have hfull : initialiser? n.inFull = some e.inFull := by
      rw [initialiser?_inFull, he]
      rfl
    rw [List.map_cons, initialisers_of_initialiser? he, initialisers_of_initialiser? hfull,
      ihe hs (inherited_avoids.initialiser? hn he), ihm hs hmore]
  uninitialised {s n more} hnone ih hs hns := by
    have hfull : initialiser? n.inFull = none := by
      rw [initialiser?_inFull, hnone]
      rfl
    rw [List.map_cons, initialisers_of_none hnone, initialisers_of_none hfull,
      ih hs (List.forall_mem_cons.1 hns).2]
  branches_nil s hs hc := rfl
  endless hr hs hc := by
    rw [List.map_cons, branchActions_of_none hr, branchActions_of_none]
    rw [← List.map_cons, caseRun?_inFull, hr]
    rfl
  branch {s c more run} hr ihf ihm hs hc := by
    have hfull : caseRun? (c.inFull :: more.map inFull) = some (run.map inFull) := by
      rw [← List.map_cons, caseRun?_inFull, hr]
      rfl
    have hrun := inherited_avoids.caseRun? hc hr
    rw [List.map_cons, branchActions_of_caseRun? hr, branchActions_of_caseRun? hfull,
      Scope.hoist_inFull, ihf (hs.child.hoist hrun) hrun, ihm hs (List.forall_mem_cons.1 hc).2]

/-- The actions under nodes in full are those under the nodes. -/
theorem walkAll_inFull (hs : s.Avoids) {ns : List Node} (hns : AllAvoid ns) :
    walkAll s (ns.map inFull) = walkAll s ns :=
  (Traversal.everywhere fullTraversal_search fullTraversal_calls fullTraversal_expressions
    fullTraversal_statements).walkAll s ns hs hns

theorem collectActions_inFull {body : List Node} (h : AllAvoid body) :
    collectActions (body.map inFull) = collectActions body := by
  have hscope : (Scope.module.hoist body).Avoids := Scope.avoids_module.hoist h
  rw [collectActions, collectActions, Scope.hoist_inFull, walkAll_inFull hscope h,
    declareAllStores_map fun c _ => declareStores_inFull c]

end Scenario

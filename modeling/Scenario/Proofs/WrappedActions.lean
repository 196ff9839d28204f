import Scenario.Proofs.Traversal
import Scenario.Proofs.WrappedParts

namespace Scenario

open Syntax Analysis
open Syntax.Node (bare)

variable {s : Scope}

@[simp] theorem conditionalAct_bare (v : Bool) (test : Node) (as bs : List Act) :
    conditionalAct s (test.bare v) as bs = conditionalAct s test as bs := by
  simp only [conditionalAct, TestContext.condition_bare (TestContext.seesThrough_tests s)]

theorem switchAct_bare (v : Bool) (discriminant : Node) (cases : List Node)
    (branches : List (List Act)) :
    switchAct s (discriminant.bare v) (cases.map (bare false)) branches =
      switchAct s discriminant cases branches := by
  have hoperand := TestContext.operand_bare (TestContext.seesThrough_tests s)
  simp only [switchAct, List.mapM_map, hoperand]
  refine bind_congr fun d => ?_
  congr 2
  funext c
  simp only [Function.comp, caseTest_bare]
  cases caseTest c with
  | none => rfl
  | some test => simp only [Option.map_some, hoperand]

@[simp] theorem effectAct_bare (space : Namespace) (method : Option String) (arguments : List Node)
    (line : Nat) :
    effectAct s space method (arguments.map (bare true)) line =
      effectAct s space method arguments line := by
  simp only [effectAct, effectPayload_bare]

theorem keyPath_bare (call : String) (line : Nat) (arguments : List Node) :
    keyPath call line (arguments.map (bare true)) = keyPath call line arguments := by
  cases arguments <;> simp [keyPath]

theorem mutationAct_bare (kind : ActionKind) (store : Store) (call : String) (arguments : List Node)
    (line : Nat) :
    mutationAct s kind store call (arguments.map (bare true)) line =
      mutationAct s kind store call arguments line := by
  unfold mutationAct
  rw [keyPath_bare]
  refine bind_congr fun path => ?_
  match arguments with
  | [] => rfl
  | [a] => rfl
  | [a, value] => simp
  | a :: b :: c :: more => rfl

theorem ofReading_map {α β : Type} (f : α → β) (x : Reading α) :
    ofReading (f <$> x) = f <$> ofReading x := by
  cases x <;> rfl

theorem mutationOn?_bare_eq_none {proxy : String} {n : Node} (h : mutationOn? proxy n = none) :
    mutationOn? proxy (n.bare false) = none := by
  rw [mutationOn?_bare, h]
  rfl

def bareStoreTraversal (store : Store) : StoreTraversal where
  storeAction s method arguments line := storeAction s store method (arguments.map (bare true)) line =
    storeAction s store method arguments line
  transactionActions s proxy line ns := transactionActions s store proxy line (ns.map (bare false)) =
    transactionActions s store proxy line ns

theorem steps_bareStoreTraversal (store : Store) : (bareStoreTraversal store).Steps store where
  unnamed s arguments line := by
    simp only [bareStoreTraversal, storeAction]
  unknown arguments line hm := by
    simp only [bareStoreTraversal, storeAction, hm]
  mutation {s method kind} arguments line hk ht := by
    simp only [bareStoreTraversal]
    rw [storeAction_of_mutation hk ht, storeAction_of_mutation hk ht, plainArguments_bare,
      ofReading_map, bind_map_left]
    exact bind_congr fun _ => mutationAct_bare kind store _ arguments line
  transaction {s arguments line} ih := by
    simp only [bareStoreTraversal]
    rw [storeAction_of_transaction rfl, storeAction_of_transaction rfl, plainArguments_bare,
      ofReading_map, bind_map_left, Transaction.ofArguments_bare]
    refine bind_congr fun _ => ?_
    cases hr : Transaction.ofArguments arguments line with
    | error r => rfl
    | ok t =>
      have hinner : _ = _ := ih t hr
      change (transactionActions ((s.function t.bare.params).bind t.bare.proxy (some store)) store
        t.bare.proxy line t.bare.statements >>= _) = (transactionActions _ store _ line _ >>= _)
      rw [Transaction.bare, Scope.function_bare, hinner]
  nil s proxy line := rfl
  change {s proxy line n more c} hc ihc ihm := by
    have hc' : mutationOn? proxy (n.bare false) = some c.bare := by
      rw [mutationOn?_bare, hc]
      rfl
    simp only [bareStoreTraversal] at ihc ihm ⊢
    rw [List.map_cons, transactionActions_of_mutation hc', transactionActions_of_mutation hc, ihm]
    change (storeAction s store c.method (c.arguments.map (bare true)) c.line >>= _) = _
    rw [ihc]
  foreign hn hm := by
    simp only [bareStoreTraversal]
    rw [List.map_cons, transactionActions_of_none (mutationOn?_bare_eq_none hn),
      transactionActions_of_none hn, mentions_bare, if_pos hm, if_pos hm]
  quiet hn hm ih := by
    simp only [bareStoreTraversal] at ih ⊢
    rw [List.map_cons, transactionActions_of_none (mutationOn?_bare_eq_none hn),
      transactionActions_of_none hn, mentions_bare, if_neg hm, if_neg hm, ih]

/-- The analyses of a store's calls and of a transaction's statements, without wrappers. -/
theorem store_bare (store : Store) :
    (∀ s method arguments line, storeAction s store method (arguments.map (bare true)) line =
      storeAction s store method arguments line) ∧
    ∀ s proxy line ns, transactionActions s store proxy line (ns.map (bare false)) =
      transactionActions s store proxy line ns :=
  (steps_bareStoreTraversal store).everywhere

theorem isPassed_bare (n : Node) : (n.bare false).isPassed = n.isPassed := by
  cases n <;> rfl

theorem walkAll_singleton (s : Scope) (n : Node) : walkAll s [n] = walk s n := by
  simp [walkAll]

theorem walk_bare_of_isPassed {n : Node} (h : n.isPassed = true)
    (ih : ∀ ms, Bared n.children ms → walkAll s ms = walkAll s n.children) (v : Bool) :
    walk s (n.bare v) = walk s n := by
  rw [walk_of_isPassed h]
  rcases n.bare_cases v with ⟨e, hw, hv⟩ | hv
  · have hparts := ih [e.bare true] (hw.children ▸ bared_singleton true e)
    rw [hv, ← hparts, walkAll_singleton]
  · have h' := (isPassed_bare n).trans h
    rw [hv, walk_of_isPassed h', ih _ (bared_children n)]

theorem isSearched_bare {n : Node} (h : n.isSearched = true) (v : Bool) :
    (n.bare v).isSearched = true := by
  cases n with
  | unsupported kind parts line =>
    by_cases hk : kind = "ternary_expression"
    · subst hk
      match parts with
      | [] | [_] | [_, _] | _ :: _ :: _ :: _ :: _ => simp [bare, Node.isSearched]
      | [_, _, _] => cases h
    · simp [bare, Node.isSearched, hk]
  | parenthesized | assertion | container | await | binary => cases h
  | _ => rfl

theorem isFormless_bare (n : Node) : (n.bare false).isFormless = n.isFormless := by
  cases n with
  | returnStatement argument => cases argument <;> rfl
  | _ => rfl

theorem statementKind_bare (n : Node) : statementKind (n.bare false) = statementKind n := by
  cases n <;> rfl

theorem statement_bare_of_isFormless {n : Node} (h : n.isFormless = true) :
    statement s (n.bare false) = statement s n := by
  have h' := (isFormless_bare n).trans h
  rw [statement_of_isFormless h, statement_of_isFormless h', mentions_bare, statementKind_bare]

theorem callActions_request_bare {arguments : List Node} {line : Nat} {r : Request}
    (hr : Request.ofArguments arguments line s.props = .ok r)
    (hs : callback s "onSuccess" (r.onSuccess.map (bare true)) = callback s "onSuccess" r.onSuccess)
    (he : callback s "onError" (r.onError.map (bare true)) = callback s "onError" r.onError) :
    callActions s (.effect .api (some "request")) (arguments.map (bare true)) line =
      callActions s (.effect .api (some "request")) arguments line := by
  have hr' : Request.ofArguments (arguments.map (bare true)) line s.props = .ok r.bare := by
    rw [Request.ofArguments_bare, hr]
    rfl
  rw [callActions_of_request hr, callActions_of_request hr', Request.bare, hs, he]

theorem statement_switch_bare {discriminant : Node} {cases : List Node}
    (ih : mentions s (.switchStatement discriminant cases) = true →
      cases.any (fun c => (caseFlow? (caseBody c)).isNone) = false →
      branchActions s (cases.map (bare false)) = branchActions s cases) :
    statement s ((Node.switchStatement discriminant cases).bare false) =
      statement s (.switchStatement discriminant cases) := by
  have hmentions := mentions_bare s false (.switchStatement discriminant cases)
  have hflow : (cases.map (bare false)).any (fun c => (caseFlow? (caseBody c)).isNone) =
      cases.any fun c => (caseFlow? (caseBody c)).isNone := by
    simp [List.any_map, Function.comp_def, caseBody_bare, caseFlow?_bare]
  simp only [bare, Node.bareAll_eq_map] at hmentions
  simp only [bare, Node.bareAll_eq_map, statement, hmentions, hflow, switchAct_bare]
  split
  · rfl
  · split
    · rfl
    · rw [ih (by simp_all) (by simp_all)]

/-- What the walk and the analyses under it give without wrappers. -/
def bareTraversal : Traversal where
  walk s n := ∀ v, walk s (n.bare v) = walk s n
  walkAll s ns := ∀ ms, Bared ns ms → walkAll s ms = walkAll s ns
  walkFunction s params body :=
    walkFunction s (params.map (bare false)) (body.bare true) = walkFunction s params body
  walkAttributes s ns := walkAttributes s (ns.map (bare false)) = walkAttributes s ns
  walkAttribute s n := walkAttribute s (n.bare false) = walkAttribute s n
  handlerActions s params body :=
    handlerActions s (params.map (bare false)) (body.bare true) = handlerActions s params body
  callActions s call arguments line :=
    callActions s call (arguments.map (bare true)) line = callActions s call arguments line
  callback s name n := callback s name (n.map (bare true)) = callback s name n
  functionActions s params body :=
    functionActions s (params.map (bare false)) (body.bare true) = functionActions s params body
  statements s ns := statements s (ns.map (bare false)) = statements s ns
  statement s n := statement s (n.bare false) = statement s n
  alternative s n := alternative s (n.map (bare false)) = alternative s n
  initialisers s ns := initialisers s (ns.map (bare false)) = initialisers s ns
  branchActions s cases := branchActions s (cases.map (bare false)) = branchActions s cases
  expression s n := ∀ v, expression s (n.bare v) = expression s n
  plainActions s n := ∀ v, plainActions s (n.bare v) = plainActions s n

theorem bare_ne_block {e : Node} (he : ∀ body, e ≠ .block body) (body : List Node) :
    e.bare true ≠ .block body := by
  intro hb
  obtain ⟨b, hb⟩ := Node.bare_eq_block hb
  exact he b hb

theorem function?_bare {n body : Node} {params : List Node} (h : n.function? = some (params, body))
    (v : Bool) : (n.bare v).function? = some (params.map (bare false), body.bare true) := by
  cases n with
  | arrow | function | functionDeclaration =>
    cases h
    simp [bare, Node.function?]
  | _ => cases h

theorem bareTraversal_search : bareTraversal.Search where
  function {s n body params} hf ih v := by
    rw [walk_of_function? hf, walk_of_function? (function?_bare hf v)]
    exact ih
  block ih v := by rw [bare, Node.bareAll_eq_map, walk, walk, Scope.hoist_bare, ih _ (bared_map _ _)]
  element ihattributes ihchildren v := by
    rw [bare, Node.bareAll_eq_map, Node.bareAll_eq_map, walk, walk, ihattributes,
      ihchildren _ (bared_map _ _)]
  call {s callee arguments line call} hc ih v := by
    rw [bare, Node.bareAll_eq_map, walk_of_classify hc, walk_of_classify, ih]
    rwa [Scope.classify_bare]
  ordinary {s callee arguments line} hc ih v := by
    have hparts := ih _ (bared_children (.call callee arguments line))
    rw [bare] at hparts ⊢
    rw [walk_of_classify_eq_none hc, walk_of_classify_eq_none, hparts]
    rwa [Scope.classify_bare]
  passed hn ih v := walk_bare_of_isPassed hn ih v
  nil s ms hms := by
    cases hms
    rfl
  cons ihn ihm ms hms := by
    obtain - | ⟨⟨v, rfl⟩, hrest⟩ := hms
    rw [walkAll, walkAll, ihn v, ihm _ hrest]
  body_block ih := by
    change _ = _
    rw [bare, Node.bareAll_eq_map, walkFunction, walkFunction, Scope.function_bare, Scope.hoist_bare,
      ih _ (bared_map _ _)]
  body_expression he ih := by
    change _ = _
    rw [walkFunction_of_expression he, walkFunction_of_expression (bare_ne_block he),
      Scope.function_bare, ih]
  attributes_nil s := rfl
  attributes_cons ihn ihm := by
    change _ = _
    rw [List.map_cons, walkAttributes, walkAttributes, ihn, ihm]
  handler hn ih := by
    change _ = _
    rw [walkAttribute_of_handler? hn, walkAttribute_of_handler?, ih]
    rw [handler?_bare, hn]
    rfl
  «attribute» hn ih := by
    change _ = _
    rw [walkAttribute_of_none hn, walkAttribute_of_none, ih]
    rw [handler?_bare, hn]
    rfl

theorem bareTraversal_calls : bareTraversal.Calls where
  silent arguments line hc := by
    simp only [bareTraversal, callActions_of_isAction_eq_false hc]
  mutation s store method arguments line := by
    simp only [bareTraversal, callActions, (store_bare store).1 _ _ _ _]
  refused hr := by
    change _ = _
    rw [callActions_of_refused hr, callActions_of_refused]
    rw [Request.ofArguments_bare, hr]
    rfl
  request hr ihs ihe := callActions_request_bare hr ihs ihe
  unknown arguments line hm := by
    simp only [bareTraversal, callActions, if_neg hm]
  effect method arguments line hs := by
    change _ = _
    rw [callActions, callActions, effectAct_bare] <;> exact hs
  missing s name := rfl
  callback name hf ih := by
    change _ = _
    rw [Option.map_some, callback_of_functionOf? hf, callback_of_functionOf?, ih]
    rw [functionOf?_bare, hf]
    rfl
  other name hf := by
    change _ = _
    rw [Option.map_some, callback_of_none hf, callback_of_none]
    rw [functionOf?_bare, hf]
    rfl

/-- Without its wrapper an expression is the one in it, or it holds that one without wrappers. -/
theorem expression_bare_of_held? {n e : Node} (h : n.held? = some e)
    (ih : ∀ v, expression s (e.bare v) = expression s e) (v : Bool) :
    expression s (n.bare v) = expression s n := by
  rw [expression_of_held? h]
  cases n with
  | parenthesized | assertion =>
    cases h
    rw [bare]
    split <;> simp only [expression, ih]
  | container | await =>
    cases h
    simp only [bare, expression, ih]
  | _ => cases h

theorem bareTraversal_expressions : bareTraversal.Expressions where
  held hn ih v := expression_bare_of_held? hn ih v
  guarded hop ih v := by
    simp only [bare, expression, mentions_bare, if_pos hop, ih _, conditionalAct_bare]
  unguarded hop ih v := by
    have hplain := ih v
    simp only [bare] at hplain
    simp only [bare, expression, mentions_bare, if_neg hop, hplain]
  ternary ht ihc iha v := by
    simp only [bare, Node.bareAll_eq_map, List.map_cons, List.map_nil, expression, mentions_bare,
      if_neg ht, ihc _, iha _, conditionalAct_bare]
  active ht ih v := by
    have hplain := ih v
    simp only [bare, Node.bareAll_eq_map, List.map_cons, List.map_nil] at hplain
    simp only [bare, Node.bareAll_eq_map, List.map_cons, List.map_nil, expression, mentions_bare,
      if_pos ht, hplain]
  searched hn ih v := by
    rw [expression_of_isSearched hn, expression_of_isSearched (isSearched_bare hn v), ih]
  nested hn v := by simp only [plainActions, nestedFunction?_bare, hn]
  plain hn ih v := by simp only [plainActions, nestedFunction?_bare, hn, ih _]

theorem initialiser?_bare (n : Node) :
    initialiser? (n.bare false) = (initialiser? n).map (bare true) := by
  cases n with
  | declarator target init => cases init <;> rfl
  | _ => rfl

theorem bareTraversal_statements : bareTraversal.Statements where
  handler ih := by
    change _ = _
    rw [handlerActions, handlerActions, ih]
  body_block ih := by
    change _ = _
    rw [bare, Node.bareAll_eq_map, functionActions, functionActions, Scope.function_bare,
      Scope.hoist_bare, ih]
  body_expression he ih := by
    change _ = _
    rw [functionActions_of_expression he, functionActions_of_expression (bare_ne_block he),
      Scope.function_bare, ih]
  nil s := rfl
  cons ihn ihm := by
    simp only [bareTraversal] at ihn ihm
    simp only [bareTraversal, List.map_cons, statements, ihn, ihm]
  expression ih := by simp only [bareTraversal, bare, statement, ih _]
  returned ih := by simp only [bareTraversal, bare, Node.bareOption, statement, ih _]
  bare_return s := rfl
  declaration {s kind declarators} ih := by
    have hhoist := s.hoistStatement_bare (.variableDeclaration kind declarators)
    simp only [bare, Node.bareAll_eq_map] at hhoist
    simp only [bareTraversal] at ih
    simp only [bareTraversal, bare, Node.bareAll_eq_map, statement, hhoist, ih]
  block ih := by
    simp only [bareTraversal] at ih
    simp only [bareTraversal, bare, Node.bareAll_eq_map, statement, Scope.hoist_bare, ih]
  choice ihc iha := by
    simp only [bareTraversal] at ihc iha
    simp only [bareTraversal, bare, Node.bareOption_eq_map, statement, ihc, iha, conditionalAct_bare]
  switch ih := statement_switch_bare ih
  leave s := rfl
  formless hn := statement_bare_of_isFormless hn
  alternative_none s := rfl
  alternative_some ih := by
    change _ = _
    rw [Option.map_some, alternative, alternative, ih]
  initialisers_nil s := rfl
  initialiser {s n e more} hn ihe ihm := by
    have hbare : initialiser? (n.bare false) = some (e.bare true) := by
      rw [initialiser?_bare, hn]
      rfl
    change _ = _
    rw [List.map_cons, initialisers_of_initialiser? hn, initialisers_of_initialiser? hbare, ihe, ihm]
  uninitialised {s n more} hn ih := by
    have hbare : initialiser? (n.bare false) = none := by
      rw [initialiser?_bare, hn]
      rfl
    change _ = _
    rw [List.map_cons, initialisers_of_none hn, initialisers_of_none hbare, ih]
  branches_nil s := rfl
  endless hr := by
    change _ = _
    rw [List.map_cons, branchActions_of_none hr, branchActions_of_none]
    rw [← List.map_cons, caseRun?_bare, hr]
    rfl
  branch {s c more run} hr ihf ihm := by
    have hbare : caseRun? (bare false c :: more.map (bare false)) = some (run.map (bare false)) := by
      rw [← List.map_cons, caseRun?_bare, hr]
      rfl
    change _ = _
    rw [List.map_cons, branchActions_of_caseRun? hr, branchActions_of_caseRun? hbare,
      Scope.hoist_bare, ihf, ihm]

/-- The actions under nodes are those under the same nodes without wrappers. -/
theorem walkAll_of_bared {ns ms : List Node} (hb : Bared ns ms) (s : Scope) :
    walkAll s ms = walkAll s ns :=
  (Traversal.everywhere bareTraversal_search bareTraversal_calls bareTraversal_expressions
    bareTraversal_statements).walkAll s ns ms hb

theorem collectActions_bare (body : List Node) :
    collectActions (body.map (bare false)) = collectActions body := by
  rw [collectActions, collectActions, Scope.hoist_bare, walkAll_of_bared (bared_map false body),
    (bared_map false body).declareAllStores fun c _ v => declareStores_bare v c]

end Scenario

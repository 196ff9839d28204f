import Scenario.Proofs.Templates

namespace Scenario

open Syntax Analysis Template
open Syntax.Node (recast)

/-- What is left open in templates is left open at the given places or inside them. -/
def Sourced (ps : List Place) (ts : List Template) : Prop :=
  FoundAt Place.LeavesOpen ps (openingsAll ts)

namespace Sourced

variable {p : Place} {ps qs : List Place} {t : Template} {ts us : List Template}

theorem nil (ps : List Place) : Sourced ps [] := FoundAt.nil ps

theorem append (ht : Sourced ps ts) (hu : Sourced qs us) : Sourced (ps ++ qs) (ts ++ us) := by
  rw [Sourced, openingsAll_append]
  exact FoundAt.append ht hu

theorem both (ht : Sourced ps ts) (hu : Sourced ps us) : Sourced ps (ts ++ us) := by
  rw [Sourced, openingsAll_append]
  exact FoundAt.both ht hu

theorem mono (h : ∀ p ∈ ps, p ∈ qs) (ht : Sourced ps ts) : Sourced qs ts := FoundAt.mono h ht

theorem flatten {tss : List (List Template)} (h : ∀ ts ∈ tss, Sourced ps ts) :
    Sourced ps tss.flatten := by
  rw [Sourced, openingsAll_flatten]
  exact FoundAt.flatMap h

theorem enter (h : ∀ q ∈ ps, q ∈ p.inner) (ht : Sourced ps ts) : Sourced [p] ts := FoundAt.enter h ht

/-- An action has open what the actions have open that it is made of. -/
theorem of_openings_eq (h : openings t = openingsAll ts) (ht : Sourced ps ts) : Sourced ps [t] := by
  rwa [Sourced, openingsAll_cons, h, openingsAll_nil, List.append_nil]

theorem of_openings_eq_nil (h : openings t = []) : Sourced ps [t] :=
  of_openings_eq (h.trans openingsAll_nil.symm) (nil ps)

theorem of_leavesOpen (h : ∀ u ∈ openings t, p.LeavesOpen u) : Sourced [p] [t] := by
  intro u hu
  rw [openingsAll_cons, openingsAll_nil, List.append_nil] at hu
  exact ⟨p, List.mem_singleton_self p, p, .refl, h u hu⟩

end Sourced

/-- For all replacements alike, a step gives what templates give that are left open at the places. -/
abbrev Collect.Fills (ps : List Place) (m : Replacement → Collect (List Act)) : Prop :=
  Collect.Uniform fills (Sourced ps) m

namespace Analysis

/-- For all replacements alike, an analysis gives what templates give that are left open at the
places. -/
abbrev Fills (ps : List Place) (m : Replacement → Analysis (List Act)) : Prop :=
  Uniform fills (Sourced ps) m

abbrev FillsOne (ps : List Place) (m : Replacement → Analysis Act) : Prop :=
  Uniform fill (fun t => Sourced ps [t]) m

/-- The same with the scope behind a statement. -/
abbrev FillsIn (ps : List Place) (t : Scope) (m : Replacement → Analysis (List Act × Scope)) : Prop :=
  Uniform fillsIn (fun x => Sourced ps x.1 ∧ x.2 = t) m

end Analysis

section Lists

variable {p : Place} {ps qs : List Place} {t : Scope}

theorem Collect.fills_nil (ps : List Place) : Collect.Fills ps fun _ => pure [] :=
  Collect.uniform_pure (g := fills) (t := []) (.nil ps)

theorem Collect.Uniform.append {m k : Replacement → Collect (List Act)} (hm : Collect.Fills ps m)
    (hk : Collect.Fills qs k) :
    Collect.Fills (ps ++ qs) fun f => do
      let as ← m f
      let bs ← k f
      return as ++ bs := by
  refine hm.bind fun ts hts => hk.bind fun us hus => ?_
  simpa [fills] using Collect.uniform_pure (g := fills) (hts.append hus)

theorem Collect.Uniform.enter {m : Replacement → Collect (List Act)} (hm : Collect.Fills ps m)
    (h : ∀ q ∈ ps, q ∈ p.inner) : Collect.Fills [p] m :=
  hm.imp fun _ ht => ht.enter h

namespace Analysis

theorem fills_nil (ps : List Place) : Fills ps fun _ => pure [] :=
  uniform_pure (g := fills) (t := []) (.nil ps)

theorem fillsIn_nil (ps : List Place) (t : Scope) : FillsIn ps t fun _ => pure ([], t) :=
  uniform_pure (g := fillsIn) (t := ([], t)) ⟨.nil ps, rfl⟩

theorem Uniform.orReport {m : Replacement → Analysis (List Act)} (h : Fills ps m) :
    Collect.Fills ps fun f => (m f).orReport := by
  intro p
  obtain ⟨r, q, h⟩ | ⟨ts, q, hts, h⟩ := h p
  · refine ⟨[], ((Collect.reportRefused r).outcome q).2, .nil ps, fun f => ?_⟩
    rw [outcome_orReport, h f]
    rfl
  · refine ⟨ts, q, hts, fun f => ?_⟩
    rw [outcome_orReport, h f]

theorem Uniform.append {m k : Replacement → Analysis (List Act)} (hm : Fills ps m)
    (hk : Fills qs k) :
    Fills (ps ++ qs) fun f => do
      let as ← m f
      return as ++ (← k f) := by
  refine hm.bind fun ts hts => hk.bind fun us hus => ?_
  simpa [fills] using uniform_pure (g := fills) (hts.append hus)

theorem Uniform.enter {m : Replacement → Analysis (List Act)} (hm : Fills ps m)
    (h : ∀ q ∈ ps, q ∈ p.inner) : Fills [p] m :=
  hm.imp fun _ ht => ht.enter h

theorem Uniform.one {m : Replacement → Analysis Act} (h : FillsOne ps m) :
    Fills ps fun f => do return [← m f] :=
  h.bind fun t ht => uniform_pure (g := fills) (t := [t]) ht

/-- Actions that leave the scope as it was. -/
theorem Uniform.inScope {m : Replacement → Analysis (List Act)} (h : Fills ps m)
    (hps : ∀ q ∈ ps, q ∈ p.inner) : FillsIn [p] t fun f => do return (← m f, t) :=
  h.bind fun ts hts => uniform_pure (g := fillsIn) (t := (ts, t)) ⟨hts.enter hps, rfl⟩

end Analysis

end Lists

variable {s : Scope} {ps : List Place} {ts us : List Template}

theorem fillsOne_conditionalAct (test : Node) (hts : Sourced ps ts) (hus : Sourced ps us) :
    FillsOne ps fun f => conditionalAct s (test.recast f.toRecall) (fills f ts) (fills f us) := by
  simp only [fun f : Replacement => conditionalAct_recast (s := s) f.lawful_toRecall test]
  intro p
  simp only [outcome_conditionalAct]
  cases s.tests.condition test with
  | error r => exact .inl ⟨r, p, fun _ => rfl⟩
  | ok c =>
    have hchoice := (uniform_choice c.toValue ts us).imp fun t ht =>
      Sourced.of_openings_eq ht (hts.both hus)
    exact uniform_lift hchoice p

theorem fillsOne_switchAct (discriminant : Node) (cases : List Node) {bs : List (List Template)}
    (hbs : ∀ ts ∈ bs, Sourced ps ts) :
    FillsOne ps fun f => switchAct s (discriminant.recast f.toRecall)
      (cases.map (recast f.toRecall)) (bs.map (fills f)) := by
  simp only [fun f : Replacement => switchAct_recast (s := s) f.lawful_toRecall discriminant cases]
  intro p
  simp only [outcome_switchAct]
  cases s.tests.operandValue discriminant with
  | error r => exact .inl ⟨r, p, fun _ => rfl⟩
  | ok d =>
    cases cases.mapM s.tests.caseValue with
    | error r => exact .inl ⟨r, p, fun _ => rfl⟩
    | ok tests =>
      have hselection := (uniform_selection d tests bs).imp fun t ht =>
        Sourced.of_openings_eq ht (.flatten hbs)
      exact uniform_lift hselection p

theorem fillsOne_effectAct (ps : List Place) (space : Namespace) (method : Option String)
    (arguments : List Node) (line : Nat) :
    FillsOne ps fun f => effectAct s space method (f.arguments method arguments) line := by
  cases hm : isValueMethod method with
  | true =>
    obtain rfl | rfl : method = some "set" ∨ method = some "merge" := by simpa [isValueMethod] using hm
    · cases space <;> exact uniform_throw _
    · cases space <;> exact uniform_throw _
  | false =>
    simp only [fun f : Replacement => f.arguments_of_isValueMethod_eq_false hm, effectAct_recast]
    unfold effectAct
    dsimp only
    split
    · refine (uniform_ofReading _).bind fun payload _ => uniform_lift ?_
      exact (uniform_leaf fun p => rfl).imp fun t ht => .of_openings_eq_nil ht
    · exact uniform_throw _

theorem fillsOne_mutationAct {kind : ActionKind} {method : String} (store : Store) (call : String)
    (arguments : List Node) (line : Nat) (hk : storeMethod? method = some kind)
    (ht : kind ≠ .storeTransaction) :
    FillsOne [.call s (.mutation store (some method)) arguments line] fun f =>
      mutationAct s kind store call (f.arguments (some method) arguments) line := by
  obtain h | ⟨key, value, rfl, hm, hv, h⟩ := Replacement.arguments_cases (some method) arguments
  · simp only [h, mutationAct_recast]
    obtain ⟨r, hr⟩ | ⟨path, value, -, hm⟩ := outcome_mutationAct s store call arguments line hk ht
    · exact fun p => .inl ⟨r, p, fun _ => hr p⟩
    · rw [hm]
      exact uniform_lift ((uniform_leaf fun p => rfl).imp fun t ht => .of_openings_eq_nil ht)
  · have hremove : kind ≠ .storeRemove := by
      rintro rfl
      obtain rfl | rfl : method = "set" ∨ method = "merge" := by simpa [isValueMethod] using hm
      · cases hk
      · cases hk
    simp only [h, mutationAct, keyPath, Node.staticString?_recast, if_neg hremove]
    refine (uniform_ofReading _).bind fun path hpath => uniform_lift ?_
    have hpath : key.staticString? = some path := by
      cases hkey : key.staticString? with
      | none => simp [hkey, refuse] at hpath
      | some other => simpa [hkey] using hpath
    exact (uniform_mutation line hm hk hpath hv).imp fun t ht => .of_leavesOpen ht

theorem bind_plainArguments {α : Type} (f : Replacement) (call : String) (method : Option String)
    (arguments : List Node) (line : Nat) (m : Analysis α) :
    (do let _ ← ofReading (plainArguments call (f.arguments method arguments) line); m) =
      (do let _ ← ofReading (plainArguments call arguments line); m) := by
  have hany : (f.arguments method arguments).any isSpread = arguments.any isSpread := by
    obtain h | ⟨key, value, rfl, -, hv, h⟩ := Replacement.arguments_cases method arguments
    · simp [h, List.any_map, Function.comp_def]
    · simp [h, Node.isSpread_of_isValue hv, Node.isSpread_of_isValue (f.isValue_apply hv)]
  unfold plainArguments
  rw [hany]
  split <;> rfl

theorem fillsOne_storeAction_transaction {store : Store} {arguments : List Node} {line : Nat}
    (ih : ∀ t, Transaction.ofArguments arguments line = .ok t →
      Fills ((t.statements.filterMap (mutationOn? t.proxy)).map fun c =>
          .call ((s.function t.params).bind t.proxy (some store)) (.mutation store c.method) c.arguments
            c.line) fun f =>
        transactionActions ((s.function t.params).bind t.proxy (some store)) store t.proxy line
          (t.statements.map (recast f.toRecall))) :
    FillsOne [.call s (.mutation store (some "transaction")) arguments line] fun f =>
      storeAction s store (some "transaction") (f.arguments (some "transaction") arguments) line := by
  have hk : storeMethod? "transaction" = some .storeTransaction := rfl
  simp only [storeAction_of_transaction hk, bind_plainArguments]
  simp only [fun f : Replacement => f.arguments_of_isValueMethod_eq_false
    (show isValueMethod (some "transaction") = false from rfl), Transaction.ofArguments_recast]
  refine (uniform_ofReading _).bind fun _ _ => ?_
  cases hr : Transaction.ofArguments arguments line with
  | error r => exact uniform_throw r
  | ok t =>
    change FillsOne _ fun f => transactionActions
      ((s.function (t.params.map (recast f.toRecall))).bind t.proxy (some store)) store t.proxy line
        (t.statements.map (recast f.toRecall)) >>= _
    simp only [Scope.function_recast]
    refine (ih t hr).bind fun ts hts => ?_
    cases ts with
    | nil => exact uniform_throw _
    | cons u us =>
      refine uniform_lift ((uniform_transaction store (u :: us)).imp fun v hv => ?_)
      refine .of_openings_eq hv (hts.enter fun q hq => ?_)
      simpa only [Place.inner, Place.insideCall, hr] using hq

theorem mutationOn?_recall_eq_none {proxy : String} {n : Node} (h : mutationOn? proxy n = none)
    (f : Replacement) : mutationOn? proxy (n.recast f.toRecall) = none := by
  rw [mutationOn?_recall, h]
  rfl

def fillStoreTraversal (store : Store) : StoreTraversal where
  storeAction s method arguments line :=
    FillsOne [.call s (.mutation store method) arguments line] fun f =>
      storeAction s store method (f.arguments method arguments) line
  transactionActions s proxy line ns :=
    Fills ((ns.filterMap (mutationOn? proxy)).map fun c =>
        .call s (.mutation store c.method) c.arguments c.line) fun f =>
      transactionActions s store proxy line (ns.map (recast f.toRecall))

theorem steps_fillStoreTraversal (store : Store) : (fillStoreTraversal store).Steps store where
  unnamed s arguments line := by
    simp only [fillStoreTraversal, storeAction]
    exact uniform_throw _
  unknown arguments line hm := by
    simp only [fillStoreTraversal, storeAction, hm]
    exact uniform_throw _
  mutation arguments line hk ht := by
    simp only [fillStoreTraversal, storeAction_of_mutation hk ht, bind_plainArguments]
    refine (uniform_ofReading _).bind fun _ _ => ?_
    exact fillsOne_mutationAct store _ arguments line hk ht
  transaction ih := fillsOne_storeAction_transaction ih
  nil s proxy line := by
    simp only [fillStoreTraversal, List.map_nil, transactionActions]
    exact fills_nil _
  change {s proxy line n more c} hc ihc ihm := by
    have hc' (f : Replacement) :
        mutationOn? proxy (n.recast f.toRecall) = some (c.revalue f) := by
      rw [mutationOn?_recall, hc]
      rfl
    simp only [fillStoreTraversal, List.filterMap_cons_some hc]
    refine Uniform.of_eq ?_ fun f => transactionActions_of_mutation (hc' f)
    refine ihc.bind fun t ht => ihm.bind fun ts hts => ?_
    exact uniform_pure (g := fills) (t := t :: ts) (ht.append hts)
  foreign hn hm := by
    refine Uniform.of_eq ?_ fun f => transactionActions_of_none (mutationOn?_recall_eq_none hn f)
    simp only [mentions_recall, if_pos hm]
    exact uniform_throw _
  quiet hn hm ih := by
    simp only [fillStoreTraversal, List.filterMap_cons_none hn]
    refine Uniform.of_eq ?_ fun f => transactionActions_of_none (mutationOn?_recall_eq_none hn f)
    simp only [mentions_recall, if_neg hm]
    exact ih

/-- The analyses of a store's calls and of a transaction's statements. -/
theorem fills_store (store : Store) :
    (∀ s method arguments line, FillsOne [.call s (.mutation store method) arguments line] fun f =>
      storeAction s store method (f.arguments method arguments) line) ∧
    ∀ s proxy line (ns : List Node),
      Fills ((ns.filterMap (mutationOn? proxy)).map fun c =>
          .call s (.mutation store c.method) c.arguments c.line) fun f =>
        transactionActions s store proxy line (ns.map (recast f.toRecall)) :=
  (steps_fillStoreTraversal store).everywhere

/-- The method that a call is classified by. -/
def Call.method? : Call → Option String
  | .declaration => none
  | .read _ => some "get"
  | .mutation _ method => method
  | .effect _ method => method

theorem method?_of_classifyMethod {receiver : Node} {method : Option String} {call : Call}
    (h : s.classifyMethod receiver method = some call) : call.method? = method := by
  unfold Scope.classifyMethod at h
  split at h
  · cases h
    split
    · rename_i hget
      exact hget.symm
    · rfl
  · split at h
    · split at h
      · cases h
      · obtain ⟨space, -, rfl⟩ := Option.map_eq_some_iff.1 h
        rfl
    · cases h

/-- Which value of a call is replaced depends on what the call is. -/
theorem arguments_of_classify {callee : Node} {call : Call} (h : s.classify callee = some call)
    (f : Replacement) (arguments : List Node) :
    f.arguments (Callee.methodName? callee) arguments = f.arguments call.method? arguments := by
  unfold Scope.classify at h
  split at h
  · rename_i hfactory
    cases h
    rw [Callee.methodName?_of_isStoreFactory hfactory]
    rfl
  · split at h
    · rename_i name hname
      have hnone : Callee.methodName? callee = none := by
        rw [Callee.methodName?, Callee.method?_of_identifier? hname]
        rfl
      split at h
      · cases h
      · obtain ⟨⟨space, method⟩, hshort, rfl⟩ := Option.map_eq_some_iff.1 h
        have hmethod : isValueMethod (some method) = false := by
          have hstore := (methods_of_mem_shortMethods method (mem_shortMethods hshort)).1
          by_contra hm
          obtain rfl | rfl : method = "set" ∨ method = "merge" := by
            simpa [isValueMethod, or_iff_not_imp_left] using hm
          · cases hstore
          · cases hstore
        rw [hnone, f.arguments_of_isValueMethod_eq_false rfl]
        exact (f.arguments_of_isValueMethod_eq_false hmethod arguments).symm
    · obtain ⟨⟨receiver, method⟩, hm, hc⟩ := Option.bind_eq_some_iff.1 h
      have hname : Callee.methodName? callee = method := by
        rw [Callee.methodName?, hm]
        rfl
      rw [hname, method?_of_classifyMethod hc]

theorem walkAll_of_follows {f : Replacement} {ns ms : List Node} (h : List.Forall₂ f.Follows ns ms) :
    walkAll s ms = walkAll s (ns.map (recast f.toRecall)) := by
  induction h with
  | nil => rfl
  | cons hn _ ih =>
    rw [List.map_cons, walkAll, walkAll, ih]
    obtain rfl | ⟨hv, hw⟩ := hn
    · rfl
    · have hv := Node.isPassive_of_isValue hv
      rw [Node.recast_of_isPassive _ hv, walk_of_isPassive s hv,
        walk_of_isPassive s (Node.isPassive_of_isValue hw)]

theorem fills_walk_of_isPassed {n : Node} (h : n.isPassed = true)
    (ih : Collect.Fills (n.children.map (.node s)) fun f =>
      walkAll s (n.children.map (recast f.toRecall))) :
    Collect.Fills [.node s n] fun f => walk s (n.recast f.toRecall) := by
  refine (ih.enter fun q hq => by rwa [Place.inner_of_isPassed h]).of_eq fun f => ?_
  have h' := (isPassed_recast f.toRecall n).trans h
  rw [walk_of_isPassed h', walkAll_of_follows (f.follows_children n)]

theorem fills_request {arguments : List Node} {line : Nat} {r : Request}
    (hr : Request.ofArguments arguments line s.props = .ok r)
    (hs : FillsOne (Place.ofCallback s r.onSuccess) fun f =>
      callback s "onSuccess" (r.onSuccess.map (recast f.toRecall)))
    (he : FillsOne (Place.ofCallback s r.onError) fun f =>
      callback s "onError" (r.onError.map (recast f.toRecall))) :
    Fills [.call s (.effect .api (some "request")) arguments line] fun f =>
      callActions s (.effect .api (some "request")) (f.arguments (some "request") arguments) line := by
  have hr' (f : Replacement) :
      Request.ofArguments (f.arguments (some "request") arguments) line s.props =
        .ok (r.recast f.toRecall) := by
    rw [f.arguments_of_isValueMethod_eq_false rfl, Request.ofArguments_recast, hr]
    rfl
  refine Uniform.of_eq ?_ fun f => callActions_of_request (hr' f)
  refine hs.bind fun t ht => he.bind fun u hu => ?_
  refine (Uniform.one (uniform_lift ((uniform_request r.payload t u).imp fun v hv => ?_)))
  refine .of_openings_eq hv ((ht.append hu).enter fun q hq => ?_)
  rw [Place.ofCallback, Place.ofCallback, ← List.filterMap_append] at hq
  simpa only [Place.inner, Place.insideCall, hr] using hq

theorem fillsOne_callback {name : String} {n body : Node} {params : List Node}
    (hf : functionOf? n = some (params, body))
    (ih : Fills [.function s params body] fun f =>
      functionActions s (params.map (recast f.toRecall)) (body.recast f.toRecall)) :
    FillsOne (Place.ofCallback s (some n)) fun f =>
      callback s name ((some n).map (recast f.toRecall)) := by
  have hplace : Place.ofCallback s (some n) = [.function s params body] := by
    simp [Place.ofCallback, hf]
  have hf' (f : Replacement) : functionOf? (n.recast f.toRecall) =
      some (params.map (recast f.toRecall), body.recast f.toRecall) := by
    rw [functionOf?_recast, hf]
    rfl
  rw [hplace]
  refine Uniform.of_eq ?_ fun f => callback_of_functionOf? (hf' f)
  refine ih.bind fun ts hts => uniform_lift ((uniform_sequence ts).imp fun t ht => ?_)
  exact .of_openings_eq ht hts

/-- A choice between two lists of actions, or nothing for none. -/
theorem fills_chosen (test : Node) (hts : Sourced ps ts) (hus : Sourced ps us) :
    Fills ps fun f => if (fills f ts).isEmpty && (fills f us).isEmpty then return []
      else return [← conditionalAct s (test.recast f.toRecall) (fills f ts) (fills f us)] := by
  simp only [fills, List.isEmpty_map]
  split
  · exact fills_nil ps
  · exact (fillsOne_conditionalAct test hts hus).one

theorem fills_expression_guarded {operator : String} {left right : Node}
    (hop : (operator = "&&" ∨ operator = "||") ∧ (!mentions s left) = true)
    (ih : Fills [.expression s right] fun f => expression s (right.recast f.toRecall)) :
    Fills [.expression s (.binary operator left right)] fun f =>
      expression s ((Node.binary operator left right).recast f.toRecall) := by
  simp only [recast, expression, mentions_recall, if_pos hop]
  refine ih.bind fun ts hts => ?_
  have hinside : Sourced [.expression s (.binary operator left right)] ts :=
    hts.enter fun q hq => by rwa [Place.inner_of_guarded hop]
  cases ts with
  | nil => exact fills_nil _
  | cons t more =>
    dsimp only [fills, List.map_cons]
    split
    · exact (fillsOne_conditionalAct left (.nil _) hinside).one
    · exact (fillsOne_conditionalAct left hinside (.nil _)).one

theorem fills_expression_ternary {test consequent alternate : Node} {line : Nat}
    (ht : ¬mentions s test = true)
    (hc : Fills [.expression s consequent] fun f => expression s (consequent.recast f.toRecall))
    (ha : Fills [.expression s alternate] fun f => expression s (alternate.recast f.toRecall)) :
    let n := Node.unsupported "ternary_expression" [test, consequent, alternate] line
    Fills [.expression s n] fun f => expression s (n.recast f.toRecall) := by
  intro n
  have hinner : (Place.expression s n).inner = [.expression s consequent, .expression s alternate] :=
    Place.inner_of_ternary ht
  simp only [n, recast, Node.recastAll_eq_map, List.map_cons, List.map_nil, expression,
    mentions_recall, if_neg ht]
  refine hc.bind fun ts hts => ha.bind fun us hus => fills_chosen test ?_ ?_
  · exact hts.enter fun q hq => by
      rw [hinner, List.mem_singleton.1 hq]
      exact List.mem_cons_self
  · exact hus.enter fun q hq => by
      rw [hinner, List.mem_singleton.1 hq]
      exact List.mem_cons_of_mem _ (List.mem_singleton_self _)

theorem fillsIn_if {test consequent : Node} {alternate : Option Node}
    (hc : FillsIn [.statement s consequent] (s.behind consequent) fun f =>
      statement s (consequent.recast f.toRecall))
    (ha : ∀ t, FillsIn (alternate.toList.map (.statement t)) (t.behindOption alternate) fun f =>
      alternative t (alternate.map (recast f.toRecall))) :
    let n := Node.ifStatement test consequent alternate
    FillsIn [.statement s n] (s.behind n) fun f => statement s (n.recast f.toRecall) := by
  intro n
  simp only [n, recast, Node.recastOption_eq_map, statement]
  refine hc.bind fun x hx => ?_
  obtain ⟨ts, t⟩ := x
  obtain ⟨hts, ht⟩ := hx
  obtain rfl : t = s.behind consequent := ht
  refine (ha (s.behind consequent)).bind fun y hy => ?_
  obtain ⟨us, u⟩ := y
  obtain ⟨hus, hu⟩ := hy
  rw [← Scope.behind_ifStatement s test] at hu
  obtain rfl : u = s.behind n := hu
  have hfirst : Sourced [.statement s n] ts :=
    hts.enter fun q hq => by
      rw [List.mem_singleton.1 hq]
      exact List.mem_cons_self
  have hsecond : Sourced [.statement s n] us := hus.enter fun q hq => List.mem_cons_of_mem _ hq
  simp only [fillsIn, fills, List.isEmpty_map]
  split
  · exact fillsIn_nil _ _
  · refine (fillsOne_conditionalAct test hfirst hsecond).bind fun v hv => ?_
    exact uniform_pure (g := fillsIn) (t := ([v], s.behind n)) ⟨hv, rfl⟩

/-- The places of the clauses of a switch: what runs from each of them on. -/
abbrev Place.ofCases (s : Scope) (cases : List Node) : List Place :=
  (cases.tails.filterMap caseRun?).flatMap fun run => Place.inOrder (s.child.hoist run) run

theorem fillsIn_switch {discriminant : Node} {cases : List Node}
    (ih : mentions s (.switchStatement discriminant cases) = true →
      cases.any (fun c => (caseFlow? (caseBody c)).isNone) = false →
      Uniform (fun f bs => List.map (fills f) bs) (fun bs => ∀ ts ∈ bs, Sourced (Place.ofCases s cases) ts)
        fun f => branchActions s (cases.map (recast f.toRecall))) :
    let n := Node.switchStatement discriminant cases
    FillsIn [.statement s n] (s.behind n) fun f => statement s (n.recast f.toRecall) := by
  intro n
  have hbehind : s.behind n = s := by
    rw [Scope.behind] <;> simp [n]
  have hstatement (f : Replacement) : statement s (n.recast f.toRecall) =
      if !mentions s n then return ([], s)
      else if cases.any fun c => (caseFlow? (caseBody c)).isNone then throw ⟨.conditionalExit, none⟩
      else do
        let branches ← branchActions s (cases.map (recast f.toRecall))
        return ([← switchAct s (discriminant.recast f.toRecall) (cases.map (recast f.toRecall)) branches],
          s) := by
    have hmentions := mentions_recall (f := f) s n
    have hflow : (cases.map (recast f.toRecall)).any (fun c => (caseFlow? (caseBody c)).isNone) =
        cases.any fun c => (caseFlow? (caseBody c)).isNone := by
      simp [List.any_map, Function.comp_def, caseBody_recast, caseFlow?_recast]
    simp only [n, recast, Node.recastAll_eq_map] at hmentions
    simp only [n, recast, Node.recastAll_eq_map, statement, hmentions, hflow]
  rw [hbehind]
  refine Uniform.of_eq ?_ hstatement
  split
  · exact fillsIn_nil _ _
  · rename_i hm
    have hm : mentions s n = true := by simpa using hm
    split
    · exact uniform_throw _
    · rename_i hflow
      refine (ih hm (by simpa using hflow)).bind fun bs hbs => ?_
      have hinside (ts : List Template) (hts : ts ∈ bs) : Sourced [.statement s n] ts :=
        (hbs ts hts).enter fun q hq => by rwa [Place.inner_of_switch hm]
      refine (fillsOne_switchAct discriminant cases hinside).bind fun t ht => ?_
      exact uniform_pure (g := fillsIn) (t := ([t], s)) ⟨ht, rfl⟩

theorem fillsIn_of_isFormless {n : Node} (h : n.isFormless = true) :
    FillsIn [.statement s n] (s.behind n) fun f => statement s (n.recast f.toRecall) := by
  rw [Scope.behind_of_isFormless h]
  have hself : FillsIn [.statement s n] s fun _ => statement s n := by
    rw [statement_of_isFormless h]
    split
    · exact uniform_throw _
    · exact fillsIn_nil _ _
  refine hself.of_eq fun f => ?_
  have h' := (isFormless_recast f.toRecall n).trans h
  rw [statement_of_isFormless h, statement_of_isFormless h', mentions_recall, statementKind_recast]

/-- What each function that goes through a program gives, for all replacements alike. -/
def fillTraversal : Traversal where
  walk s n := Collect.Fills [.node s n] fun f => walk s (n.recast f.toRecall)
  walkAll s ns := Collect.Fills (ns.map (.node s)) fun f => walkAll s (ns.map (recast f.toRecall))
  walkFunction s params body := Collect.Fills (Place.ofBody (s.function params) body) fun f =>
    walkFunction s (params.map (recast f.toRecall)) (body.recast f.toRecall)
  walkAttributes s ns := Collect.Fills (ns.map (.ofAttribute s)) fun f =>
    walkAttributes s (ns.map (recast f.toRecall))
  walkAttribute s n := Collect.Fills [.ofAttribute s n] fun f => walkAttribute s (n.recast f.toRecall)
  handlerActions s params body := Fills [.function s params body] fun f =>
    handlerActions s (params.map (recast f.toRecall)) (body.recast f.toRecall)
  callActions s call arguments line := Fills [.call s call arguments line] fun f =>
    callActions s call (f.arguments call.method? arguments) line
  callback s name n := FillsOne (Place.ofCallback s n) fun f =>
    callback s name (n.map (recast f.toRecall))
  functionActions s params body := Fills [.function s params body] fun f =>
    functionActions s (params.map (recast f.toRecall)) (body.recast f.toRecall)
  statements s ns := Fills (Place.inOrder s ns) fun f => statements s (ns.map (recast f.toRecall))
  statement s n := FillsIn [.statement s n] (s.behind n) fun f => statement s (n.recast f.toRecall)
  alternative s n := FillsIn (n.toList.map (.statement s)) (s.behindOption n) fun f =>
    alternative s (n.map (recast f.toRecall))
  initialisers s ns := Fills ((ns.filterMap initialiser?).map (.expression s)) fun f =>
    initialisers s (ns.map (recast f.toRecall))
  branchActions s cases :=
    Uniform (fun f bs => List.map (fills f) bs) (fun bs => ∀ ts ∈ bs, Sourced (Place.ofCases s cases) ts)
      fun f => branchActions s (cases.map (recast f.toRecall))
  expression s n := Fills [.expression s n] fun f => expression s (n.recast f.toRecall)
  plainActions s n := Fills [.node s n] fun f => plainActions s (n.recast f.toRecall)

theorem recast_ne_block {e : Node} (he : ∀ body, e ≠ .block body) (k : Recall) (body : List Node) :
    e.recast k ≠ .block body := by
  intro hb
  obtain ⟨b, hb⟩ := Node.recast_eq_block k hb
  exact he b hb

theorem function?_recast {n body : Node} {params : List Node} (h : n.function? = some (params, body))
    (k : Recall) : (n.recast k).function? = some (params.map (recast k), body.recast k) := by
  cases n with
  | arrow | function | functionDeclaration =>
    cases h
    simp [recast, Node.function?]
  | _ => cases h

theorem held?_recast {n e : Node} (h : n.held? = some e) (k : Recall) :
    (n.recast k).held? = some (e.recast k) := by
  cases n with
  | parenthesized | assertion | container | await =>
    cases h
    simp [recast, Node.held?]
  | _ => cases h

theorem initialiser?_recast (k : Recall) (n : Node) :
    initialiser? (n.recast k) = (initialiser? n).map (recast k) := by
  cases n with
  | declarator target init => cases init <;> simp [recast, Node.recastOption, initialiser?]
  | _ => simp [recast, initialiser?]

theorem fillTraversal_search : fillTraversal.Search where
  function hf ih := by
    refine (ih.enter fun q hq => by rwa [Place.inner_of_function? hf]).of_eq fun f => ?_
    exact walk_of_function? (function?_recast hf f.toRecall)
  block {s body} ih := by
    refine (ih.enter (p := .node s (.block body)) fun q hq => hq).of_eq fun f => ?_
    rw [recast, Node.recastAll_eq_map, walk, Scope.hoist_recast f.lawful_toRecall]
  element {s name attributes children line} ihattributes ihchildren := by
    simp only [fillTraversal, recast, Node.recastAll_eq_map, walk]
    exact (ihattributes.append ihchildren).enter fun q hq => hq
  call {s callee arguments line call} hc ih := by
    refine (ih.orReport.enter fun q hq => by rwa [Place.inner_of_classify hc]).of_eq fun f => ?_
    rw [f.recast_call, walk, s.classify_recall, hc, arguments_of_classify hc]
  ordinary {s callee arguments line} hc ih := by
    refine (ih.enter fun q hq => by rwa [Place.inner_of_classify_eq_none hc]).of_eq fun f => ?_
    have hparts := f.follows_children (.call callee arguments line)
    rw [f.recast_call] at hparts ⊢
    rw [walk, s.classify_recall, hc]
    exact walkAll_of_follows hparts
  passed hn ih := fills_walk_of_isPassed hn ih
  nil s := by
    simp only [fillTraversal, List.map_nil, walkAll]
    exact Collect.fills_nil _
  cons ihn ihm := by
    simp only [fillTraversal, List.map_cons, walkAll]
    exact ihn.append ihm
  body_block ih := by
    refine ih.of_eq fun f => ?_
    rw [recast, Node.recastAll_eq_map, walkFunction, Scope.function_recast,
      Scope.hoist_recast f.lawful_toRecall]
  body_expression he ih := by
    simp only [fillTraversal, Place.ofBody_of_expression he]
    refine ih.of_eq fun f => ?_
    rw [walkFunction_of_expression (recast_ne_block he _), Scope.function_recast]
  attributes_nil s := by
    simp only [fillTraversal, List.map_nil, walkAttributes]
    exact Collect.fills_nil _
  attributes_cons ihn ihm := by
    simp only [fillTraversal, List.map_cons, walkAttributes]
    exact ihn.append ihm
  handler hf ih := by
    simp only [fillTraversal, Place.ofAttribute, hf]
    refine ih.orReport.of_eq fun f => walkAttribute_of_handler? ?_
    rw [handler?_recast, hf]
    rfl
  «attribute» hf ih := by
    simp only [fillTraversal, Place.ofAttribute, hf]
    refine ih.of_eq fun f => walkAttribute_of_none ?_
    rw [handler?_recast, hf]
    rfl

theorem fillTraversal_calls : fillTraversal.Calls where
  silent arguments line hc := by
    simp only [fillTraversal, callActions_of_isAction_eq_false hc]
    exact fills_nil _
  mutation s store method arguments line := by
    simp only [fillTraversal, callActions]
    exact ((fills_store store).1 s method arguments line).one
  refused {s arguments line r} hr := by
    refine Uniform.of_eq (uniform_throw r) fun f => callActions_of_refused ?_
    rw [f.arguments_of_isValueMethod_eq_false (by rfl), Request.ofArguments_recast, hr]
    rfl
  request hr ihs ihe := fills_request hr ihs ihe
  unknown arguments line hm := by
    simp only [fillTraversal, callActions, if_neg hm]
    exact uniform_throw _
  effect {s space} method arguments line hspace := by
    simp only [fillTraversal, callActions]
    exact (fillsOne_effectAct _ space method arguments line).one
  missing s name := by
    simp only [fillTraversal, Option.map_none, callback]
    exact uniform_lift ((uniform_sequence []).imp fun t ht => .of_openings_eq ht (.nil _))
  callback name hf ih := fillsOne_callback hf ih
  other name hf := by
    refine Uniform.of_eq (uniform_throw _) fun f => callback_of_none ?_
    rw [functionOf?_recast, hf]
    rfl

theorem fillTraversal_expressions : fillTraversal.Expressions where
  held hn ih := by
    refine (ih.enter fun q hq => by rwa [Place.inner_of_held? hn]).of_eq fun f => ?_
    exact expression_of_held? (held?_recast hn f.toRecall)
  guarded hop ih := fills_expression_guarded hop ih
  unguarded hop ih := by
    refine (ih.enter fun q hq => by rwa [Place.inner_of_unguarded hop]).of_eq fun f => ?_
    simp only [recast, expression, mentions_recall, if_neg hop]
  ternary ht ihc iha := fills_expression_ternary ht ihc iha
  active ht ih := by
    refine (ih.enter fun q hq => by rwa [Place.inner_of_active ht]).of_eq fun f => ?_
    simp only [recast, Node.recastAll_eq_map, List.map_cons, List.map_nil, expression,
      mentions_recall, if_pos ht]
  searched hn ih := by
    refine (ih.enter fun q hq => by rwa [Place.inner_of_isSearched hn]).of_eq fun f => ?_
    exact expression_of_isSearched (isSearched_recast f.toRecall hn)
  nested hf := by
    simp only [fillTraversal, plainActions, nestedFunction?_recall, hf]
    exact uniform_throw _
  plain hf ih := by
    simp only [fillTraversal, plainActions, nestedFunction?_recall, hf]
    exact uniform_lift ih

theorem fillTraversal_statements : fillTraversal.Statements where
  handler ih := by
    simp only [fillTraversal, handlerActions]
    refine ih.bind fun ts hts => ?_
    cases ts with
    | nil => exact fills_nil _
    | cons t more =>
      have hsingle := (uniform_single (t :: more)).imp fun u hu => Sourced.of_openings_eq hu hts
      exact Uniform.one (uniform_lift hsingle)
  body_block {s params body} ih := by
    refine (ih.enter (p := .function s params (.block body)) fun q hq => hq).of_eq fun f => ?_
    rw [recast, Node.recastAll_eq_map, functionActions, Scope.function_recast,
      Scope.hoist_recast f.lawful_toRecall]
  body_expression he ih := by
    refine (ih.enter fun q hq => by rwa [Place.inner_function_of_expression he]).of_eq fun f => ?_
    rw [functionActions_of_expression (recast_ne_block he _), Scope.function_recast]
  nil s := by
    simp only [fillTraversal, List.map_nil, statements]
    exact fills_nil _
  cons {s n more} ihn ihm := by
    simp only [fillTraversal, List.map_cons, statements]
    refine ihn.bind fun x hx => ?_
    obtain ⟨ts, t⟩ := x
    obtain ⟨hts, ht⟩ := hx
    obtain rfl : t = s.behind n := ht
    exact Uniform.append (uniform_pure (g := fills) hts) (ihm (s.behind n))
  expression {s e} ih := by
    simp only [fillTraversal, recast, statement]
    exact ih.inScope fun q hq => hq
  returned {s e} ih := by
    simp only [fillTraversal, recast, Node.recastOption, statement]
    exact ih.inScope fun q hq => hq
  bare_return s := by
    simp only [fillTraversal, recast, Node.recastOption, statement]
    exact fillsIn_nil _ _
  declaration {s kind declarators} ih := by
    refine (ih.inScope (p := .statement s (.variableDeclaration kind declarators)) fun q hq => hq).of_eq
      fun f => ?_
    have hhoist := s.hoistStatement_recast f.lawful_toRecall (.variableDeclaration kind declarators)
    simp only [recast, Node.recastAll_eq_map] at hhoist
    simp only [recast, Node.recastAll_eq_map, statement, hhoist, Scope.behind]
  block {s body} ih := by
    refine (ih.inScope (p := .statement s (.block body)) (t := s) fun q hq => hq).of_eq fun f => ?_
    simp only [recast, Node.recastAll_eq_map, statement, Scope.hoist_recast f.lawful_toRecall]
  choice ihc iha := fillsIn_if ihc iha
  switch ih := fillsIn_switch ih
  leave s := by
    simp only [fillTraversal, recast, statement]
    exact fillsIn_nil _ _
  formless hn := fillsIn_of_isFormless hn
  alternative_none s := by
    simp only [fillTraversal, Option.map_none, alternative]
    exact fillsIn_nil _ _
  alternative_some ih := by
    simp only [fillTraversal, Option.map_some, alternative]
    exact ih
  initialisers_nil s := by
    simp only [fillTraversal, List.map_nil, initialisers]
    exact fills_nil _
  initialiser {s n e more} hn ihe ihm := by
    have hn' (f : Replacement) :
        initialiser? (n.recast f.toRecall) = some (e.recast f.toRecall) := by
      rw [initialiser?_recast, hn]
      rfl
    simp only [fillTraversal, List.filterMap_cons_some hn]
    exact (ihe.append ihm).of_eq fun f => initialisers_of_initialiser? (hn' f)
  uninitialised {s n more} hn ih := by
    have hn' (f : Replacement) : initialiser? (n.recast f.toRecall) = none := by
      rw [initialiser?_recast, hn]
      rfl
    simp only [fillTraversal, List.filterMap_cons_none hn]
    exact Uniform.of_eq ih fun f => initialisers_of_none (hn' f)
  branches_nil s := by
    simp only [fillTraversal, List.map_nil, branchActions]
    exact uniform_pure (g := fun f bs => List.map (fills f) bs) (t := []) (by simp)
  endless hr := by
    refine Uniform.of_eq (uniform_throw _) fun f => branchActions_of_none ?_
    rw [← List.map_cons, caseRun?_recast, hr]
    rfl
  branch {s c more run} hr ihf ihm := by
    have hrun (f : Replacement) : caseRun? (c.recast f.toRecall :: more.map (recast f.toRecall)) =
        some (run.map (recast f.toRecall)) := by
      rw [← List.map_cons, caseRun?_recast, hr]
      rfl
    have hplaces : Place.ofCases s (c :: more) =
        Place.inOrder (s.child.hoist run) run ++ Place.ofCases s more := by
      rw [Place.ofCases, List.tails, List.filterMap_cons_some hr, List.flatMap_cons]
    simp only [fillTraversal, hplaces]
    refine Uniform.of_eq ?_ fun f => branchActions_of_caseRun? (hrun f)
    refine (ihf.of_eq fun f => by rw [Scope.hoist_recast f.lawful_toRecall]).bind fun ts hts => ?_
    refine ihm.bind fun bs hbs => ?_
    refine uniform_pure (g := fun f bs => List.map (fills f) bs) (t := ts :: bs) ?_
    refine List.forall_mem_cons.2 ⟨?_, fun us hus => ?_⟩
    · exact hts.mono fun q hq => List.mem_append_left _ hq
    · exact (hbs us hus).mono fun q hq => List.mem_append_right _ hq

/-- The actions under nodes come from the same templates, whatever the values in them are. -/
theorem fills_walkAll (s : Scope) (ns : List Node) :
    Collect.Fills (ns.map (.node s)) fun f => walkAll s (ns.map (recast f.toRecall)) :=
  (Traversal.everywhere fillTraversal_search fillTraversal_calls fillTraversal_expressions
    fillTraversal_statements).walkAll s ns

/-- The actions of a program come from the same templates, whatever its values are. -/
theorem fills_collectActions (body : List Node) :
    Collect.Fills (body.map (.node (Scope.module.hoist body))) fun f =>
      collectActions (body.map (Node.revalue f)) := by
  have hstores (f : Replacement) :
      declareAllStores (body.map (Node.revalue f)) = declareAllStores body :=
    declareAllStores_map fun c _ => declareStores_recall c
  have hscope (f : Replacement) :
      Scope.module.hoist (body.map (Node.revalue f)) = Scope.module.hoist body :=
    Scope.hoist_recast f.lawful_toRecall _ body
  simp only [collectActions, hstores, hscope]
  intro p
  obtain ⟨ts, q, hts, h⟩ := fills_walkAll (Scope.module.hoist body) body
    ((declareAllStores body).outcome p).2
  refine ⟨ts, q, hts, fun f => ?_⟩
  rw [Collect.outcome_bind]
  exact h f

/-- An extraction with other actions. -/
def Extraction.withActions (e : Extraction) (actions : List Act) : Extraction :=
  { e with parts := { e.parts with actions } }

/-- For all values, what is extracted is the same but for the places of values in the actions; and these
are left open at calls of the program. -/
theorem exists_extract_revalue (options : Options) (body : List Node) :
    ∃ (e : Extraction) (templates : List Template),
      Sourced (body.map (.node (Scope.module.hoist body))) templates ∧
      ∀ f : Replacement, extract options (body.map (Node.revalue f)) =
        e.withActions (fills f templates) := by
  obtain ⟨templates, q, hts, h⟩ := fills_collectActions body {}
  have hrun (f : Replacement) :
      (collectActions (body.map (Node.revalue f))).run {} = (fills f templates, q) := h f
  have hmetadata (f : Replacement) :
      Metadata.ofProgram (body.map (Node.revalue f)) = Metadata.ofProgram body :=
    Metadata.ofProgram_recast f.toRecall body
  have hrendered (f : Replacement) :
      Rendered.ofProgram options (body.map (Node.revalue f)) = Rendered.ofProgram options body :=
    Rendered.ofProgram_recast f.toRecall options body
  refine ⟨extract options (body.map (Node.revalue ⟨id, id⟩)), templates, hts, fun f => ?_⟩
  simp only [extract, Extraction.withActions, hmetadata, hrendered, hrun]

end Scenario

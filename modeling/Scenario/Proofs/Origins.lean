import Scenario.Proofs.Gathering
import Scenario.Proofs.Identity

namespace Scenario

open Syntax Analysis Scenario.Action

namespace Action

variable {ι : Type}

/-- The values of an action and of all actions in it. -/
def values (a : Action ι) : List Value := a.occurrences.flatMap (·.value.toList)

def valuesAll (as : List (Action ι)) : List Value := (occurrencesAll as).flatMap (·.value.toList)

@[simp] theorem valuesAll_nil : valuesAll ([] : List (Action ι)) = [] := by simp [valuesAll]

@[simp] theorem valuesAll_cons (a : Action ι) (as : List (Action ι)) :
    valuesAll (a :: as) = a.values ++ valuesAll as := by
  simp [valuesAll, values]

@[simp] theorem valuesAll_append (as bs : List (Action ι)) :
    valuesAll (as ++ bs) = valuesAll as ++ valuesAll bs := by
  simp [valuesAll]

theorem valuesAll_flatten (ass : List (List (Action ι))) :
    valuesAll ass.flatten = ass.flatMap valuesAll := by
  rw [valuesAll, occurrencesAll_flatten, List.flatMap_assoc]
  rfl

theorem values_of_unset {a : Action ι} (h : a.actions = .unset) : a.values = a.value.toList := by
  rw [values, occurrences_of_unset h, List.flatMap_singleton]

theorem values_of_set {a : Action ι} {as : List (Action ι)} (h : a.actions = .set as) :
    a.values = a.value.toList ++ valuesAll as := by
  rw [values, occurrences_of_set h, List.flatMap_cons, valuesAll]

end Action

namespace Act

variable (p : Progress)

@[simp] theorem values_sequence (as : List Act) :
    ((sequence as).outcome p).1.values = valuesAll as :=
  values_of_set rfl

theorem values_transaction (store : Store) (as : List Act) :
    ((transaction store as).outcome p).1.values = valuesAll as :=
  values_of_set rfl

theorem values_request (payload : Fields Value) (onSuccess onError : Act) :
    ((request payload onSuccess onError).outcome p).1.values =
      .object payload :: valuesAll [onSuccess, onError] :=
  values_of_set rfl

@[simp] theorem values_single (as : List Act) :
    ((single as).outcome p).1.values = valuesAll as := by
  match as with
  | [] => exact values_sequence p []
  | [a] => simp [single]
  | a :: b :: more => exact values_sequence p (a :: b :: more)

theorem values_choice (c : Value) (as bs : List Act) :
    ((choice c as bs).outcome p).1.values =
      .object [("condition", c)] :: (valuesAll as ++ valuesAll bs) := by
  cases bs with
  | nil =>
    have hset : ((choice c as []).outcome p).1.actions = .set [((single as).outcome p).1] := rfl
    rw [values_of_set hset, valuesAll_cons, values_single]
    rfl
  | cons b more =>
    have hset : ((choice c as (b :: more)).outcome p).1.actions = .set [((single as).outcome p).1,
      ((single (b :: more)).outcome ((single as).outcome p).2).1] := rfl
    rw [values_of_set hset, valuesAll_cons, values_single, valuesAll_cons, values_single,
      valuesAll_nil, List.append_nil]
    rfl

theorem valuesAll_branches (branches : List (List Act)) :
    valuesAll ((branches.mapM single).outcome p).1 = branches.flatMap valuesAll := by
  induction branches generalizing p with
  | nil => rfl
  | cons as more ih =>
    rw [List.mapM_cons, Collect.outcome_bind, Collect.outcome_bind, Collect.outcome_pure]
    simp only [valuesAll_cons, values_single, ih, List.flatMap_cons]

theorem values_selection (d : Value) (tests : List Value) (branches : List (List Act)) :
    ((selection d tests branches).outcome p).1.values =
      .object [("discriminant", d), ("cases", .list tests)] :: branches.flatMap valuesAll := by
  have hset : ((selection d tests branches).outcome p).1.actions =
      .set ((branches.mapM single).outcome p).1 := rfl
  rw [values_of_set hset, valuesAll_branches]
  rfl

end Act

section Ensures

variable {α β : Type}

/-- Whatever the step gives has a property. -/
def Collect.Ensures (m : Collect α) (P : α → Prop) : Prop := ∀ p, P (m.outcome p).1

/-- Whatever the analysis gives has a property. -/
def Analysis.Ensures (m : Analysis α) (P : α → Prop) : Prop :=
  ∀ p q a, m.outcome p = (.ok a, q) → P a

variable {P : α → Prop} {Q : β → Prop}

theorem Collect.ensures_pure {a : α} (h : P a) : (pure a : Collect α).Ensures P := fun _ => h

theorem Collect.Ensures.bind {m : Collect α} {f : α → Collect β} (hm : m.Ensures P)
    (hf : ∀ a, P a → (f a).Ensures Q) : (m >>= f).Ensures Q :=
  fun p => hf _ (hm p) _

namespace Analysis

theorem ensures_pure {a : α} (h : P a) : (pure a : Analysis α).Ensures P := by
  intro p q b ho
  cases ho
  exact h

theorem ensures_throw (r : Refused) : (throw r : Analysis α).Ensures P := by
  intro p q a ho
  cases ho

theorem ensures_ofReading {x : Reading α} (h : ∀ a, x = .ok a → P a) : (ofReading x).Ensures P := by
  intro p q a ho
  rw [outcome_ofReading] at ho
  exact h a (congrArg Prod.fst ho)

theorem Ensures.bind {m : Analysis α} {f : α → Analysis β} (hm : m.Ensures P)
    (hf : ∀ a, P a → (f a).Ensures Q) : (m >>= f).Ensures Q := by
  intro p q b ho
  obtain ⟨a, r, ha, hb⟩ := of_outcome_bind_ok ho
  exact hf a (hm p r a ha) r q b hb

theorem ensures_lift {m : Collect α} (h : m.Ensures P) : (liftM m : Analysis α).Ensures P := by
  intro p q a ho
  cases ho
  exact h p

theorem Ensures.orReport {m : Analysis (List α)} {P : List α → Prop} (hm : m.Ensures P)
    (hnil : P []) : m.orReport.Ensures P := by
  intro p
  rw [outcome_orReport]
  rcases ho : m.outcome p with ⟨r | as, q⟩
  · exact hnil
  · exact hm p q as ho

end Analysis

end Ensures

/-- A scope that binds further names. -/
structure Scope.Extends (s t : Scope) : Prop where
  bindings : s.bindings <:+ t.bindings
  props : t.props = s.props
  isModule : t.isModule = s.isModule

namespace Scope

variable {s t u : Scope}

theorem Extends.refl (s : Scope) : s.Extends s := ⟨List.suffix_refl _, rfl, rfl⟩

theorem Extends.trans (h : s.Extends t) (h' : t.Extends u) : s.Extends u where
  bindings := h.bindings.trans h'.bindings
  props := h'.props.trans h.props
  isModule := h'.isModule.trans h.isModule

theorem extends_bind (s : Scope) (name : String) (store : Option Store) :
    s.Extends (s.bind name store) :=
  ⟨List.suffix_cons _ _, rfl, rfl⟩

theorem extends_bindAll (s : Scope) (names : List String) : s.Extends (s.bindAll names) := by
  induction names generalizing s with
  | nil => exact .refl s
  | cons name more ih => exact (s.extends_bind name none).trans (ih _)

theorem extends_hoistDeclarators (s : Scope) (ns : List Node) :
    s.Extends (hoistDeclarators ns s) := by
  induction ns generalizing s with
  | nil => exact .refl s
  | cons n more ih =>
    cases n with
    | declarator target init =>
      cases target with
      | identifier name => exact (s.extends_bind name _).trans (ih _)
      | _ => exact (s.extends_bindAll _).trans (ih _)
    | _ => exact ih s

theorem extends_hoistDeclaration (s : Scope) (n : Node) : s.Extends (s.hoistDeclaration n) := by
  unfold hoistDeclaration
  split
  · exact s.extends_bind _ _
  · exact s.extends_hoistDeclarators _
  · exact .refl s

theorem extends_hoistStatement (s : Scope) (n : Node) : s.Extends (s.hoistStatement n) := by
  unfold hoistStatement
  split
  · exact s.extends_hoistDeclaration _
  · exact s.extends_hoistDeclaration _

theorem extends_hoist (s : Scope) (ns : List Node) : s.Extends (s.hoist ns) := by
  unfold hoist
  induction ns generalizing s with
  | nil => exact .refl s
  | cons n more ih => exact (s.extends_hoistStatement n).trans (ih _)

theorem behind_of_isFormless {n : Node} (h : n.isFormless = true) : s.behind n = s := by
  cases n with
  | variableDeclaration | ifStatement => cases h
  | _ => rw [behind] <;> simp

theorem extends_behind (s : Scope) (n : Node) : s.Extends (s.behind n) := by
  fun_induction behind s n with
  | case1 s kind declarators => exact s.extends_hoistStatement _
  | case2 s test consequent ih => exact ih
  | case3 s test consequent alternate ih ih' => exact ih.trans ih'
  | case4 n s _ _ _ => exact .refl s

end Scope

namespace TestContext

variable (t : TestContext)

/-- The value of a choice between actions by a test. -/
def choiceValue? (test : Node) : Option Value :=
  (t.condition test).toOption.map fun c => .object [("condition", c.toValue)]

/-- The value of a choice between actions by a switch. -/
def selectionValue? (d : Node) (cases : List Node) : Option Value :=
  (t.operandValue d).toOption.bind fun d => (cases.mapM t.caseValue).toOption.map fun tests =>
    .object [("discriminant", d), ("cases", .list tests)]

end TestContext

/-- The value of an action, read off its call with the given props. -/
def Call.value? (props : List String) (arguments : List Node) (line : Nat) : Call → Option Value
  | .declaration => none
  | .read _ => none
  | .mutation _ _ =>
    match arguments with
    | [_, e] => some (staticValue props e)
    | _ => none
  | .effect .api _ =>
    (Request.ofArguments arguments line props).toOption.map fun r => .object r.payload
  | .effect space method =>
    method.bind fun name => (space.effect? name).bind fun shape =>
      (effectPayload shape (space.name ++ "." ++ name ++ "()") arguments line props).toOption.map
        .object

namespace Place

def scope : Place → Scope
  | .node s _ => s
  | .function s _ _ => s
  | .statement s _ => s
  | .expression s _ => s
  | .call s _ _ _ => s

/-- The value that is read at a place by itself, with the given props. -/
def value? (props : List String) : Place → Option Value
  | .call _ c arguments line => c.value? props arguments line
  | .statement s (.ifStatement test consequent alternate) =>
    let behind := s.behind (.ifStatement test consequent alternate)
    TestContext.choiceValue? { props, store? := behind.store? } test
  | .statement s (.switchStatement d cases) =>
    TestContext.selectionValue? { props, store? := s.store? } d cases
  | .expression s (.binary _ left _) => TestContext.choiceValue? { props, store? := s.store? } left
  | .expression s (.unsupported "ternary_expression" [test, _, _] _) =>
    TestContext.choiceValue? { props, store? := s.store? } test
  | _ => none

/-- The function that follows a request, if one is given. -/
def ofCallback (s : Scope) (n : Option Node) : List Place :=
  n.toList.filterMap fun n => (functionOf? n).map fun (params, body) => .function s params body

end Place

/-- Each item is found at one of the places or inside it. -/
def FoundAt {α : Type} (R : Place → α → Prop) (ps : List Place) (xs : List α) : Prop :=
  ∀ x ∈ xs, ∃ p ∈ ps, ∃ q, p.Reaches q ∧ R q x

namespace FoundAt

variable {α : Type} {R : Place → α → Prop} {p : Place} {ps qs : List Place} {xs ys : List α}

theorem nil (ps : List Place) : FoundAt R ps [] := by
  intro x hx
  cases hx

theorem mono (h : ∀ p ∈ ps, p ∈ qs) (hx : FoundAt R ps xs) : FoundAt R qs xs := by
  intro x hmem
  obtain ⟨p, hp, hq⟩ := hx x hmem
  exact ⟨p, h p hp, hq⟩

theorem both (hx : FoundAt R ps xs) (hy : FoundAt R ps ys) : FoundAt R ps (xs ++ ys) := by
  intro z hz
  rcases List.mem_append.1 hz with hz | hz
  · exact hx z hz
  · exact hy z hz

theorem append (hx : FoundAt R ps xs) (hy : FoundAt R qs ys) : FoundAt R (ps ++ qs) (xs ++ ys) :=
  (hx.mono fun _ => List.mem_append_left qs).both (hy.mono fun _ => List.mem_append_right ps)

theorem flatMap {β : Type} {f : β → List α} {bs : List β} (h : ∀ b ∈ bs, FoundAt R ps (f b)) :
    FoundAt R ps (bs.flatMap f) := by
  intro x hx
  obtain ⟨b, hb, hx⟩ := List.mem_flatMap.1 hx
  exact h b hb x hx

/-- What is found at places inside a place is found there. -/
theorem enter (h : ∀ q ∈ ps, q ∈ p.inner) (hx : FoundAt R ps xs) : FoundAt R [p] xs := by
  intro x hmem
  obtain ⟨q, hq, r, hr, hxr⟩ := hx x hmem
  exact ⟨p, List.mem_singleton_self p, r, .head (h q hq) hr, hxr⟩

/-- An item that is found at a place by itself, and others. -/
theorem cons {x : α} (hx : R p x) (h : FoundAt R [p] xs) : FoundAt R [p] (x :: xs) := by
  intro y hy
  rcases List.mem_cons.1 hy with rfl | hy
  · exact ⟨p, List.mem_singleton_self p, p, .refl, hx⟩
  · exact h y hy

end FoundAt

/-- The values of actions are read at the given places or inside them, with the props there. -/
def From (ps : List Place) (as : List Act) : Prop :=
  FoundAt (fun q v => q.value? q.scope.props = some v) ps (valuesAll as)

namespace From

variable {p : Place} {ps qs : List Place} {as bs : List Act}

theorem nil (ps : List Place) : From ps [] := FoundAt.nil ps

theorem append (ha : From ps as) (hb : From qs bs) : From (ps ++ qs) (as ++ bs) := by
  rw [From, valuesAll_append]
  exact FoundAt.append ha hb

theorem both (ha : From ps as) (hb : From ps bs) : From ps (as ++ bs) := by
  rw [From, valuesAll_append]
  exact FoundAt.both ha hb

theorem mono (h : ∀ p ∈ ps, p ∈ qs) (ha : From ps as) : From qs as := FoundAt.mono h ha

theorem flatten {branches : List (List Act)} (h : ∀ as ∈ branches, From ps as) :
    From ps branches.flatten := by
  rw [From, valuesAll_flatten]
  exact FoundAt.flatMap h

/-- What is read at places inside a place is read there. -/
theorem enter (h : ∀ q ∈ ps, q ∈ p.inner) (ha : From ps as) : From [p] as := FoundAt.enter h ha

theorem single (ha : From ps as) (q : Progress) : From ps [((Act.single as).outcome q).1] := by
  rwa [From, valuesAll_cons, Act.values_single, valuesAll_nil, List.append_nil]

theorem sequence (ha : From ps as) (q : Progress) : From ps [((Act.sequence as).outcome q).1] := by
  rwa [From, valuesAll_cons, Act.values_sequence, valuesAll_nil, List.append_nil]

/-- A value that is read at a place by itself, and others. -/
theorem of_values_eq {a : Act} {v : Value} (ha : a.values = v :: valuesAll as)
    (hv : p.value? p.scope.props = some v) (h : From [p] as) : From [p] [a] := by
  rw [From, valuesAll_cons, ha, valuesAll_nil, List.append_nil]
  exact FoundAt.cons hv h

end From

section Lists

variable {p : Place} {ps qs : List Place}

theorem Collect.Ensures.enter {m : Collect (List Act)} (h : m.Ensures (From ps))
    (hps : ∀ q ∈ ps, q ∈ p.inner) : m.Ensures (From [p]) :=
  fun q => (h q).enter hps

theorem Collect.Ensures.append {m m' : Collect (List Act)} (h : m.Ensures (From ps))
    (h' : m'.Ensures (From qs)) :
    (do return (← m) ++ (← m') : Collect (List Act)).Ensures (From (ps ++ qs)) :=
  h.bind fun _ ha => h'.bind fun _ hb => Collect.ensures_pure (ha.append hb)

theorem Analysis.Ensures.enter {m : Analysis (List Act)} (h : m.Ensures (From ps))
    (hps : ∀ q ∈ ps, q ∈ p.inner) : m.Ensures (From [p]) :=
  fun q r as ho => (h q r as ho).enter hps

theorem Analysis.Ensures.append {m m' : Analysis (List Act)} (h : m.Ensures (From ps))
    (h' : m'.Ensures (From qs)) :
    (do return (← m) ++ (← m') : Analysis (List Act)).Ensures (From (ps ++ qs)) :=
  h.bind fun _ ha => h'.bind fun _ hb => ensures_pure (ha.append hb)

end Lists

section Steps

variable {s : Scope} {p : Place} {as bs : List Act}

theorem ensures_conditionalAct {test : Node}
    (hp : p.value? p.scope.props = s.tests.choiceValue? test) (ha : From [p] as)
    (hb : From [p] bs) : (conditionalAct s test as bs).Ensures fun a => From [p] [a] := by
  intro q r a ho
  rw [outcome_conditionalAct] at ho
  cases hc : s.tests.condition test with
  | error e => simp [hc] at ho
  | ok c =>
    simp only [hc, Prod.mk.injEq, Except.ok.injEq] at ho
    obtain ⟨rfl, -⟩ := ho
    have hvalues := Act.values_choice q c.toValue as bs
    rw [← valuesAll_append] at hvalues
    refine .of_values_eq hvalues ?_ (ha.both hb)
    rw [hp, TestContext.choiceValue?, hc]
    rfl

theorem ensures_switchAct {d : Node} {cases : List Node} {branches : List (List Act)}
    (hp : p.value? p.scope.props = s.tests.selectionValue? d cases)
    (hb : ∀ as ∈ branches, From [p] as) :
    (switchAct s d cases branches).Ensures fun a => From [p] [a] := by
  intro q r a ho
  rw [outcome_switchAct] at ho
  cases hd : s.tests.operandValue d with
  | error e => simp [hd] at ho
  | ok v =>
    cases ht : cases.mapM s.tests.caseValue with
    | error e => simp [hd, ht] at ho
    | ok tests =>
      simp only [hd, ht, Prod.mk.injEq, Except.ok.injEq] at ho
      obtain ⟨rfl, -⟩ := ho
      have hvalues := Act.values_selection q v tests branches
      rw [← valuesAll_flatten] at hvalues
      refine .of_values_eq hvalues ?_ (.flatten hb)
      rw [hp, TestContext.selectionValue?, hd, ht]
      rfl

theorem ensures_mutationAct (kind : ActionKind) (store : Store) (method : Option String)
    (call : String) (arguments : List Node) (line : Nat) :
    (mutationAct s kind store call arguments line).Ensures fun a =>
      From [.call s (.mutation store method) arguments line] [a] := by
  unfold mutationAct
  refine Ensures.bind (P := fun _ => True) (ensures_ofReading fun _ _ => trivial) ?_
  intro path _
  split
  · split
    · refine ensures_lift fun q v hv => ?_
      rw [valuesAll_cons, values_of_unset rfl] at hv
      cases hv
    · exact ensures_throw _
  · split
    · rename_i value
      refine ensures_lift fun q => ?_
      exact .of_values_eq (values_of_unset rfl) rfl (.nil _)
    · exact ensures_throw _

def originStoreTraversal (store : Store) : StoreTraversal where
  storeAction s method arguments line := (storeAction s store method arguments line).Ensures fun a =>
    From [.call s (.mutation store method) arguments line] [a]
  transactionActions s proxy line ns := (transactionActions s store proxy line ns).Ensures
    (From ((ns.filterMap (mutationOn? proxy)).map fun c =>
      .call s (.mutation store c.method) c.arguments c.line))

theorem steps_originStoreTraversal (store : Store) : (originStoreTraversal store).Steps store where
  unnamed s arguments line := by
    simp only [originStoreTraversal, storeAction]
    exact ensures_throw _
  unknown arguments line hm := by
    simp only [originStoreTraversal, storeAction, hm]
    exact ensures_throw _
  mutation {s method kind} arguments line hk ht := by
    simp only [originStoreTraversal, storeAction_of_mutation hk ht]
    refine Ensures.bind (P := fun _ => True) (ensures_ofReading fun _ _ => trivial) fun _ _ => ?_
    exact ensures_mutationAct kind store (some method) _ arguments line
  transaction {s arguments line} ih := by
    have hk : storeMethod? "transaction" = some .storeTransaction := rfl
    simp only [originStoreTraversal, storeAction_of_transaction hk]
    refine Ensures.bind (P := fun _ => True) (ensures_ofReading fun _ _ => trivial) fun _ _ => ?_
    refine (ensures_ofReading fun t ht => ht).bind fun t ht => ?_
    refine (ih t ht).bind fun as has => ?_
    cases as with
    | nil => exact ensures_throw _
    | cons a more =>
      refine ensures_lift fun q => ?_
      have hinside : From [.call s (.mutation store (some "transaction")) arguments line]
          (a :: more) := by
        refine has.enter fun q hq => ?_
        simpa only [Place.inner, Place.insideCall, ht] using hq
      intro v hv
      rw [valuesAll_cons, Act.values_transaction, valuesAll_nil, List.append_nil] at hv
      exact hinside v hv
  nil s proxy line := by
    simp only [originStoreTraversal, transactionActions]
    exact ensures_pure (.nil _)
  change hc ihc ihm := by
    simp only [originStoreTraversal, transactionActions_of_mutation hc, List.filterMap_cons_some hc]
    refine ihc.bind fun a ha => ihm.bind fun as has => ?_
    exact ensures_pure (ha.append has)
  foreign hn hm := by
    simp only [originStoreTraversal, transactionActions_of_none hn, if_pos hm]
    exact ensures_throw _
  quiet hn hm ih := by
    simp only [originStoreTraversal, transactionActions_of_none hn, if_neg hm,
      List.filterMap_cons_none hn]
    exact ih

/-- The analyses of a store's calls and of a transaction's statements. -/
theorem ensures_store (store : Store) :
    (∀ s method arguments line, (storeAction s store method arguments line).Ensures fun a =>
      From [.call s (.mutation store method) arguments line] [a]) ∧
    ∀ s proxy line ns, (transactionActions s store proxy line ns).Ensures
      (From ((ns.filterMap (mutationOn? proxy)).map fun c =>
        .call s (.mutation store c.method) c.arguments c.line)) :=
  (steps_originStoreTraversal store).everywhere

theorem ensures_effectAct {space : Namespace} (hs : space ≠ .api) (method : Option String)
    (arguments : List Node) (line : Nat) :
    (effectAct s space method arguments line).Ensures fun a =>
      From [.call s (.effect space method) arguments line] [a] := by
  unfold effectAct
  dsimp only
  split
  · rename_i shape name hshape hname
    have hmethod : method = some name := (Option.filter_eq_some_iff.1 hname).1
    have heffect : space.effect? name = some shape := by
      rwa [hname, Option.bind_some] at hshape
    refine (ensures_ofReading fun payload h => h).bind fun payload hpayload => ?_
    refine ensures_lift fun q v hv => ?_
    rw [valuesAll_cons, values_of_unset rfl, valuesAll_nil, List.append_nil] at hv
    refine ⟨_, List.mem_singleton_self _, _, .refl, ?_⟩
    have hv : v = .object payload := by
      change v ∈ (if payload.isEmpty then none else some (Value.object payload)).toList at hv
      split at hv
      · cases hv
      · simpa using hv
    simp only [Place.value?, Place.scope, Call.value?, hmethod, Option.bind_some, heffect, hpayload]
    rw [hv]
    rfl
  · exact ensures_throw _

theorem ensures_request {arguments : List Node} {line : Nat} {r : Request}
    (hr : Request.ofArguments arguments line s.props = .ok r)
    (hs : (callback s "onSuccess" r.onSuccess).Ensures fun a =>
      From (Place.ofCallback s r.onSuccess) [a])
    (he : (callback s "onError" r.onError).Ensures fun a =>
      From (Place.ofCallback s r.onError) [a]) :
    (callActions s (.effect .api (some "request")) arguments line).Ensures
      (From [.call s (.effect .api (some "request")) arguments line]) := by
  rw [callActions_of_request hr]
  refine hs.bind fun a ha => he.bind fun b hb => ?_
  refine Ensures.bind
    (P := fun c => From [.call s (.effect .api (some "request")) arguments line] [c])
    (ensures_lift fun q => ?_) fun c hc => ensures_pure hc
  refine .of_values_eq (Act.values_request q r.payload a b) ?_ ?_
  · simp only [Place.value?, Call.value?, Place.scope, hr]
    rfl
  · refine (ha.append hb).enter fun q hq => ?_
    rw [Place.ofCallback, Place.ofCallback, ← List.filterMap_append] at hq
    simpa only [Place.inner, Place.insideCall, hr] using hq

theorem ensures_callback {name : String} {n body : Node} {params : List Node}
    (hn : functionOf? n = some (params, body))
    (h : (functionActions s params body).Ensures (From [.function s params body])) :
    (callback s name (some n)).Ensures fun a => From (Place.ofCallback s (some n)) [a] := by
  have hplace : Place.ofCallback s (some n) = [.function s params body] := by
    simp [Place.ofCallback, hn]
  rw [callback_of_functionOf? hn, hplace]
  refine h.bind fun as has => ?_
  exact ensures_lift fun q => has.sequence q

theorem ensures_handlerActions {params : List Node} {body : Node}
    (h : (functionActions s params body).Ensures (From [.function s params body])) :
    (handlerActions s params body).Ensures (From [.function s params body]) := by
  rw [handlerActions]
  refine h.bind fun as has => ?_
  cases as with
  | nil => exact ensures_pure (.nil _)
  | cons a more =>
    refine Ensures.bind (P := fun b => From [.function s params body] [b]) ?_
      fun b hb => ensures_pure hb
    exact ensures_lift fun q => has.single q

theorem ensures_expression_binary {operator : String} {left right : Node}
    (hop : (operator = "&&" ∨ operator = "||") ∧ (!mentions s left) = true)
    (h : (expression s right).Ensures (From [.expression s right])) :
    (expression s (.binary operator left right)).Ensures
      (From [.expression s (.binary operator left right)]) := by
  rw [expression, if_pos hop]
  refine h.bind fun as has => ?_
  have hinside : From [.expression s (.binary operator left right)] as := by
    exact has.enter fun q hq => by rwa [Place.inner_of_guarded hop]
  cases as with
  | nil => exact ensures_pure (.nil _)
  | cons a more =>
    dsimp only
    split
    · exact (ensures_conditionalAct rfl (.nil _) hinside).bind fun b hb => ensures_pure hb
    · exact (ensures_conditionalAct rfl hinside (.nil _)).bind fun b hb => ensures_pure hb

theorem ensures_expression_ternary {test consequent alternate : Node} {line : Nat}
    (ht : ¬mentions s test = true)
    (hc : (expression s consequent).Ensures (From [.expression s consequent]))
    (ha : (expression s alternate).Ensures (From [.expression s alternate])) :
    (expression s (.unsupported "ternary_expression" [test, consequent, alternate] line)).Ensures
      (From [.expression s (.unsupported "ternary_expression" [test, consequent, alternate] line)])
      := by
  rw [expression, if_neg ht]
  refine hc.bind fun as has => ha.bind fun bs hbs => ?_
  have hinner : (Place.expression s
      (.unsupported "ternary_expression" [test, consequent, alternate] line)).inner =
        [.expression s consequent, .expression s alternate] := Place.inner_of_ternary ht
  split
  · exact ensures_pure (.nil _)
  · refine (ensures_conditionalAct rfl ?_ ?_).bind fun b hb => ensures_pure hb
    · exact has.enter fun q hq => by
        rw [hinner, List.mem_singleton.1 hq]
        exact List.mem_cons_self
    · exact hbs.enter fun q hq => by
        rw [hinner, List.mem_singleton.1 hq]
        exact List.mem_cons_of_mem _ (List.mem_singleton_self _)

theorem ensures_statements_cons {n : Node} {more : List Node}
    (hn : (statement s n).Ensures fun x => From [.statement s n] x.1 ∧ x.2 = s.behind n)
    (hm : ∀ t, (statements t more).Ensures (From (Place.inOrder t more))) :
    (statements s (n :: more)).Ensures (From (Place.inOrder s (n :: more))) := by
  rw [statements]
  refine hn.bind fun x hx => ?_
  obtain ⟨as, t⟩ := x
  obtain ⟨has, ht⟩ := hx
  obtain rfl : t = s.behind n := ht
  refine (hm (s.behind n)).bind fun bs hbs => ?_
  exact ensures_pure (has.append hbs)

/-- The scope behind the second part of an `if`. -/
def Scope.behindOption (s : Scope) : Option Node → Scope
  | none => s
  | some n => s.behind n

theorem Scope.behind_ifStatement (s : Scope) (test consequent : Node) (alternate : Option Node) :
    s.behind (.ifStatement test consequent alternate) =
      (s.behind consequent).behindOption alternate := by
  cases alternate with
  | none => rw [Scope.behind, Scope.behindOption]
  | some n => rw [Scope.behind, Scope.behindOption]

theorem ensures_statement_if {test consequent : Node} {alternate : Option Node}
    (hc : (statement s consequent).Ensures fun x =>
      From [.statement s consequent] x.1 ∧ x.2 = s.behind consequent)
    (ha : ∀ t, (alternative t alternate).Ensures fun x =>
      From (alternate.toList.map (.statement t)) x.1 ∧ x.2 = t.behindOption alternate) :
    (statement s (.ifStatement test consequent alternate)).Ensures fun x =>
      From [.statement s (.ifStatement test consequent alternate)] x.1 ∧
        x.2 = s.behind (.ifStatement test consequent alternate) := by
  rw [statement]
  refine hc.bind fun x hx => ?_
  obtain ⟨as, t⟩ := x
  obtain ⟨has, ht⟩ := hx
  obtain rfl : t = s.behind consequent := ht
  refine (ha (s.behind consequent)).bind fun y hy => ?_
  obtain ⟨bs, u⟩ := y
  obtain ⟨hbs, hu⟩ := hy
  rw [← Scope.behind_ifStatement s test] at hu
  obtain rfl : u = s.behind (.ifStatement test consequent alternate) := hu
  have hfirst : From [.statement s (.ifStatement test consequent alternate)] as :=
    has.enter fun q hq => by
      rw [List.mem_singleton.1 hq]
      exact List.mem_cons_self
  have hsecond : From [.statement s (.ifStatement test consequent alternate)] bs :=
    hbs.enter fun q hq => List.mem_cons_of_mem _ hq
  dsimp only
  split
  · exact ensures_pure ⟨.nil _, rfl⟩
  · have hvalue : (Place.statement s (.ifStatement test consequent alternate)).value? s.props =
        (s.behind (.ifStatement test consequent alternate)).tests.choiceValue? test := by
      simp only [Place.value?, Scope.tests, (Scope.extends_behind s _).props]
    refine (ensures_conditionalAct (p := .statement s _) hvalue hfirst hsecond).bind fun a ha => ?_
    exact ensures_pure ⟨ha, rfl⟩

theorem ensures_statement_switch {d : Node} {cases : List Node}
    (h : mentions s (.switchStatement d cases) = true →
      cases.any (fun c => (caseFlow? (caseBody c)).isNone) = false →
      (branchActions s cases).Ensures fun branches => ∀ as ∈ branches,
        From ((cases.tails.filterMap caseRun?).flatMap fun run =>
          Place.inOrder (s.child.hoist run) run) as) :
    (statement s (.switchStatement d cases)).Ensures fun x =>
      From [.statement s (.switchStatement d cases)] x.1 ∧ x.2 = s.behind (.switchStatement d cases) := by
  have hbehind : s.behind (.switchStatement d cases) = s := by
    rw [Scope.behind] <;> simp
  rw [statement, hbehind]
  split
  · exact ensures_pure ⟨.nil _, rfl⟩
  · rename_i hm
    have hm : mentions s (.switchStatement d cases) = true := by simpa using hm
    split
    · exact ensures_throw _
    · rename_i hflow
      refine (h hm (by simpa using hflow)).bind fun branches hb => ?_
      have hinside (as : List Act) (has : as ∈ branches) :
          From [.statement s (.switchStatement d cases)] as :=
        (hb as has).enter fun q hq => by rwa [Place.inner_of_switch hm]
      refine (ensures_switchAct rfl hinside).bind fun a ha => ?_
      exact ensures_pure ⟨ha, rfl⟩

theorem ensures_branchActions_cons {c : Node} {more run : List Node}
    (hr : caseRun? (c :: more) = some run)
    (hf : (statements (s.child.hoist run) run).Ensures
      (From (Place.inOrder (s.child.hoist run) run)))
    (hm : (branchActions s more).Ensures fun branches => ∀ as ∈ branches,
      From ((more.tails.filterMap caseRun?).flatMap fun run =>
        Place.inOrder (s.child.hoist run) run) as) :
    (branchActions s (c :: more)).Ensures fun branches => ∀ as ∈ branches,
      From (((c :: more).tails.filterMap caseRun?).flatMap fun run =>
        Place.inOrder (s.child.hoist run) run) as := by
  rw [branchActions_of_caseRun? hr, List.tails, List.filterMap_cons_some hr, List.flatMap_cons]
  refine hf.bind fun as has => hm.bind fun bs hbs => ensures_pure ?_
  refine List.forall_mem_cons.2 ⟨?_, fun as' has' => ?_⟩
  · exact has.mono fun q hq => List.mem_append_left _ hq
  · exact (hbs as' has').mono fun q hq => List.mem_append_right _ hq

theorem ensures_inScope {m : Analysis (List Act)} {ps : List Place} {t : Scope}
    (hm : m.Ensures (From ps)) (hps : ∀ q ∈ ps, q ∈ p.inner) :
    (do return (← m, t) : Analysis (List Act × Scope)).Ensures fun x => From [p] x.1 ∧ x.2 = t :=
  hm.bind fun _ has => ensures_pure ⟨has.enter hps, rfl⟩

end Steps

/-- What each function that goes through a program finds is read at its places. -/
def originTraversal : Traversal where
  walk s n := (walk s n).Ensures (From [.node s n])
  walkAll s ns := (walkAll s ns).Ensures (From (ns.map (.node s)))
  walkFunction s params body :=
    (walkFunction s params body).Ensures (From (Place.ofBody (s.function params) body))
  walkAttributes s ns := (walkAttributes s ns).Ensures (From (ns.map (.ofAttribute s)))
  walkAttribute s n := (walkAttribute s n).Ensures (From [.ofAttribute s n])
  handlerActions s params body :=
    (handlerActions s params body).Ensures (From [.function s params body])
  callActions s call arguments line :=
    (callActions s call arguments line).Ensures (From [.call s call arguments line])
  callback s name n := (callback s name n).Ensures fun a => From (Place.ofCallback s n) [a]
  functionActions s params body :=
    (functionActions s params body).Ensures (From [.function s params body])
  statements s ns := (statements s ns).Ensures (From (Place.inOrder s ns))
  statement s n := (statement s n).Ensures fun x => From [.statement s n] x.1 ∧ x.2 = s.behind n
  alternative s n := (alternative s n).Ensures fun x =>
    From (n.toList.map (.statement s)) x.1 ∧ x.2 = s.behindOption n
  initialisers s ns := (initialisers s ns).Ensures
    (From ((ns.filterMap initialiser?).map (.expression s)))
  branchActions s cases := (branchActions s cases).Ensures fun branches => ∀ as ∈ branches,
    From ((cases.tails.filterMap caseRun?).flatMap fun run => Place.inOrder (s.child.hoist run) run) as
  expression s n := (expression s n).Ensures (From [.expression s n])
  plainActions s n := (plainActions s n).Ensures (From [.node s n])

theorem originTraversal_search : originTraversal.Search where
  function hf ih := by
    simp only [originTraversal, walk_of_function? hf]
    exact ih.enter fun q hq => by rwa [Place.inner_of_function? hf]
  block ih := by
    simp only [originTraversal, walk]
    exact ih.enter fun q hq => hq
  element ihattributes ihchildren := by
    simp only [originTraversal, walk]
    exact (ihattributes.append ihchildren).enter fun q hq => hq
  call hc ih := by
    simp only [originTraversal, walk_of_classify hc]
    exact (ih.orReport (.nil _)).enter fun q hq => by rwa [Place.inner_of_classify hc]
  ordinary hc ih := by
    simp only [originTraversal, walk_of_classify_eq_none hc]
    exact ih.enter fun q hq => by rwa [Place.inner_of_classify_eq_none hc]
  passed hn ih := by
    simp only [originTraversal, walk_of_isPassed hn]
    exact ih.enter fun q hq => by rwa [Place.inner_of_isPassed hn]
  nil s := by
    simp only [originTraversal, walkAll]
    exact Collect.ensures_pure (.nil _)
  cons ihn ihm := by
    simp only [originTraversal, walkAll]
    exact ihn.append ihm
  body_block ih := by
    simp only [originTraversal, walkFunction]
    exact ih
  body_expression he ih := by
    simp only [originTraversal, walkFunction_of_expression he, Place.ofBody_of_expression he]
    exact ih
  attributes_nil s := by
    simp only [originTraversal, walkAttributes]
    exact Collect.ensures_pure (.nil _)
  attributes_cons ihn ihm := by
    simp only [originTraversal, walkAttributes]
    exact ihn.append ihm
  handler hn ih := by
    simp only [originTraversal, walkAttribute_of_handler? hn, Place.ofAttribute, hn]
    exact ih.orReport (.nil _)
  «attribute» hn ih := by
    simp only [originTraversal, walkAttribute_of_none hn, Place.ofAttribute, hn]
    exact ih

theorem originTraversal_calls : originTraversal.Calls where
  silent arguments line hc := by
    simp only [originTraversal, callActions_of_isAction_eq_false hc]
    exact ensures_pure (.nil _)
  mutation s store method arguments line := by
    simp only [originTraversal, callActions]
    exact ((ensures_store store).1 s method arguments line).bind fun a ha => ensures_pure ha
  refused hr := by
    simp only [originTraversal, callActions_of_refused hr]
    exact ensures_throw _
  request hr ihs ihe := ensures_request hr ihs ihe
  unknown arguments line hm := by
    simp only [originTraversal, callActions, if_neg hm]
    exact ensures_throw _
  effect {s space} method arguments line hs := by
    simp only [originTraversal, callActions]
    exact (ensures_effectAct hs method arguments line).bind fun a ha => ensures_pure ha
  missing s name := by
    simp only [originTraversal, callback]
    exact ensures_lift fun q => (From.nil _).sequence q
  callback name hf ih := ensures_callback hf ih
  other name hf := by
    simp only [originTraversal, callback_of_none hf]
    exact ensures_throw _

theorem originTraversal_expressions : originTraversal.Expressions where
  held hn ih := by
    simp only [originTraversal, expression_of_held? hn]
    exact ih.enter fun q hq => by rwa [Place.inner_of_held? hn]
  guarded hop ih := ensures_expression_binary hop ih
  unguarded hop ih := by
    simp only [originTraversal, expression, if_neg hop]
    exact ih.enter fun q hq => by rwa [Place.inner_of_unguarded hop]
  ternary ht ihc iha := ensures_expression_ternary ht ihc iha
  active ht ih := by
    simp only [originTraversal, expression, if_pos ht]
    exact ih.enter fun q hq => by rwa [Place.inner_of_active ht]
  searched hn ih := by
    simp only [originTraversal, expression_of_isSearched hn]
    exact ih.enter fun q hq => by rwa [Place.inner_of_isSearched hn]
  nested hn := by
    simp only [originTraversal, plainActions_of_nestedFunction? hn]
    exact ensures_throw _
  plain hn ih := by
    simp only [originTraversal, plainActions_of_none hn]
    exact ensures_lift ih

theorem originTraversal_statements : originTraversal.Statements where
  handler ih := ensures_handlerActions ih
  body_block ih := by
    simp only [originTraversal, functionActions]
    exact ih.enter fun q hq => hq
  body_expression he ih := by
    simp only [originTraversal, functionActions_of_expression he]
    exact ih.enter fun q hq => by rwa [Place.inner_function_of_expression he]
  nil s := by
    simp only [originTraversal, statements]
    exact ensures_pure (.nil _)
  cons ihn ihm := ensures_statements_cons ihn ihm
  expression ih := by
    simp only [originTraversal, statement]
    exact ensures_inScope ih fun q hq => hq
  returned ih := by
    simp only [originTraversal, statement]
    exact ensures_inScope ih fun q hq => hq
  bare_return s := by
    simp only [originTraversal, statement]
    exact ensures_pure ⟨.nil _, rfl⟩
  declaration ih := by
    simp only [originTraversal, statement]
    exact ensures_inScope ih fun q hq => hq
  block ih := by
    simp only [originTraversal, statement]
    exact ensures_inScope ih fun q hq => hq
  choice ihc iha := ensures_statement_if ihc iha
  switch ih := ensures_statement_switch ih
  leave s := by
    simp only [originTraversal, statement]
    exact ensures_pure ⟨.nil _, rfl⟩
  formless {s n} hn := by
    simp only [originTraversal, statement_of_isFormless hn, Scope.behind_of_isFormless hn]
    split
    · exact ensures_throw _
    · exact ensures_pure ⟨.nil _, rfl⟩
  alternative_none s := by
    simp only [originTraversal, alternative]
    exact ensures_pure ⟨.nil _, rfl⟩
  alternative_some ih := by
    simp only [originTraversal, alternative]
    exact ih
  initialisers_nil s := by
    simp only [originTraversal, initialisers]
    exact ensures_pure (.nil _)
  initialiser hn ihe ihm := by
    simp only [originTraversal, initialisers_of_initialiser? hn, List.filterMap_cons_some hn]
    exact ihe.append ihm
  uninitialised hn ih := by
    simp only [originTraversal, initialisers_of_none hn, List.filterMap_cons_none hn]
    exact ih
  branches_nil s := by
    simp only [originTraversal, branchActions]
    exact ensures_pure (by simp)
  endless hr := by
    simp only [originTraversal, branchActions_of_none hr]
    exact ensures_throw _
  branch hr ihf ihm := ensures_branchActions_cons hr ihf ihm

/-- What is found among nodes is read at their places. -/
theorem ensures_walkAll (s : Scope) (ns : List Node) :
    (walkAll s ns).Ensures (From (ns.map (.node s))) :=
  (Traversal.everywhere originTraversal_search originTraversal_calls originTraversal_expressions
    originTraversal_statements).walkAll s ns

end Scenario

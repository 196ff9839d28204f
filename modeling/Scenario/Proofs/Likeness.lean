import Scenario.Proofs.Traversal

namespace Scenario

open Syntax Analysis

/-- A stretch of an analysis: the progress before it, what it gives, and the progress behind it. -/
structure Run (α : Type) where
  before : Progress
  result : α
  after : Progress

structure Likeness where
  start : Progress → Progress → Prop
  made : Run (List Act) → Run (List Act) → Prop
  /-- Changes of one store, as a transaction may hold them. -/
  changed : Store → Run (List Act) → Run (List Act) → Prop
  /-- The sequences of what follows a request. -/
  called : Run Act → Run Act → Prop

namespace Likeness

variable (L : Likeness) {α β : Type}

/-- Two analyses end alike: refused for one reason, or with results in a relation. -/
def Ends (p p' : Progress) (Q : Run α → Run α → Prop) :
    Except Refused α × Progress → Except Refused α × Progress → Prop
  | (.ok a, q), (.ok a', q') => Q ⟨p, a, q⟩ ⟨p', a', q'⟩
  | (.error r, q), (.error r', q') => r = r' ∧ L.made ⟨p, [], q⟩ ⟨p', [], q'⟩
  | _, _ => False

/-- The branches of a switch, each made behind the one before it. -/
inductive Branches : Run (List (List Act)) → Run (List (List Act)) → Prop where
  | nil {p p' : Progress} : L.start p p' → Branches ⟨p, [], p⟩ ⟨p', [], p'⟩
  | cons {p p' q q' r r' : Progress} {as as' : List Act} {bs bs' : List (List Act)} :
    L.made ⟨p, as, q⟩ ⟨p', as', q'⟩ → Branches ⟨q, bs, r⟩ ⟨q', bs', r'⟩ →
    Branches ⟨p, as :: bs, r⟩ ⟨p', as' :: bs', r'⟩

/-- A likeness that every step of an analysis keeps. -/
structure Lawful : Prop where
  next {x x' : Run (List Act)} : L.made x x' → L.start x.after x'.after
  length_eq {x x' : Run (List Act)} : L.made x x' → x.result.length = x'.result.length
  nil {p p' : Progress} : L.start p p' → L.made ⟨p, [], p⟩ ⟨p', [], p'⟩
  append {p p' q q' r r' : Progress} {as as' bs bs' : List Act} :
    L.made ⟨p, as, q⟩ ⟨p', as', q'⟩ → L.made ⟨q, bs, r⟩ ⟨q', bs', r'⟩ →
    L.made ⟨p, as ++ bs, r⟩ ⟨p', as' ++ bs', r'⟩
  /-- The actions of a refused analysis are lost. -/
  lose {x x' : Run (List Act)} : L.made x x' → L.made { x with result := [] } { x' with result := [] }
  report {p p' : Progress} (r : Refused) : L.start p p' →
    L.made ⟨p, [], ((Collect.reportRefused r).outcome p).2⟩
      ⟨p', [], ((Collect.reportRefused r).outcome p').2⟩
  unchanged {p p' : Progress} (store : Store) : L.start p p' →
    L.changed store ⟨p, [], p⟩ ⟨p', [], p'⟩
  change {p p' q q' r r' : Progress} {as as' bs bs' : List Act} {store : Store} :
    L.changed store ⟨p, as, q⟩ ⟨p', as', q'⟩ → L.changed store ⟨q, bs, r⟩ ⟨q', bs', r'⟩ →
    L.changed store ⟨p, as ++ bs, r⟩ ⟨p', as' ++ bs', r'⟩
  made_of_changed {store : Store} {x x' : Run (List Act)} : L.changed store x x' → L.made x x'
  mutation {p p' : Progress} {kind : ActionKind} {value : Option Value} (store : Store)
    (path : String) : IsMutation kind value → L.start p p' →
    L.changed store ⟨p, [((Act.mutation kind store path value).outcome p).1],
        ((Act.mutation kind store path value).outcome p).2⟩
      ⟨p', [((Act.mutation kind store path value).outcome p').1],
        ((Act.mutation kind store path value).outcome p').2⟩
  transaction {p p' q q' : Progress} {as as' : List Act} {store : Store} :
    as ≠ [] → L.changed store ⟨p, as, q⟩ ⟨p', as', q'⟩ →
    L.changed store ⟨p, [((Act.transaction store as).outcome q).1],
        ((Act.transaction store as).outcome q).2⟩
      ⟨p', [((Act.transaction store as').outcome q').1],
        ((Act.transaction store as').outcome q').2⟩
  effect {p p' : Progress} {space : Namespace} {name : String} {shape : EffectShape}
    (payload : Fields Value) : space.effect? name = some shape → L.start p p' →
    L.made ⟨p, [((Act.effect shape.kind payload).outcome p).1],
        ((Act.effect shape.kind payload).outcome p).2⟩
      ⟨p', [((Act.effect shape.kind payload).outcome p').1],
        ((Act.effect shape.kind payload).outcome p').2⟩
  handler {p p' q q' : Progress} {as as' : List Act} :
    as ≠ [] → L.made ⟨p, as, q⟩ ⟨p', as', q'⟩ →
    L.made ⟨p, [((Act.single as).outcome q).1], ((Act.single as).outcome q).2⟩
      ⟨p', [((Act.single as').outcome q').1], ((Act.single as').outcome q').2⟩
  sequence {p p' q q' : Progress} {as as' : List Act} : L.made ⟨p, as, q⟩ ⟨p', as', q'⟩ →
    L.called ⟨p, ((Act.sequence as).outcome q).1, ((Act.sequence as).outcome q).2⟩
      ⟨p', ((Act.sequence as').outcome q').1, ((Act.sequence as').outcome q').2⟩
  behind {x x' : Run Act} : L.called x x' →
    L.made { x with result := [] } { x' with result := [] }
  request {p p' q q' t t' : Progress} {a a' b b' : Act} {arguments : List Node} {line : Nat}
    {props : List String} {r : Request} : Request.ofArguments arguments line props = .ok r →
    L.called ⟨p, a, q⟩ ⟨p', a', q'⟩ → L.called ⟨q, b, t⟩ ⟨q', b', t'⟩ →
    L.made ⟨p, [((Act.request r.payload a b).outcome t).1],
        ((Act.request r.payload a b).outcome t).2⟩
      ⟨p', [((Act.request r.payload a' b').outcome t').1],
        ((Act.request r.payload a' b').outcome t').2⟩
  choice {p p' q q' r r' : Progress} {as as' bs bs' : List Act} (c : Condition) :
    L.made ⟨p, as, q⟩ ⟨p', as', q'⟩ → L.made ⟨q, bs, r⟩ ⟨q', bs', r'⟩ →
    L.made ⟨p, [((Act.choice c.toValue as bs).outcome r).1],
        ((Act.choice c.toValue as bs).outcome r).2⟩
      ⟨p', [((Act.choice c.toValue as' bs').outcome r').1],
        ((Act.choice c.toValue as' bs').outcome r').2⟩
  selection {p p' q q' : Progress} {bs bs' : List (List Act)} {tests : List Value} (d : Value) :
    tests.length = bs.length → L.Branches ⟨p, bs, q⟩ ⟨p', bs', q'⟩ →
    L.made ⟨p, [((Act.selection d tests bs).outcome q).1],
        ((Act.selection d tests bs).outcome q).2⟩
      ⟨p', [((Act.selection d tests bs').outcome q').1],
        ((Act.selection d tests bs').outcome q').2⟩

/-- From states that are alike, a step makes actions that are alike. -/
def Collects (m : Collect (List Act)) : Prop :=
  ∀ p p', L.start p p' → L.made ⟨p, (m.outcome p).1, (m.outcome p).2⟩
    ⟨p', (m.outcome p').1, (m.outcome p').2⟩

/-- From states that are alike, an analysis ends alike. -/
def Analyses (m : Analysis α) (Q : Run α → Run α → Prop) : Prop :=
  ∀ p p', L.start p p' → L.Ends p p' Q (m.outcome p) (m.outcome p')

/-- Actions with the scope behind them. -/
def madeIn (x x' : Run (List Act × Scope)) : Prop :=
  x.result.2 = x'.result.2 ∧
    L.made ⟨x.before, x.result.1, x.after⟩ ⟨x'.before, x'.result.1, x'.after⟩

variable {L}

theorem Lawful.isEmpty_eq (hL : L.Lawful) {p p' q q' : Progress} {as as' : List Act}
    (h : L.made ⟨p, as, q⟩ ⟨p', as', q'⟩) : as.isEmpty = as'.isEmpty := by
  have hlen := hL.length_eq h
  cases as <;> cases as' <;> simp_all

theorem Ends.bind {m m' : Analysis α} {f f' : α → Analysis β} {p p' t t' : Progress}
    {M : Run α → Run α → Prop} {Q : Run β → Run β → Prop}
    (h : L.Ends p p' M (m.outcome t) (m'.outcome t'))
    (hf : ∀ a a' q q', M ⟨p, a, q⟩ ⟨p', a', q'⟩ →
      L.Ends p p' Q ((f a).outcome q) ((f' a').outcome q')) :
    L.Ends p p' Q ((m >>= f).outcome t) ((m' >>= f').outcome t') := by
  rw [outcome_bind, outcome_bind]
  rcases hm : m.outcome t with ⟨r | a, q⟩ <;> rcases hm' : m'.outcome t' with ⟨r' | a', q'⟩ <;>
    rw [hm, hm'] at h
  · exact h
  · exact h.elim
  · exact h.elim
  · exact hf a a' q q' h

/-- What ends alike behind actions that are alike does so from where these started. -/
theorem Ends.behind (hL : L.Lawful) {p p' q q' : Progress} {as as' : List Act}
    {Q : Run α → Run α → Prop} {x x' : Except Refused α × Progress}
    (hm : L.made ⟨p, as, q⟩ ⟨p', as', q'⟩) (h : L.Ends q q' Q x x') :
    L.Ends p p' (fun y y' => Q { y with before := q } { y' with before := q' }) x x' := by
  rcases x with ⟨r | a, t⟩ <;> rcases x' with ⟨r' | a', t'⟩
  · exact ⟨h.1, hL.append (hL.lose hm) h.2⟩
  · exact h.elim
  · exact h.elim
  · exact h

theorem ends_throw (hL : L.Lawful) {p p' : Progress} {Q : Run α → Run α → Prop} (r : Refused)
    (h : L.start p p') :
    L.Ends p p' Q ((throw r : Analysis α).outcome p) ((throw r : Analysis α).outcome p') :=
  ⟨rfl, hL.nil h⟩

/-- A reading is refused in both runs or in none. -/
theorem ends_bind_ofReading (hL : L.Lawful) {p p' : Progress} {Q : Run β → Run β → Prop}
    (x : Reading α) {f f' : α → Analysis β} (h : L.start p p')
    (hf : ∀ a, x = .ok a → L.Ends p p' Q ((f a).outcome p) ((f' a).outcome p')) :
    L.Ends p p' Q ((ofReading x >>= f).outcome p) ((ofReading x >>= f').outcome p') := by
  cases x with
  | error r => exact ends_throw hL r h
  | ok a => exact hf a rfl

theorem Analyses.orReport (hL : L.Lawful) {m : Analysis (List Act)} (h : L.Analyses m L.made) :
    L.Collects m.orReport := by
  intro p p' hp
  have hm := h p p' hp
  rw [outcome_orReport, outcome_orReport]
  rcases ho : m.outcome p with ⟨r | as, q⟩ <;> rcases ho' : m.outcome p' with ⟨r' | as', q'⟩ <;>
    rw [ho, ho'] at hm
  · obtain ⟨rfl, hm⟩ := hm
    exact hL.append hm (hL.report r (hL.next hm))
  · exact hm.elim
  · exact hm.elim
  · exact hm

theorem Collects.lift {m : Collect (List Act)} (h : L.Collects m) :
    L.Analyses (liftM m : Analysis (List Act)) L.made :=
  fun p p' hp => h p p' hp

/-- One action, as a list of one. -/
def madeOne (L : Likeness) (x x' : Run Act) : Prop :=
  L.made { x with result := [x.result] } { x' with result := [x'.result] }

section Steps

variable (hL : L.Lawful) {s : Scope}
include hL

theorem Collects.append {m k : Collect (List Act)} (hm : L.Collects m) (hk : L.Collects k) :
    L.Collects (do
      let as ← m
      let bs ← k
      return as ++ bs) := by
  intro p p' hp
  have ha := hm p p' hp
  exact hL.append ha (hk _ _ (hL.next ha))

theorem Analyses.append {m k : Analysis (List Act)} (hm : L.Analyses m L.made)
    (hk : L.Analyses k L.made) :
    L.Analyses (do
      let as ← m
      return as ++ (← k)) L.made := by
  intro p p' hp
  refine (hm p p' hp).bind fun as as' q q' ha => ?_
  refine ((hk q q' (hL.next ha)).behind hL ha).bind fun bs bs' r r' hb => ?_
  exact hL.append ha hb

theorem ends_conditionalAct {p p' q q' r r' : Progress} {as as' bs bs' : List Act} (test : Node)
    (ha : L.made ⟨p, as, q⟩ ⟨p', as', q'⟩) (hb : L.made ⟨q, bs, r⟩ ⟨q', bs', r'⟩) :
    L.Ends p p' L.madeOne ((conditionalAct s test as bs).outcome r)
      ((conditionalAct s test as' bs').outcome r') := by
  rw [outcome_conditionalAct, outcome_conditionalAct]
  cases s.tests.condition test with
  | error e => exact ⟨rfl, hL.append (hL.lose ha) (hL.lose hb)⟩
  | ok c => exact hL.choice c ha hb

theorem Branches.lost {x x' : Run (List (List Act))} (h : L.Branches x x') :
    L.made ⟨x.before, [], x.after⟩ ⟨x'.before, [], x'.after⟩ := by
  induction h with
  | nil hs => exact hL.nil hs
  | cons hm _ ih => exact hL.append (hL.lose hm) ih

theorem ends_switchAct {p p' q q' : Progress} {bs bs' : List (List Act)} (d : Node)
    {cases : List Node} (hlen : bs.length = cases.length)
    (h : L.Branches ⟨p, bs, q⟩ ⟨p', bs', q'⟩) :
    L.Ends p p' L.madeOne ((switchAct s d cases bs).outcome q)
      ((switchAct s d cases bs').outcome q') := by
  have hlost := h.lost hL
  rw [outcome_switchAct, outcome_switchAct]
  cases s.tests.operandValue d with
  | error e => exact ⟨rfl, hlost⟩
  | ok v =>
    cases ht : cases.mapM s.tests.caseValue with
    | error e => exact ⟨rfl, hlost⟩
    | ok tests => exact hL.selection v ((forall₂_of_mapM_ok ht).length_eq.symm.trans hlen.symm) h

/-- The two parts of a choice come behind each other; if both are empty, there is no choice. -/
theorem ends_choice {p p' q q' r r' : Progress} {as as' bs bs' : List Act} (test : Node)
    (ha : L.made ⟨p, as, q⟩ ⟨p', as', q'⟩) (hb : L.made ⟨q, bs, r⟩ ⟨q', bs', r'⟩) :
    L.Ends p p' L.made
      ((if as.isEmpty && bs.isEmpty then return []
        else return [← conditionalAct s test as bs] : Analysis (List Act)).outcome r)
      ((if as'.isEmpty && bs'.isEmpty then return []
        else return [← conditionalAct s test as' bs'] : Analysis (List Act)).outcome r') := by
  rw [hL.isEmpty_eq ha, hL.isEmpty_eq hb]
  split
  · exact hL.append (hL.lose ha) (hL.lose hb)
  · exact (ends_conditionalAct hL test ha hb).bind fun a a' t t' h => h

theorem analyses_effectAct (space : Namespace) (method : Option String) (arguments : List Node)
    (line : Nat) : L.Analyses (effectAct s space method arguments line) L.madeOne := by
  intro p p' hp
  unfold effectAct
  cases hn : method.filter (· ≠ "") with
  | none => exact ends_throw hL _ hp
  | some name =>
    simp only [Option.bind_some]
    cases hs : space.effect? name with
    | none => exact ends_throw hL _ hp
    | some shape =>
      exact ends_bind_ofReading hL _ hp fun payload _ => hL.effect payload hs hp

/-- One change of a store. -/
def changedOne (L : Likeness) (store : Store) (x x' : Run Act) : Prop :=
  L.changed store { x with result := [x.result] } { x' with result := [x'.result] }

theorem analyses_storeAction_mutation {store : Store} {method : String} {kind : ActionKind}
    {arguments : List Node} {line : Nat} (hk : storeMethod? method = some kind)
    (ht : kind ≠ .storeTransaction) :
    L.Analyses (storeAction s store (some method) arguments line) (L.changedOne store) := by
  intro p p' hp
  rw [storeAction_of_mutation hk ht]
  refine ends_bind_ofReading hL _ hp fun _ _ => ?_
  obtain ⟨r, hr⟩ | ⟨path, value, hv, hm⟩ :=
    outcome_mutationAct s store ("store." ++ method ++ "()") arguments line hk ht
  · rw [hr, hr]
    exact ends_throw hL r hp
  · rw [hm]
    exact hL.mutation store path hv hp

theorem analyses_storeAction_transaction {store : Store} {method : String} {arguments : List Node}
    {line : Nat} (hk : storeMethod? method = some .storeTransaction)
    (ht : ∀ t, Transaction.ofArguments arguments line = .ok t →
      L.Analyses (transactionActions ((s.function t.params).bind t.proxy (some store)) store t.proxy
        line t.statements) (L.changed store)) :
    L.Analyses (storeAction s store (some method) arguments line) (L.changedOne store) := by
  intro p p' hp
  rw [storeAction_of_transaction hk]
  refine ends_bind_ofReading hL _ hp fun _ _ => ?_
  refine ends_bind_ofReading hL _ hp fun t ho => ?_
  refine (ht t ho p p' hp).bind fun as as' q q' hc => ?_
  have hm := hL.made_of_changed hc
  have hlen := hL.length_eq hm
  cases as with
  | nil =>
    cases as' with
    | nil => exact ⟨rfl, hm⟩
    | cons => simp at hlen
  | cons a as =>
    cases as' with
    | nil => simp at hlen
    | cons a' as' => exact hL.transaction (List.cons_ne_nil a as) hc

def storeTraversal (store : Store) : StoreTraversal where
  storeAction s method arguments line :=
    L.Analyses (storeAction s store method arguments line) (L.changedOne store)
  transactionActions s proxy line ns :=
    L.Analyses (transactionActions s store proxy line ns) (L.changed store)

theorem steps_storeTraversal (store : Store) : (L.storeTraversal store).Steps store where
  unnamed s arguments line := by
    simp only [storeTraversal, storeAction]
    exact fun p p' hp => ends_throw hL _ hp
  unknown arguments line hk := by
    simp only [storeTraversal, storeAction, hk]
    exact fun p p' hp => ends_throw hL _ hp
  mutation arguments line hk ht := analyses_storeAction_mutation hL hk ht
  transaction ih := analyses_storeAction_transaction hL rfl ih
  nil s proxy line := by
    simp only [storeTraversal, transactionActions]
    exact fun p p' hp => hL.unchanged store hp
  change hc ihc ihm := by
    simp only [storeTraversal, transactionActions_of_mutation hc]
    intro p p' hp
    refine (ihc p p' hp).bind fun a a' q q' ha => ?_
    have hm := hL.made_of_changed ha
    refine ((ihm q q' (hL.next hm)).behind hL hm).bind fun as as' r r' has => ?_
    exact hL.change ha has
  foreign hn hm := by
    simp only [storeTraversal, transactionActions_of_none hn, if_pos hm]
    exact fun p p' hp => ends_throw hL _ hp
  quiet hn hm ih := by
    simp only [storeTraversal, transactionActions_of_none hn, if_neg hm]
    exact ih

/-- Changes of a store, in transactions of any depth. -/
theorem analyses_store (store : Store) :
    (∀ s method arguments line,
      L.Analyses (storeAction s store method arguments line) (L.changedOne store)) ∧
    ∀ s proxy line ns,
      L.Analyses (transactionActions s store proxy line ns) (L.changed store) :=
  (steps_storeTraversal hL store).everywhere

theorem analyses_handlerActions {params : List Node} {body : Node}
    (h : L.Analyses (functionActions s params body) L.made) :
    L.Analyses (handlerActions s params body) L.made := by
  intro p p' hp
  rw [handlerActions]
  refine (h p p' hp).bind fun as as' q q' ha => ?_
  have hlen := hL.length_eq ha
  cases as with
  | nil =>
    cases as' with
    | nil => exact ha
    | cons => simp at hlen
  | cons a as =>
    cases as' with
    | nil => simp at hlen
    | cons a' as' => exact hL.handler (List.cons_ne_nil a as) ha

theorem analyses_callActions_request {arguments : List Node} {line : Nat} {r : Request}
    (hr : Request.ofArguments arguments line s.props = .ok r)
    (hs : L.Analyses (callback s "onSuccess" r.onSuccess) L.called)
    (he : L.Analyses (callback s "onError" r.onError) L.called) :
    L.Analyses (callActions s (.effect .api (some "request")) arguments line) L.made := by
  intro p p' hp
  rw [callActions_of_request hr]
  refine (hs p p' hp).bind fun a a' q q' ha => ?_
  have hbehind := hL.behind ha
  refine ((he q q' (hL.next hbehind)).behind hL hbehind).bind fun b b' t t' hb => ?_
  exact hL.request hr ha hb

theorem analyses_callback {name : String} {n : Node} {params : List Node} {body : Node}
    (hf : functionOf? n = some (params, body))
    (h : L.Analyses (functionActions s params body) L.made) :
    L.Analyses (callback s name (some n)) L.called := by
  intro p p' hp
  rw [callback_of_functionOf? hf]
  exact (h p p' hp).bind fun as as' q q' ha => hL.sequence ha

theorem analyses_expression_binary {operator : String} {left right : Node}
    (hop : (operator = "&&" ∨ operator = "||") ∧ (!mentions s left) = true)
    (h : L.Analyses (expression s right) L.made) :
    L.Analyses (expression s (.binary operator left right)) L.made := by
  intro p p' hp
  rw [expression, if_pos hop]
  refine (h p p' hp).bind fun as as' q q' ha => ?_
  have hlen := hL.length_eq ha
  cases as with
  | nil =>
    cases as' with
    | nil => exact ha
    | cons => simp at hlen
  | cons a as =>
    cases as' with
    | nil => simp at hlen
    | cons a' as' =>
      dsimp only
      split
      · exact (ends_conditionalAct hL left (hL.nil hp) ha).bind fun _ _ _ _ h => h
      · exact (ends_conditionalAct hL left ha (hL.nil (hL.next ha))).bind fun _ _ _ _ h => h

theorem analyses_expression_ternary {test consequent alternate : Node} {line : Nat}
    (ht : ¬mentions s test = true) (hc : L.Analyses (expression s consequent) L.made)
    (ha : L.Analyses (expression s alternate) L.made) :
    L.Analyses (expression s
      (.unsupported "ternary_expression" [test, consequent, alternate] line)) L.made := by
  intro p p' hp
  rw [expression, if_neg ht]
  refine (hc p p' hp).bind fun as as' q q' has => ?_
  refine ((ha q q' (hL.next has)).behind hL has).bind fun bs bs' r r' hbs => ?_
  exact ends_choice hL test has hbs

theorem analyses_statements_cons {n : Node} {more : List Node}
    (hn : L.Analyses (statement s n) L.madeIn)
    (hm : ∀ t, L.Analyses (statements t more) L.made) :
    L.Analyses (statements s (n :: more)) L.made := by
  intro p p' hp
  rw [statements]
  refine (hn p p' hp).bind fun x x' q q' h => ?_
  obtain ⟨as, t⟩ := x
  obtain ⟨as', t'⟩ := x'
  obtain ⟨ht, ha⟩ := h
  obtain rfl : t = t' := ht
  refine ((hm t q q' (hL.next ha)).behind hL ha).bind fun bs bs' r r' hb => ?_
  exact hL.append ha hb

omit hL in
/-- Actions that leave the scope as it was. -/
theorem Analyses.inScope {m : Analysis (List Act)} (h : L.Analyses m L.made) :
    L.Analyses (do return (← m, s)) L.madeIn := by
  intro p p' hp
  exact (h p p' hp).bind fun as as' q q' ha => ⟨rfl, ha⟩

theorem analyses_statement_if {test consequent : Node} {alternate : Option Node}
    (hc : L.Analyses (statement s consequent) L.madeIn)
    (ha : ∀ t, L.Analyses (alternative t alternate) L.madeIn) :
    L.Analyses (statement s (.ifStatement test consequent alternate)) L.madeIn := by
  intro p p' hp
  rw [statement]
  refine (hc p p' hp).bind fun x x' q q' h => ?_
  obtain ⟨as, t⟩ := x
  obtain ⟨as', t'⟩ := x'
  obtain ⟨ht, has⟩ := h
  obtain rfl : t = t' := ht
  refine ((ha t q q' (hL.next has)).behind hL has).bind fun y y' r r' h => ?_
  obtain ⟨bs, u⟩ := y
  obtain ⟨bs', u'⟩ := y'
  obtain ⟨hu, hbs⟩ := h
  obtain rfl : u = u' := hu
  dsimp only
  rw [hL.isEmpty_eq has, hL.isEmpty_eq hbs]
  split
  · exact ⟨rfl, hL.append (hL.lose has) (hL.lose hbs)⟩
  · exact (ends_conditionalAct hL test has hbs).bind fun a a' v v' h => ⟨rfl, h⟩

theorem analyses_statement_switch {discriminant : Node} {cases : List Node}
    (hb : mentions s (.switchStatement discriminant cases) = true →
      cases.any (fun c => (caseFlow? (caseBody c)).isNone) = false →
        L.Analyses (branchActions s cases)
          fun x x' => x.result.length = cases.length ∧ L.Branches x x') :
    L.Analyses (statement s (.switchStatement discriminant cases)) L.madeIn := by
  intro p p' hp
  rw [statement]
  split
  · exact ⟨rfl, hL.nil hp⟩
  · split
    · exact ends_throw hL _ hp
    · refine (hb (by simp_all) (by simp_all) p p' hp).bind fun bs bs' q q' h => ?_
      obtain ⟨hlen, hbs⟩ := h
      exact (ends_switchAct hL discriminant hlen hbs).bind fun a a' r r' h => ⟨rfl, h⟩

theorem analyses_branchActions_cons {c : Node} {more run : List Node}
    (hr : caseRun? (c :: more) = some run)
    (hf : L.Analyses (statements (s.child.hoist run) run) L.made)
    (hm : L.Analyses (branchActions s more)
      fun x x' => x.result.length = more.length ∧ L.Branches x x') :
    L.Analyses (branchActions s (c :: more))
      fun x x' => x.result.length = (c :: more).length ∧ L.Branches x x' := by
  intro p p' hp
  rw [branchActions_of_caseRun? hr]
  refine (hf p p' hp).bind fun as as' q q' ha => ?_
  refine ((hm q q' (hL.next ha)).behind hL ha).bind fun bs bs' r r' ⟨hlen, hb⟩ => ?_
  exact ⟨congrArg (· + 1) hlen, .cons ha hb⟩

end Steps

/-- What two runs of the walk and of the analyses under it have in common. -/
def traversal (L : Likeness) : Traversal where
  walk s n := L.Collects (walk s n)
  walkAll s ns := L.Collects (walkAll s ns)
  walkFunction s params body := L.Collects (walkFunction s params body)
  walkAttributes s ns := L.Collects (walkAttributes s ns)
  walkAttribute s n := L.Collects (walkAttribute s n)
  handlerActions s params body := L.Analyses (handlerActions s params body) L.made
  callActions s call arguments line := L.Analyses (callActions s call arguments line) L.made
  callback s name n := L.Analyses (callback s name n) L.called
  functionActions s params body := L.Analyses (functionActions s params body) L.made
  statements s ns := L.Analyses (statements s ns) L.made
  statement s n := L.Analyses (statement s n) L.madeIn
  alternative s n := L.Analyses (alternative s n) L.madeIn
  initialisers s ns := L.Analyses (initialisers s ns) L.made
  branchActions s cases := L.Analyses (branchActions s cases)
    fun x x' => x.result.length = cases.length ∧ L.Branches x x'
  expression s n := L.Analyses (expression s n) L.made
  plainActions s n := L.Analyses (plainActions s n) L.made

section Traversal

variable (hL : L.Lawful)

include hL

theorem traversal_search : L.traversal.Search where
  function hf ih := by simpa only [traversal, walk_of_function? hf] using ih
  block ih := by simpa only [traversal, walk] using ih
  element ihattributes ihchildren := by
    simpa only [traversal, walk] using ihattributes.append hL ihchildren
  call hc ih := by simpa only [traversal, walk_of_classify hc] using ih.orReport hL
  ordinary hc ih := by simpa only [traversal, walk_of_classify_eq_none hc] using ih
  passed hn ih := by simpa only [traversal, walk_of_isPassed hn] using ih
  nil s := by
    simp only [traversal, walkAll]
    exact fun p p' hp => hL.nil hp
  cons ihn ihm := by simpa only [traversal, walkAll] using ihn.append hL ihm
  body_block ih := by simpa only [traversal, walkFunction] using ih
  body_expression he ih := by simpa only [traversal, walkFunction_of_expression he] using ih
  attributes_nil s := by
    simp only [traversal, walkAttributes]
    exact fun p p' hp => hL.nil hp
  attributes_cons ihn ihm := by simpa only [traversal, walkAttributes] using ihn.append hL ihm
  handler hn ih := by simpa only [traversal, walkAttribute_of_handler? hn] using ih.orReport hL
  «attribute» hn ih := by simpa only [traversal, walkAttribute_of_none hn] using ih

theorem traversal_calls : L.traversal.Calls where
  silent arguments line hc := by
    simp only [traversal, callActions_of_isAction_eq_false hc]
    exact fun p p' hp => hL.nil hp
  mutation s store method arguments line p p' hp := by
    simp only [callActions]
    exact ((analyses_store hL store).1 s method arguments line p p' hp).bind
      fun a a' q q' ha => hL.made_of_changed ha
  refused hr := by
    simp only [traversal, callActions_of_refused hr]
    exact fun p p' hp => ends_throw hL _ hp
  request hr ihs ihe := analyses_callActions_request hL hr ihs ihe
  unknown arguments line hm p p' hp := by
    rw [callActions, if_neg hm]
    exact ends_throw hL _ hp
  effect method arguments line hs p p' hp := by
    rw [callActions] <;> try assumption
    exact (analyses_effectAct hL _ method arguments line p p' hp).bind fun a a' q q' ha => ha
  missing s name := by
    simp only [traversal, callback]
    exact fun p p' hp => hL.sequence (hL.nil hp)
  callback name hf ih := analyses_callback hL hf ih
  other name hf := by
    simp only [traversal, callback_of_none hf]
    exact fun p p' hp => ends_throw hL _ hp

theorem traversal_expressions : L.traversal.Expressions where
  held hn ih := by simpa only [traversal, expression_of_held? hn] using ih
  guarded hop ih := analyses_expression_binary hL hop ih
  unguarded hop ih := by simpa only [traversal, expression, if_neg hop] using ih
  ternary ht ihc iha := analyses_expression_ternary hL ht ihc iha
  active ht ih := by simpa only [traversal, expression, if_pos ht] using ih
  searched hn ih := by simpa only [traversal, expression_of_isSearched hn] using ih
  nested hn := by
    simp only [traversal, plainActions_of_nestedFunction? hn]
    exact fun p p' hp => ends_throw hL _ hp
  plain hn ih := by simpa only [traversal, plainActions_of_none hn] using ih.lift

theorem traversal_statements : L.traversal.Statements where
  handler ih := analyses_handlerActions hL ih
  body_block ih := by simpa only [traversal, functionActions] using ih
  body_expression he ih := by simpa only [traversal, functionActions_of_expression he] using ih
  nil s := by
    simp only [traversal, statements]
    exact fun p p' hp => hL.nil hp
  cons ihn ihm := analyses_statements_cons hL ihn ihm
  expression ih := by simpa only [traversal, statement] using ih.inScope
  returned ih := by simpa only [traversal, statement] using ih.inScope
  bare_return s := by
    simp only [traversal, statement]
    exact fun p p' hp => ⟨rfl, hL.nil hp⟩
  declaration ih := by simpa only [traversal, statement] using ih.inScope
  block ih := by simpa only [traversal, statement] using ih.inScope
  choice ihc iha := analyses_statement_if hL ihc iha
  switch ih := analyses_statement_switch hL ih
  leave s := by
    simp only [traversal, statement]
    exact fun p p' hp => ⟨rfl, hL.nil hp⟩
  formless hn := by
    simp only [traversal, statement_of_isFormless hn]
    split
    · exact fun p p' hp => ends_throw hL _ hp
    · exact fun p p' hp => ⟨rfl, hL.nil hp⟩
  alternative_none s := by
    simp only [traversal, alternative]
    exact fun p p' hp => ⟨rfl, hL.nil hp⟩
  alternative_some ih := by simpa only [traversal, alternative] using ih
  initialisers_nil s := by
    simp only [traversal, initialisers]
    exact fun p p' hp => hL.nil hp
  initialiser hn ihe ihm := by
    simpa only [traversal, initialisers_of_initialiser? hn] using ihe.append hL ihm
  uninitialised hn ih := by simpa only [traversal, initialisers_of_none hn] using ih
  branches_nil s := by
    simp only [traversal, branchActions]
    exact fun p p' hp => ⟨rfl, .nil hp⟩
  endless hr := by
    simp only [traversal, branchActions_of_none hr]
    exact fun p p' hp => ends_throw hL _ hp
  branch hr ihf ihm := analyses_branchActions_cons hL hr ihf ihm

end Traversal

/-- A likeness that every step keeps is kept by the walk as a whole. -/
theorem Lawful.everywhere (hL : L.Lawful) : L.traversal.Everywhere :=
  Traversal.everywhere (traversal_search hL) (traversal_calls hL) (traversal_expressions hL)
    (traversal_statements hL)

/-- The likeness of a run with itself, where the actions that it makes, the changes of a store and
the sequences behind requests have a property each. -/
def same (P : Act → Prop) (T : Store → Act → Prop) (C : Act → Prop) : Likeness where
  start := Eq
  made x x' := x = x' ∧ ∀ a ∈ x.result, P a
  changed store x x' := x = x' ∧ ∀ a ∈ x.result, T store a
  called x x' := x = x' ∧ C x.result

/-- Properties of actions that every step keeps. -/
structure Closed (P : Act → Prop) (T : Store → Act → Prop) (C : Act → Prop) : Prop where
  made_of_changed (store : Store) (a : Act) : T store a → P a
  mutation (p : Progress) {kind : ActionKind} {value : Option Value} (store : Store)
    (path : String) : IsMutation kind value →
    T store ((Act.mutation kind store path value).outcome p).1
  transaction (p : Progress) {store : Store} {as : List Act} : as ≠ [] → (∀ a ∈ as, T store a) →
    T store ((Act.transaction store as).outcome p).1
  effect (p : Progress) (payload : Fields Value) {space : Namespace} {name : String}
    {shape : EffectShape} : space.effect? name = some shape →
    P ((Act.effect shape.kind payload).outcome p).1
  handler (p : Progress) {as : List Act} : as ≠ [] → (∀ a ∈ as, P a) →
    P ((Act.single as).outcome p).1
  sequence (p : Progress) {as : List Act} : (∀ a ∈ as, P a) → C ((Act.sequence as).outcome p).1
  request (p : Progress) {a b : Act} {arguments : List Node} {line : Nat} {props : List String}
    {r : Request} : Request.ofArguments arguments line props = .ok r → C a → C b →
    P ((Act.request r.payload a b).outcome p).1
  choice (p : Progress) (c : Condition) {as bs : List Act} : (∀ a ∈ as, P a) → (∀ b ∈ bs, P b) →
    P ((Act.choice c.toValue as bs).outcome p).1
  selection (p : Progress) (d : Value) {tests : List Value} {bs : List (List Act)} :
    tests.length = bs.length → (∀ as ∈ bs, ∀ a ∈ as, P a) →
    P ((Act.selection d tests bs).outcome p).1

section Same

variable {P : Act → Prop} {T : Store → Act → Prop} {C : Act → Prop}

theorem Branches.of_same {x x' : Run (List (List Act))} (h : (same P T C).Branches x x') :
    x = x' ∧ ∀ as ∈ x.result, ∀ a ∈ as, P a := by
  induction h with
  | nil hs =>
    cases hs
    exact ⟨rfl, by simp⟩
  | cons hm _ ih =>
    obtain ⟨hx, hP⟩ := hm
    obtain ⟨hy, hQ⟩ := ih
    cases hx
    cases hy
    exact ⟨rfl, List.forall_mem_cons.2 ⟨hP, hQ⟩⟩

theorem madeOne_same {p q : Progress} {a : Act} (h : P a) :
    (same P T C).made ⟨p, [a], q⟩ ⟨p, [a], q⟩ :=
  ⟨rfl, List.forall_mem_singleton.2 h⟩

theorem Closed.lawful (h : Closed P T C) : (same P T C).Lawful where
  next hm := by rw [hm.1]; rfl
  length_eq hm := by rw [hm.1]
  nil hp := by
    cases hp
    exact ⟨rfl, by simp⟩
  append ha hb := by
    obtain ⟨hx, hP⟩ := ha
    obtain ⟨hy, hQ⟩ := hb
    cases hx
    cases hy
    exact ⟨rfl, List.forall_mem_append.2 ⟨hP, hQ⟩⟩
  lose hm := ⟨by rw [hm.1], by simp⟩
  report r hp := by
    cases hp
    exact ⟨rfl, by simp⟩
  unchanged store hp := by
    cases hp
    exact ⟨rfl, by simp⟩
  change ha hb := by
    obtain ⟨hx, hP⟩ := ha
    obtain ⟨hy, hQ⟩ := hb
    cases hx
    cases hy
    exact ⟨rfl, List.forall_mem_append.2 ⟨hP, hQ⟩⟩
  made_of_changed hc := ⟨hc.1, fun a ha => h.made_of_changed _ a (hc.2 a ha)⟩
  mutation store path hv hp := by
    cases hp
    exact ⟨rfl, List.forall_mem_singleton.2 (h.mutation _ store path hv)⟩
  transaction hne hc := by
    obtain ⟨hx, hT⟩ := hc
    cases hx
    exact ⟨rfl, List.forall_mem_singleton.2 (h.transaction _ hne hT)⟩
  effect payload hs hp := by
    cases hp
    exact madeOne_same (h.effect _ payload hs)
  handler hne hm := by
    obtain ⟨hx, hP⟩ := hm
    cases hx
    exact madeOne_same (h.handler _ hne hP)
  sequence hm := by
    obtain ⟨hx, hP⟩ := hm
    cases hx
    exact ⟨rfl, h.sequence _ hP⟩
  behind hc := ⟨by rw [hc.1], by simp⟩
  request hr ha hb := by
    obtain ⟨hx, hC⟩ := ha
    obtain ⟨hy, hD⟩ := hb
    cases hx
    cases hy
    exact madeOne_same (h.request _ hr hC hD)
  choice c ha hb := by
    obtain ⟨hx, hP⟩ := ha
    obtain ⟨hy, hQ⟩ := hb
    cases hx
    cases hy
    exact madeOne_same (h.choice _ c hP hQ)
  selection d hlen hb := by
    obtain ⟨hx, hP⟩ := hb.of_same
    cases hx
    exact madeOne_same (h.selection _ d hlen hP)

/-- A property that every step keeps holds of all that a walk through a program finds. -/
theorem Closed.collectActions (h : Closed P T C) (body : List Node) (p : Progress) :
    ∀ a ∈ ((collectActions body).outcome p).1, P a :=
  (h.lawful.everywhere.walkAll (Scope.module.hoist body) body _ _ rfl).2

end Same

end Likeness

end Scenario

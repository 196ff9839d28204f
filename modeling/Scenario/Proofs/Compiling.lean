import Scenario.Proofs.Inert
import Scenario.Proofs.WellFormed

namespace Scenario

open Syntax Analysis Scenario.Action

variable {σ : Type} (r : Runtime σ) {s : Scope}

theorem Runtime.runAll_of_chooses {test : Node} {as bs out : List Act}
    (h : Chooses s test as bs out) (x : σ) :
    r.runAll (eraseAll out) x =
      if r.test s test x then r.runAll (eraseAll as) x else r.runAll (eraseAll bs) x := by
  obtain ⟨rfl, rfl, rfl⟩ | ⟨c, hc, hout⟩ := h
  · simp
  · simp [hout, Runtime.test, hc]

theorem ActionKind.isControl_of_isStore {kind : ActionKind} (h : kind.isStore = true) :
    kind.isControl = false := by
  cases kind <;> simp [isStore, isControl] at h ⊢

theorem ActionKind.isControl_of_isComposite {kind : ActionKind} (h : kind.isComposite = false) :
    kind.isControl = false := by
  cases kind <;> simp [isComposite, isControl] at h ⊢

theorem isControl_of_storeAction {store : Store} {method : Option String} {arguments : List Node}
    {line : Nat} {p q : Progress} {a : Act}
    (h : (storeAction s store method arguments line).outcome p = (.ok a, q)) :
    a.kind.isControl = false := by
  have hends := (Likeness.analyses_store closed_wellFormed.lawful store).1 s method arguments line
    p p rfl
  rw [h] at hends
  obtain ⟨hstore, -⟩ := hends.2 a (List.mem_singleton_self a)
  obtain ⟨hkind, -, -, -⟩ := hstore
  exact ActionKind.isControl_of_isStore hkind

/-- A call that is an action gives one, and it is none that only says which others are run. -/
theorem exists_of_callActions {call : Call} {arguments : List Node} {line : Nat} {p q : Progress}
    {out : List Act} (ha : call.isAction = true)
    (h : (callActions s call arguments line).outcome p = (.ok out, q)) :
    ∃ a, out = [a] ∧ a.kind.isControl = false := by
  cases call with
  | declaration => simp [Call.isAction] at ha
  | read store => simp [Call.isAction] at ha
  | mutation store method =>
    rw [callActions] at h
    obtain ⟨a, t, hm, h⟩ := of_outcome_bind_ok h
    cases h
    exact ⟨a, rfl, isControl_of_storeAction hm⟩
  | effect space method =>
    by_cases hs : space = .api
    · subst hs
      by_cases hm : method = some "request"
      · subst hm
        cases hr : Request.ofArguments arguments line s.props with
        | error e =>
          rw [callActions_of_refused hr] at h
          cases h
        | ok request =>
          rw [callActions_of_request hr] at h
          obtain ⟨onSuccess, t, -, h⟩ := of_outcome_bind_ok h
          obtain ⟨onError, u, -, h⟩ := of_outcome_bind_ok h
          obtain ⟨a, v, hrequest, h⟩ := of_outcome_bind_ok h
          cases hrequest
          cases h
          exact ⟨_, rfl, rfl⟩
      · rw [callActions, if_neg hm] at h
        cases h
    · rw [callActions] at h
      · obtain ⟨a, t, he, h⟩ := of_outcome_bind_ok h
        cases h
        obtain ⟨name, shape, payload, u, -, hshape, -, rfl⟩ := of_outcome_effectAct he
        have hcomposite := (Namespace.isEffect_of_effect? hshape).2
        exact ⟨_, rfl, ActionKind.isControl_of_isComposite hcomposite⟩
      · exact hs

/-- A change of a store at a path is compiled to itself. -/
theorem change?_of_mutation {store : Store} {method : String} {kind : ActionKind}
    {arguments : List Node} {line : Nat} {a : Act} (hk : storeMethod? method = some kind)
    (ht : kind ≠ .storeTransaction)
    (h : (storeAction s store (some method) arguments line).Accepts a) :
    change? s store (some method) arguments line = some a.erase := by
  obtain ⟨key, path, hkey, hchange⟩ := accepts_mutation hk ht h
  obtain ⟨rfl, rfl, ha⟩ | ⟨hr, value, rfl, hspread, ha⟩ := hchange
  · obtain rfl : method = "remove" := by
      unfold storeMethod? at hk
      split at hk <;> simp_all
    simp [change?, hkey, ha]
  · obtain ⟨rfl, rfl⟩ | ⟨rfl, rfl⟩ : method = "set" ∧ kind = .storeSet ∨
        method = "merge" ∧ kind = .storeMerge := by
      unfold storeMethod? at hk
      split at hk <;> simp_all
    · simp [change?, hkey, argument?, hspread, ha]
    · simp [change?, hkey, argument?, hspread, ha]

mutual

/-- A change of a store is compiled to what it does. -/
theorem change?_of_accepts {s : Scope} {store : Store} {method : Option String}
    {arguments : List Node} {line : Nat} {a : Act}
    (h : (storeAction s store method arguments line).Accepts a) :
    change? s store method arguments line = some a.erase := by
  cases method with
  | none =>
    rw [storeAction] at h
    exact (not_accepts_throw h).elim
  | some method =>
    cases hk : storeMethod? method with
    | none =>
      rw [storeAction] at h
      simp only [hk] at h
      exact (not_accepts_throw h).elim
    | some kind =>
      by_cases ht : kind = .storeTransaction
      · obtain rfl := eq_of_storeMethod?_transaction (ht ▸ hk)
        obtain ⟨t, as, hof, has, hne, ha⟩ := accepts_transaction h
        rw [change?_of_transaction hof, changes?_of_accepts has, ha]
        cases as with
        | nil => exact (hne rfl).elim
        | cons b more => rfl
      · exact change?_of_mutation hk ht h
termination_by (weight arguments, 0)
decreasing_by exact Prod.Lex.left _ _ (Transaction.weight_statements_lt hof)

theorem changes?_of_accepts {s : Scope} {store : Store} {proxy : String} {line : Nat}
    {ns : List Node} {out : List Act}
    (h : (transactionActions s store proxy line ns).Accepts out) :
    changes? s store proxy ns = some (eraseAll out) := by
  match ns, h with
  | [], h =>
    rw [accepts_transactionActions_nil h, changes?]
    rfl
  | n :: more, h =>
    obtain ⟨c, a, as, hn, ha, has, rfl⟩ | ⟨hn, -, has⟩ := accepts_transactionActions_cons h
    · rw [changes?_of_mutation hn, change?_of_accepts ha, changes?_of_accepts has]
      rfl
    · rw [changes?_of_none hn]
      exact changes?_of_accepts has
termination_by (weight ns, 1)
decreasing_by
  · exact Prod.Lex.left _ _ (by have := weight_arguments_lt hn; simp; omega)
  · exact Prod.Lex.left _ _ (by have := n.one_le_sizeOf; simp; omega)
  · exact Prod.Lex.left _ _ (by have := n.one_le_sizeOf; simp; omega)

end

/-- What follows a request does not depend on what was made before it. -/
theorem following?_of_accepts {name : String} {n : Option Node} {a : Act}
    (h : (callback s name n).Accepts a) : following? s name n = some a.erase := by
  obtain ⟨p, q, ho, -⟩ := h
  have hends := agrees.callback s name n p {} trivial
  rw [ho] at hends
  unfold following?
  rcases ho' : (callback s name n).outcome {} with ⟨e | b, q'⟩
  · rw [ho'] at hends
    exact hends.elim
  · rw [ho'] at hends
    exact congrArg some hends.1.symm

/-- A call that is an action is compiled to what it does, and that is none of the actions that only
say which others are run. -/
theorem action?_of_accepts {arguments : List Node} {line : Nat} {call : Call} {out : List Act}
    (ha : call.isAction = true) (h : (callActions s call arguments line).Accepts out) :
    ∃ a, eraseAll out = [a] ∧ a.kind.isControl = false ∧ call.action? s arguments line = some a := by
  obtain ⟨a, rfl, hkind⟩ : ∃ a, out = [a] ∧ a.kind.isControl = false := by
    obtain ⟨p, q, ho, -⟩ := h
    exact exists_of_callActions ha ho
  refine ⟨a.erase, rfl, by rwa [kind_erase], ?_⟩
  cases call with
  | declaration => simp [Call.isAction] at ha
  | read store => simp [Call.isAction] at ha
  | mutation store method =>
    rw [callActions] at h
    obtain ⟨b, hb, h⟩ := accepts_bind (grows_storeAction s store method arguments line)
      (fun _ => grows_pure _) h
    cases accepts_pure h
    exact change?_of_accepts hb
  | effect space method =>
    by_cases hs : space = .api
    · subst hs
      by_cases hm : method = some "request"
      · subst hm
        obtain ⟨r, b, c, hr, hb, hc, hout⟩ := accepts_request h
        rw [Call.action?, hr]
        dsimp only
        rw [following?_of_accepts hb, following?_of_accepts hc]
        exact (congrArg List.head? hout).symm
      · rw [callActions, if_neg hm] at h
        exact (not_accepts_throw h).elim
    · obtain ⟨name, shape, payload, rfl, hshape, hpayload, hout⟩ := accepts_effect hs h
      rw [Call.action?, hshape, Option.bind_some, hpayload]
      · exact (congrArg List.head? hout).symm
      · exact fun hapi _ => hs hapi

/-- A call that is an action is compiled by itself, whatever is passed to it. -/
theorem expression_of_isAction {callee : Node} {arguments : List Node} {line : Nat} {call : Call}
    (hc : s.classify callee = some call) (ha : call.isAction = true) :
    expression s (.call callee arguments line) =
      liftM (callActions s call arguments line).orReport := by
  have haction : s.isActionCall (.call callee arguments line) = true := by
    simp [Scope.isActionCall, hc, ha]
  have hnested : nestedFunction? s (.call callee arguments line) = none := by
    unfold nestedFunction?
    rw [if_pos haction]
  rw [expression, plainActions, hnested]
  · dsimp only
    rw [walk]
    simp only [hc]
  all_goals simp

/-- A short form that nothing hides is an effect of its namespace. -/
theorem expression_of_shortForm? {name method : String} {space : Namespace} {arguments : List Node}
    {line : Nat} (h : shortForm? name = some (space, method)) (hspace : space ≠ .api)
    (hs : s.isBound name = false) :
    expression s (.call (.identifier name) arguments line) =
      liftM (do return [← effectAct s space (some method) arguments line] :
        Analysis (List Act)).orReport := by
  have hstore : name ≠ "store" := by
    rintro rfl
    have hnone : shortForm? "store" = none := by decide
    rw [hnone] at h
    cases h
  have hc : s.classify (.identifier name) = some (.effect space (some method)) := by
    simp [Scope.classify, Callee.isStoreFactory, Callee.identifier?, Node.unwrap, hstore, hs, h]
  rw [expression_of_isAction hc rfl, callActions]
  exact hspace

/-- Expressions that are actions, or choices between such, or that have no actions in them. -/
inductive Effect (s : Scope) : Node → Prop where
  | action {callee : Node} {arguments : List Node} {line : Nat} :
    s.isActionCall (.call callee arguments line) = true → Effect s (.call callee arguments line)
  | inert {n : Node} : Inert s n → Effect s n
  | parenthesized {e : Node} : Effect s e → Effect s (.parenthesized e)
  | assertion {e : Node} : Effect s e → Effect s (.assertion e)
  | await {e : Node} : Effect s e → Effect s (.await e)
  | junction {operator : String} {left right : Node} : operator = "&&" ∨ operator = "||" →
    mentions s left = false → Effect s right → Effect s (.binary operator left right)
  | ternary {test consequent alternate : Node} {line : Nat} : mentions s test = false →
    Effect s consequent → Effect s alternate →
    Effect s (.unsupported "ternary_expression" [test, consequent, alternate] line)

/-- What an expression is compiled to does what the expression does. -/
theorem Runtime.runAll_expression {e : Node} {out : List Act} (he : Effect s e)
    (h : (expression s e).Accepts out) (x : σ) : r.runAll (eraseAll out) x = r.eval s e x := by
  induction he generalizing out x with
  | @action callee arguments line ha =>
    obtain ⟨call, hc, hcall⟩ : ∃ call, s.classify callee = some call ∧ call.isAction = true := by
      simpa [Scope.isActionCall, Option.any_eq_true] using ha
    rw [expression_of_isAction hc hcall] at h
    obtain ⟨a, hout, hkind, haction⟩ := action?_of_accepts hcall
      (accepts_orReport (grows_callActions s call arguments line) h)
    rw [hout, Runtime.eval, hc, Option.bind_some, haction]
    exact r.run_of_isControl_eq_false hkind x
  | inert hn =>
    rw [hn.expression_eq_nil] at h
    rw [accepts_pure h, r.eval_of_mentions_eq_false hn.mentions_eq_false]
    rfl
  | parenthesized _ ih =>
    rw [expression] at h
    exact ih h x
  | assertion _ ih =>
    rw [expression] at h
    exact ih h x
  | await _ ih =>
    rw [expression] at h
    exact ih h x
  | @junction operator left right hop hl _ ih =>
    obtain ⟨as, ha, hc⟩ := accepts_junction hop hl h
    rcases hop with rfl | rfl
    · rw [if_neg (by decide)] at hc
      rw [r.runAll_of_chooses hc, ih ha]
      simp [Runtime.eval]
    · rw [if_pos rfl] at hc
      rw [r.runAll_of_chooses hc, ih ha]
      simp [Runtime.eval]
  | ternary ht _ _ ihc iha =>
    obtain ⟨as, bs, ha, hb, hc⟩ := accepts_ternary ht h
    rw [r.runAll_of_chooses hc, ihc ha, iha hb, Runtime.eval]

/-- What a statement is compiled to does the given to a state, and the scope stays as it is. -/
def Compiles (r : Runtime σ) (s : Scope) (n : Node) (f : σ → σ) : Prop :=
  ∀ out t, (statement s n).Accepts (out, t) → t = s ∧ ∀ x, r.runAll (eraseAll out) x = f x

def CompilesAll (r : Runtime σ) (s : Scope) (ns : List Node) (f : σ → σ) : Prop :=
  ∀ out, (statements s ns).Accepts out → ∀ x, r.runAll (eraseAll out) x = f x

def CompilesOption (r : Runtime σ) (s : Scope) : Option Node → (σ → σ) → Prop
  | none, f => ∀ x, f x = x
  | some n, f => Compiles r s n f

section Compiles

variable {r : Runtime σ} {f g : σ → σ}

theorem CompilesAll.congr {ns : List Node} (h : CompilesAll r s ns f) (hfg : ∀ x, f x = g x) :
    CompilesAll r s ns g :=
  fun out ho x => (h out ho x).trans (hfg x)

theorem compiles_expression {e : Node} (h : Effect s e) :
    Compiles r s (.expressionStatement e) (r.eval s e) := by
  intro out t ho
  obtain ⟨ho, rfl⟩ := accepts_expressionStatement ho
  exact ⟨rfl, r.runAll_expression h ho⟩

theorem compiles_return {e : Node} (h : Effect s e) :
    Compiles r s (.returnStatement (some e)) (r.eval s e) := by
  intro out t ho
  obtain ⟨ho, rfl⟩ := accepts_returnStatement ho
  exact ⟨rfl, r.runAll_expression h ho⟩

theorem compiles_return_none : Compiles r s (.returnStatement none) id := by
  intro out t ho
  obtain ⟨rfl, rfl⟩ := accepts_returnStatement_none ho
  exact ⟨rfl, fun x => rfl⟩

theorem compiles_break : Compiles r s .breakStatement id := by
  intro out t ho
  obtain ⟨rfl, rfl⟩ := accepts_breakStatement ho
  exact ⟨rfl, fun x => rfl⟩

theorem compilesAll_nil : CompilesAll r s [] id := by
  intro out ho x
  rw [accepts_statements_nil ho]
  rfl

theorem compilesAll_cons {n : Node} {more : List Node} (hn : Compiles r s n f)
    (hmore : CompilesAll r s more g) : CompilesAll r s (n :: more) (g ∘ f) := by
  intro out ho x
  obtain ⟨first, t, rest, hfirst, hrest, rfl⟩ := accepts_statements_cons ho
  obtain ⟨rfl, hf⟩ := hn first t hfirst
  have hg := hmore rest hrest
  rw [eraseAll_append, Runtime.runAll_append, hf, hg]
  rfl

theorem compiles_block {body : List Node} (hs : s.child.hoist body = s)
    (h : CompilesAll r s body f) : Compiles r s (.block body) f := by
  intro out t ho
  obtain ⟨ho, rfl⟩ := accepts_block ho
  rw [hs] at ho
  exact ⟨rfl, h out ho⟩

theorem compiles_choice {test consequent : Node} {alternate : Option Node}
    (hc : Compiles r s consequent f) (ha : CompilesOption r s alternate g) :
    Compiles r s (.ifStatement test consequent alternate)
      fun x => if r.test s test x then f x else g x := by
  intro out t ho
  obtain ⟨as, u, bs, has, hbs, hchoice⟩ := accepts_ifStatement ho
  obtain ⟨rfl, hf⟩ := hc as u has
  have hsecond : t = u ∧ ∀ x, r.runAll (eraseAll bs) x = g x := by
    cases alternate with
    | none =>
      obtain ⟨rfl, rfl⟩ := accepts_alternative_none hbs
      exact ⟨rfl, fun x => (ha x).symm⟩
    | some n =>
      rw [alternative] at hbs
      exact ha bs t hbs
  obtain ⟨rfl, hg⟩ := hsecond
  refine ⟨rfl, fun x => ?_⟩
  rw [r.runAll_of_chooses hchoice, hf, hg]

end Compiles

theorem Scope.child_of_isModule_eq_false {s : Scope} (h : s.isModule = false) : s.child = s := by
  cases s
  simp_all [Scope.child]

theorem hoist_append (s : Scope) (ns more : List Node) :
    s.hoist (ns ++ more) = (s.hoist ns).hoist more :=
  List.foldl_append

/-- Statements without declarations leave the scope as it is. -/
theorem hoist_eq_self {ns : List Node} (h : ∀ n ∈ ns, s.hoistStatement n = s) : s.hoist ns = s := by
  induction ns with
  | nil => rfl
  | cons n ns ih =>
    change (s.hoistStatement n).hoist ns = s
    rw [h n List.mem_cons_self]
    exact ih fun m hm => h m (List.mem_cons_of_mem n hm)

section Functions

variable {r : Runtime σ}

theorem isModule_function (s : Scope) (params : List Node) : (s.function params).isModule = false := by
  have hbind : ∀ (names : List String) (t : Scope), (t.bindAll names).isModule = t.isModule := by
    intro names
    induction names with
    | nil => exact fun t => rfl
    | cons name more ih => exact fun t => ih (t.bind name none)
  exact hbind _ _

/-- A handler that is compiled without a report does what the actions of its body do. -/
theorem runAll_walkAttribute {n body : Node} {params : List Node} {p : Progress}
    (hn : handler? n = some (params, body))
    (hq : ((walkAttribute s n).outcome p).2.diagnostics = p.diagnostics) :
    ∃ as, (functionActions s params body).Accepts as ∧
      ∀ x, r.runAll (eraseAll ((walkAttribute s n).outcome p).1) x = r.runAll (eraseAll as) x := by
  rw [walkAttribute_of_handler? hn] at hq ⊢
  have hreport : (liftM (handlerActions s params body).orReport : Analysis (List Act)).Accepts
      ((handlerActions s params body).orReport.outcome p).1 := ⟨p, _, rfl, hq⟩
  obtain ⟨as, has, hout⟩ :=
    accepts_handlerActions (accepts_orReport (grows_handlerActions s params body) hreport)
  refine ⟨as, has, fun x => ?_⟩
  obtain ⟨rfl, hout⟩ | hout := hout
  · rw [hout]
  · rw [hout, Runtime.runAll_cons, Runtime.run_ofList, Runtime.runAll_nil]

end Functions

end Scenario

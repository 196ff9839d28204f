import Scenario.Proofs.Compiling
import Scenario.Proofs.Gathering

namespace Scenario

open Syntax Analysis Scenario.Action

variable {s : Scope} {arguments : List Node} {line : Nat} {out : List Act}

/-- The actions of a callback are those of its function. -/
theorem gathers_callback {name : String} {n : Option Node} {a : Act}
    (h : (callback s name n).Accepts a) :
    Gathers (n.toList.filterMap fun n => (functionOf? n).map fun (params, body) =>
      .function s params body) a.erase.leaves := by
  cases n with
  | none =>
    rw [callback] at h
    obtain ⟨p, q, ho, -⟩ := h
    cases ho
    exact .nil
  | some n =>
    cases hf : functionOf? n with
    | none =>
      rw [callback_of_none hf] at h
      exact (not_accepts_throw h).elim
    | some f =>
      obtain ⟨params, body⟩ := f
      rw [callback_of_functionOf? hf] at h
      obtain ⟨as, has, h⟩ := accepts_bind (grows_functionActions s params body)
        (fun as => grows_lift fun p => rfl) h
      obtain ⟨p, q, ho, -⟩ := h
      cases ho
      simp only [Option.toList_some, List.filterMap_cons, hf, Option.map_some, List.filterMap_nil]
      exact .one has

theorem accepts_mutationPlace {store : Store} {method : Option String} {a : Act}
    (h : (storeAction s store method arguments line).Accepts a) :
    (placeActions (.call s (.mutation store method) arguments line)).Accepts [a] := by
  obtain ⟨p, q, ho, hq⟩ := h
  refine ⟨p, q, ?_, hq⟩
  rw [placeActions, callActions, outcome_bind, ho]
  rfl

/-- The changes of a transaction are its statements that change the store, and no others. -/
theorem gathers_transactionActions {store : Store} {proxy : String} {ns : List Node}
    (h : (transactionActions s store proxy line ns).Accepts out) :
    Gathers ((ns.filterMap (mutationOn? proxy)).map fun c =>
      .call s (.mutation store c.method) c.arguments c.line) (leavesAll (eraseAll out)) := by
  induction ns generalizing out with
  | nil =>
    rw [accepts_transactionActions_nil h]
    exact .nil
  | cons n more ih =>
    obtain ⟨c, a, as, hn, ha, has, rfl⟩ | ⟨hn, -, has⟩ := accepts_transactionActions_cons h
    · rw [List.filterMap_cons_some hn, List.map_cons, eraseAll_cons, leavesAll,
        ← leavesAll_singleton]
      exact .cons (accepts_mutationPlace ha) (ih has)
    · rw [List.filterMap_cons_none hn]
      exact ih has

/-- The actions inside a change of a store are those of the transaction that it is. -/
theorem gathers_storeAction {store : Store} {method : Option String} {a : Act}
    (h : (storeAction s store method arguments line).Accepts a) :
    Gathers (Place.insideCall s arguments line (.mutation store method))
      (leavesSlot a.erase.actions) := by
  cases method with
  | none =>
    rw [storeAction] at h
    exact (not_accepts_throw h).elim
  | some method =>
    cases hk : storeMethod? method with
    | none =>
      rw [storeAction] at h
      simp only [hk] at h
      exact (not_accepts_throw h).elim
    | some kind =>
      by_cases ht : kind = .storeTransaction
      · subst ht
        obtain rfl := eq_of_storeMethod?_transaction hk
        obtain ⟨t, as, hof, has, -, ha⟩ := accepts_transaction h
        simp only [Place.insideCall, hof, ha]
        exact gathers_transactionActions has
      · have hinside : Place.insideCall s arguments line (.mutation store (some method)) = [] := by
          unfold Place.insideCall
          split <;> simp_all [storeMethod?]
        rw [hinside]
        obtain ⟨key, path, -, ⟨-, -, ha⟩ | ⟨-, value, -, -, ha⟩⟩ := accepts_mutation hk ht h
        · rw [ha]
          exact .nil
        · rw [ha]
          exact .nil

/-- What a request is compiled to, besides itself. -/
theorem gathers_request {a : Act}
    (h : (callActions s (.effect .api (some "request")) arguments line).Accepts [a]) :
    Gathers (Place.insideCall s arguments line (.effect .api (some "request")))
      (leavesSlot a.erase.actions) := by
  obtain ⟨r, b, c, hr, hb, hc, hout⟩ := accepts_request h
  obtain ha : a.erase = ofRequest r.payload b.erase c.erase := by simpa using hout
  have hboth := (gathers_callback hb).append (gathers_callback hc)
  rw [← List.filterMap_append] at hboth
  simp only [Place.insideCall, hr, ha]
  change Gathers _ (b.erase.leaves ++ (c.erase.leaves ++ []))
  rwa [List.append_nil]

/-- An action is its call's, and the actions inside it are those of the places inside the call. -/
theorem gathers_actions {c : Call} {a : Act} (hc : c.isAction = true)
    (h : (callActions s c arguments line).Accepts [a]) :
    Gathers (Place.insideCall s arguments line c) (leavesSlot a.erase.actions) := by
  cases c with
  | declaration => simp [Call.isAction] at hc
  | read store => simp [Call.isAction] at hc
  | mutation store method =>
    rw [callActions] at h
    obtain ⟨a', ha', h⟩ := accepts_bind (grows_storeAction s store method arguments line) (fun _ => grows_pure _) h
    cases accepts_pure h
    exact gathers_storeAction ha'
  | effect space method =>
    by_cases hs : space = .api
    · subst hs
      by_cases hm : method = some "request"
      · subst hm
        exact gathers_request h
      · rw [callActions, if_neg hm] at h
        exact (not_accepts_throw h).elim
    · have hinside : Place.insideCall s arguments line (.effect space method) = [] := by
        unfold Place.insideCall
        split <;> simp_all
      obtain ⟨name, shape, payload, -, -, -, hout⟩ := accepts_effect hs h
      obtain ha : a.erase = ofEffect shape.kind payload := by simpa using hout
      rw [hinside, ha]
      exact .nil

theorem eq_singleton_of_accepts {c : Call} (hc : c.isAction = true)
    (h : (callActions s c arguments line).Accepts out) :
    ∃ a, out = [a] ∧ a.erase.kind.isControl = false ∧ c.action? s arguments line = some a.erase := by
  obtain ⟨b, hout, hkind, haction⟩ := action?_of_accepts hc h
  obtain ⟨a, rfl⟩ : ∃ a, out = [a] := by
    have hlen := congrArg List.length hout
    exact List.length_eq_one_iff.1 (by simpa using hlen)
  obtain rfl : a.erase = b := by simpa using hout
  exact ⟨a, rfl, hkind, haction⟩

/-- The actions of a call are its own, followed by those of the places inside it. -/
theorem gathers_callActions {c : Call} (h : (callActions s c arguments line).Accepts out) :
    ∃ as, Gathers (Place.insideCall s arguments line c) as ∧
      leavesAll (eraseAll out) = (c.action? s arguments line).toList ++ as ∧
      (c.action? s arguments line).isSome = c.isAction := by
  cases hc : c.isAction with
  | false =>
    rw [callActions_of_isAction_eq_false hc] at h
    rw [accepts_pure h, Call.action?_of_isAction_eq_false hc]
    refine ⟨[], ?_, rfl, rfl⟩
    cases c with
    | declaration => exact .nil
    | read store => exact .nil
    | mutation store method => simp [Call.isAction] at hc
    | effect space method => simp [Call.isAction] at hc
  | true =>
    obtain ⟨a, rfl, hkind, haction⟩ := eq_singleton_of_accepts hc h
    refine ⟨_, gathers_actions hc h, ?_, by rw [haction]; rfl⟩
    rw [haction, eraseAll_cons, eraseAll_nil, leavesAll_singleton,
      leaves_of_isControl_eq_false hkind]
    rfl

/-- A place is compiled to its own action, if it is one, and to what the places inside it are
compiled to. -/
theorem gathers_inner {p : Place} (h : (placeActions p).Accepts out) :
    ∃ as, Gathers p.inner as ∧ leavesAll (eraseAll out) = p.action?.toList ++ as ∧
      p.action?.isSome = p.isAction := by
  cases p with
  | node s n => exact ⟨_, gathers_walk h, rfl, rfl⟩
  | function s params body => exact ⟨_, gathers_functionActions h, rfl, rfl⟩
  | statement s n =>
    rw [placeActions] at h
    obtain ⟨⟨as, t⟩, ha, h⟩ := accepts_bind (grows_statement s n) (fun _ => grows_pure _) h
    rw [accepts_pure h]
    exact ⟨_, gathers_statement ha, rfl, rfl⟩
  | expression s n => exact ⟨_, gathers_expression h, rfl, rfl⟩
  | call s c arguments line => exact gathers_callActions h

/-- The calls and the actions that correspond to each other, one to one. -/
def Correspond : List Place → List (Action Unit) → Prop :=
  List.Forall₂ fun c a => c.action? = some a

theorem Gathers.correspond {ps : List Place} {as : List (Action Unit)} (h : Gathers ps as)
    (hps : ∀ q ∈ ps, ∀ out, (placeActions q).Accepts out →
      Correspond q.calls (leavesAll (eraseAll out))) : Correspond (ps.flatMap Place.calls) as := by
  induction h with
  | nil => exact .nil
  | cons hp _ ih =>
    rw [List.flatMap_cons]
    exact List.rel_append (hps _ List.mem_cons_self _ hp)
      (ih fun q hq => hps q (List.mem_cons_of_mem _ hq))

/-- The actions of a place are those of the calls that are compiled there. -/
theorem correspond_calls {p : Place} (h : (placeActions p).Accepts out) :
    Correspond p.calls (leavesAll (eraseAll out)) := by
  induction p using Place.calls.induct generalizing out with
  | case1 p ih =>
    -- One step splits off the action of the place itself; the hypothesis is about the places inside.
    obtain ⟨as, has, hleaves, hsome⟩ := gathers_inner h
    have hown : Correspond (if p.isAction then [p] else []) p.action?.toList := by
      rw [← hsome]
      cases hp : p.action? with
      | none => exact .nil
      | some a => exact .cons hp .nil
    have hinner := has.correspond fun q hq out hout => ih ⟨q, hq⟩ hout
    rw [Place.calls_eq, hleaves]
    exact List.rel_append hown hinner

theorem Gathers.exists_accepts {ps : List Place} {as : List (Action Unit)} (h : Gathers ps as)
    {q : Place} (hq : q ∈ ps) : ∃ out, (placeActions q).Accepts out := by
  induction h with
  | nil => cases hq
  | cons hp _ ih =>
    rcases List.mem_cons.1 hq with rfl | hq
    · exact ⟨_, hp⟩
    · exact ih hq

/-- Where a place is accepted, the calls that are compiled there are. -/
theorem exists_accepts_of_mem_calls {p c : Place} (h : (placeActions p).Accepts out)
    (hc : c ∈ p.calls) : c.isAction = true ∧ ∃ out, (placeActions c).Accepts out := by
  induction p using Place.calls.induct generalizing out with
  | case1 p ih =>
    rw [Place.calls_eq] at hc
    rcases List.mem_append.1 hc with hc | hc
    · split at hc
      · rename_i hp
        obtain rfl := List.mem_singleton.1 hc
        exact ⟨hp, out, h⟩
      · cases hc
    · obtain ⟨q, hq, hc⟩ := List.mem_flatMap.1 hc
      obtain ⟨as, has, -⟩ := gathers_inner h
      obtain ⟨out', hout⟩ := has.exists_accepts hq
      exact ih ⟨q, hq⟩ hout hc

/-- The actions inside an action are those of the calls that are compiled among its arguments. -/
theorem correspond_inner {c : Place} (hc : c.isAction = true) (h : (placeActions c).Accepts out) :
    ∃ a, c.action? = some a ∧
      Correspond (c.inner.flatMap Place.calls) (leavesSlot a.actions) := by
  cases c with
  | call s c arguments line =>
    obtain ⟨a, rfl, -, haction⟩ := eq_singleton_of_accepts hc h
    refine ⟨a.erase, haction, (gathers_actions hc h).correspond ?_⟩
    exact fun q _ out hout => correspond_calls hout
  | _ => cases hc

/-- The calls of a program that are compiled, in order. -/
noncomputable def compiledCalls (body : List Node) : List Place :=
  (body.map (.node (Scope.module.hoist body))).flatMap Place.calls

/-- Only errors are reported so far. -/
def Progress.IsStrict (p : Progress) : Prop := ∀ d ∈ p.diagnostics, d.severity = .error

theorem isStrict_declareAllStores (body : List Node) :
    ∀ p : Progress, p.IsStrict → ((declareAllStores body).outcome p).2.IsStrict := by
  refine declareAllStores_keeps (fun _ _ hp => hp) ?_ body
  intro r p hp
  exact List.forall_mem_append.2 ⟨hp, List.forall_mem_singleton.2 rfl⟩

/-- A program that is compiled without an error is compiled without a report on its actions. -/
theorem accepts_extract (options : Options) (body : List Node)
    (h : ∀ d ∈ (extract options body).diagnostics, d.severity ≠ .error) :
    (liftM (walkAll (Scope.module.hoist body) body) : Analysis (List Act)).Accepts
      (extract options body).parts.actions := by
  have hp := isStrict_declareAllStores body {} (by simp [Progress.IsStrict])
  obtain ⟨-, ds, hds, hq, -⟩ := agrees.walkAll (Scope.module.hoist body) body
    ((declareAllStores body).outcome {}).2 ((declareAllStores body).outcome {}).2 trivial
  simp only at hq
  -- Whatever is reported on stores and actions is an error, so nothing is.
  have hnil : ((declareAllStores body).outcome {}).2.diagnostics ++ ds = [] := by
    refine List.eq_nil_iff_forall_not_mem.2 fun d hd => ?_
    have herror := List.forall_mem_append.2 ⟨hp, hds⟩ d hd
    rw [← hq] at hd
    exact h d (List.mem_append_right _ hd) herror
  rw [hnil] at hq
  obtain ⟨hnone, -⟩ := List.append_eq_nil_iff.1 hnil
  exact ⟨_, _, rfl, hq.trans hnone.symm⟩

/-- The actions of a program that is compiled without an error are those of its compiled calls, one
for each and in their order. The ones inside an action are those of the calls that are compiled among
its arguments: a call that stands there in any other place than the functions behind a request and the
changes of a transaction leaves no action behind. -/
theorem correspond_extract (options : Options) (body : List Node)
    (h : ∀ d ∈ (extract options body).diagnostics, d.severity ≠ .error) :
    Correspond (compiledCalls body)
        (leavesAll (eraseAll (extract options body).parts.actions)) ∧
      ∀ c ∈ compiledCalls body, ∃ a, c.action? = some a ∧
        Correspond (c.inner.flatMap Place.calls) (leavesSlot a.actions) := by
  have hall := gathers_walkAll (accepts_extract options body h)
  refine ⟨hall.correspond fun q _ out hout => correspond_calls hout, fun c hc => ?_⟩
  obtain ⟨p, hp, hc⟩ := List.mem_flatMap.1 hc
  obtain ⟨out, hout⟩ := hall.exists_accepts hp
  obtain ⟨haction, out, hout⟩ := exists_accepts_of_mem_calls hout hc
  exact correspond_inner haction hout

/-- Of an action call that stands for a value, no action is left. -/
theorem correspond_extract_set :
    let push : Node := .call (.identifier "push") [.string "Home"] 1
    let body : List Node := [.expressionStatement (.call
      (.member (.call (.identifier "store") [] 1) (.identifier "set") false) [.string "key", push] 1)]
    let made := leavesAll (eraseAll (extract {} body).parts.actions)
    (Scope.module.hoist body).isActionCall push = true ∧ (extract {} body).diagnostics = [] ∧
      Correspond (compiledCalls body) made ∧ made.map (·.kind) = [.storeSet] := by
  intro push body made
  have hstores : (declareAllStores body).outcome {} =
      ((), { stores := [{ scope := .scenario, storage := .memory }] }) := by
    simp [body, push, declareAllStores, declareStores, Node.children, Node.fields, Node.isAbsent,
      Node.unwrap, Callee.isStoreFactory, Callee.identifier?]
    rfl
  have hwalk : walkAll (Scope.module.hoist body) body =
      (callActions .module (.mutation { scope := .scenario, storage := .memory } (some "set"))
        [.string "key", push] 1).orReport := walkAll_of_classify rfl
  have hcollect : (leavesAll (eraseAll ((collectActions body).outcome {}).1)).map (·.kind) =
      [.storeSet] ∧ ((collectActions body).outcome {}).2.diagnostics = [] := by
    rw [collectActions, Collect.outcome_bind, hstores, hwalk, callActions,
      storeAction_of_mutation (show storeMethod? "set" = some .storeSet from rfl) (by decide)]
    exact ⟨rfl, rfl⟩
  obtain ⟨hkinds, hreports⟩ := hcollect
  have hnone : (extract {} body).diagnostics = [] := hreports
  obtain ⟨hall, -⟩ := correspond_extract {} body (by simp [hnone])
  exact ⟨rfl, hnone, hall, hkinds⟩

end Scenario

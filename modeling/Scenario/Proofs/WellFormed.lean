import Scenario.Extraction
import Scenario.Proofs.Likeness

namespace Scenario

open Syntax

/-- The conditions that a runtime can evaluate, as documents write them. Operands may be any
values. -/
inductive IsCondition : Value → Prop where
  | compare (c : Comparison) (left right : Value) :
    IsCondition (.object [("type", .string c.name), ("left", left), ("right", right)])
  | joined (j : Junction) {conditions : List Value} : (∀ c ∈ conditions, IsCondition c) →
    IsCondition (.object [("type", .string j.name), ("conditions", .list conditions)])
  | not {condition : Value} : IsCondition condition →
    IsCondition (.object [("type", .string "not"), ("condition", condition)])
  | truthy (operand : Value) : IsCondition (.object [("type", .string "truthy"), ("value", operand)])

namespace Condition

mutual

theorem isCondition_toValue : (c : Condition) → IsCondition c.toValue
  | .compare c left right => .compare c left.toValue right.toValue
  | .joined j conditions => .joined j (isCondition_of_mem_listValue conditions)
  | .not c => .not c.isCondition_toValue
  | .truthy x => .truthy x.toValue

theorem isCondition_of_mem_listValue : (cs : List Condition) → ∀ v ∈ listValue cs, IsCondition v
  | [], v, h => by simp [listValue] at h
  | c :: more, v, h => by
    rcases List.mem_cons.1 h with rfl | h
    · exact c.isCondition_toValue
    · exact isCondition_of_mem_listValue more v h

end

end Condition

namespace Action

variable {ι : Type}

/-- Where an action stands. -/
inductive Place where
  /-- It is not part of another action. -/
  | top
  | inside
  /-- It is what follows a request. -/
  | callback

/-- The place of the actions that an action of a kind consists of. -/
def Place.below : ActionKind → Place
  | .apiRequest => .callback
  | _ => .inside

/-- Whether a sequence of a length may stand at a place. -/
def Place.Admits (length : Nat) : Place → Prop
  | .top => 2 ≤ length
  | .inside => length = 0 ∨ 2 ≤ length
  | .callback => True

/-- All that an action consists of, itself included, is about one store. -/
inductive OnStore (scope : Lifetime) (storage : Storage) : Action ι → Prop where
  | mk {a : Action ι} : a.kind.isStore = true → a.scope = .set scope → a.storage = .set storage →
    (∀ as, a.actions = .set as → ∀ b ∈ as, OnStore scope storage b) → OnStore scope storage a

/-- What an action carries fits its kind. -/
def Fits (place : Place) (a : Action ι) : Prop :=
  match a.kind with
  | .storeSet | .storeMerge =>
    ∃ scope storage path value, a.scope = .set scope ∧ a.storage = .set storage ∧
      a.keyPath = .set path ∧ a.value = some value
  | .storeRemove =>
    ∃ scope storage path, a.scope = .set scope ∧ a.storage = .set storage ∧
      a.keyPath = .set path ∧ a.value = none
  | .storeTransaction =>
    ∃ scope storage as, a.scope = .set scope ∧ a.storage = .set storage ∧ a.actions = .set as ∧
      as ≠ [] ∧ ∀ b ∈ as, b.OnStore scope storage
  | .apiRequest =>
    ∃ payload method onSuccess onError, a.value = some (.object payload) ∧
      Fields.get? payload "method" = some (.string method) ∧
      method ∈ ["GET", "POST", "PUT", "PATCH", "DELETE"] ∧ a.actions = .set [onSuccess, onError] ∧
      onSuccess.kind = .sequence ∧ onError.kind = .sequence
  | .sequence => ∃ as, a.actions = .set as ∧ place.Admits as.length
  | .conditional =>
    ∃ condition as, a.value = some (.object [("condition", condition)]) ∧ IsCondition condition ∧
      a.actions = .set as ∧ (as.length = 1 ∨ as.length = 2)
  | .switch =>
    ∃ discriminant cases as,
      a.value = some (.object [("discriminant", discriminant), ("cases", .list cases)]) ∧
      a.actions = .set as ∧ as.length = cases.length
  | _ => a.scope = .unset ∧ a.storage = .unset ∧ a.keyPath = .unset ∧ a.actions = .unset

/-- What an action carries fits its kind at every depth. -/
inductive WellFormed : Place → Action ι → Prop where
  | mk {place : Place} {a : Action ι} : a.Fits place →
    (∀ as, a.actions = .set as → ∀ b ∈ as, WellFormed (.below a.kind) b) → WellFormed place a

/-- An action without others in it. -/
theorem wellFormed_of_unset {place : Place} {a : Action ι} (h : a.Fits place)
    (ha : a.actions = .unset) : a.WellFormed place :=
  .mk h fun as has => by simp [ha] at has

/-- An action that consists of others. -/
theorem wellFormed_of_set {place : Place} {a : Action ι} {as : List (Action ι)} (h : a.Fits place)
    (ha : a.actions = .set as) (has : ∀ b ∈ as, b.WellFormed (.below a.kind)) :
    a.WellFormed place := by
  refine .mk h fun bs hbs => ?_
  obtain rfl : as = bs := by simpa [ha] using hbs
  exact has

/-- What may stand alone may stand inside another action. -/
theorem WellFormed.inside {a : Action ι} (h : a.WellFormed .top) : a.WellFormed .inside := by
  obtain ⟨hf, hb⟩ := h
  refine .mk ?_ hb
  unfold Fits at hf ⊢
  split at hf <;> try exact hf
  obtain ⟨as, ha, hlen⟩ := hf
  exact ⟨as, ha, .inr hlen⟩

theorem fits_of_effect {place : Place} {a : Action ι} (hs : a.kind.isStore = false)
    (hc : a.kind.isComposite = false)
    (h : a.scope = .unset ∧ a.storage = .unset ∧ a.keyPath = .unset ∧ a.actions = .unset) :
    a.Fits place := by
  unfold Fits
  split <;> simp_all [ActionKind.isStore, ActionKind.isComposite]

end Action

namespace Namespace

/-- The effects of the namespaces neither work on a store nor consist of other actions. -/
theorem isEffect_of_effect? {space : Namespace} {name : String} {shape : EffectShape}
    (h : space.effect? name = some shape) :
    shape.kind.isStore = false ∧ shape.kind.isComposite = false := by
  have hall : ∀ e ∈ space.effects, e.2.kind.isStore = false ∧ e.2.kind.isComposite = false := by
    cases space <;> decide
  have hmem : (name, shape) ∈ space.effects := by
    unfold effect? at h
    generalize space.effects = effects at h
    induction effects with
    | nil => simp at h
    | cons e more ih =>
      rw [List.lookup_cons] at h
      split at h
      · rename_i hn
        obtain rfl : name = e.1 := by simpa using hn
        obtain rfl : e.2 = shape := by simpa using h
        exact List.mem_cons_self
      · exact List.mem_cons_of_mem e (ih h)
  exact hall _ hmem

end Namespace

namespace Request

theorem mem_of_method {line : Nat} {n : Option Node} {m : String} (h : method line n = .ok m) :
    m ∈ ["GET", "POST", "PUT", "PATCH", "DELETE"] := by
  unfold method at h
  split at h
  · cases h
    decide
  · split at h
    · rename_i k hk
      cases h
      obtain ⟨text, -, hf⟩ := Option.bind_eq_some_iff.1 hk
      have hm : m ∈ Refusal.httpMethods := List.mem_of_find?_eq_some hf
      have hall : ∀ k ∈ Refusal.httpMethods, k ∈ ["GET", "POST", "PUT", "PATCH", "DELETE"] := by
        decide
      exact hall m hm
    · cases h

/-- A request always says its method. -/
theorem method_of_ofArguments {arguments : List Node} {line : Nat} {props : List String}
    {r : Request} (h : ofArguments arguments line props = .ok r) :
    ∃ method ∈ ["GET", "POST", "PUT", "PATCH", "DELETE"],
      Fields.get? r.payload "method" = some (.string method) := by
  unfold ofArguments plainArguments at h
  split at h
  · cases h
  · simp only [bind, Except.bind] at h
    split at h
    · split at h
      · cases h
      · split at h
        · cases h
        · split at h
          · cases h
          · split at h
            · cases h
            · rename_i m hm
              split at h
              · cases h
              · cases h
                refine ⟨m, ?_, by simp [Fields.get?]⟩
                exact mem_of_method hm
    · cases h

end Request

namespace Action

/-- A change of a store, as a transaction may hold it. -/
def IsChange (store : Store) (a : Act) : Prop :=
  a.OnStore store.scope store.storage ∧ a.WellFormed .top

/-- What follows a request. -/
def IsCallback (a : Act) : Prop := a.kind = .sequence ∧ a.WellFormed .callback

variable {p : Progress} {as bs : List Act}

theorem isChange_mutation {kind : ActionKind} {value : Option Value} (store : Store) (path : String)
    (h : IsMutation kind value) : IsChange store ((Act.mutation kind store path value).outcome p).1 := by
  obtain ⟨rfl, rfl⟩ | ⟨hk, hv⟩ := h
  · refine ⟨.mk rfl rfl rfl fun as has => ?_, wellFormed_of_unset ?_ rfl⟩
    · cases has
    · exact ⟨store.scope, store.storage, path, rfl, rfl, rfl, rfl⟩
  · obtain ⟨v, rfl⟩ := Option.isSome_iff_exists.1 hv
    rcases hk with rfl | rfl
    · refine ⟨.mk rfl rfl rfl fun as has => ?_, wellFormed_of_unset ?_ rfl⟩
      · cases has
      · exact ⟨store.scope, store.storage, path, v, rfl, rfl, rfl, rfl⟩
    · refine ⟨.mk rfl rfl rfl fun as has => ?_, wellFormed_of_unset ?_ rfl⟩
      · cases has
      · exact ⟨store.scope, store.storage, path, v, rfl, rfl, rfl, rfl⟩

theorem isChange_transaction {store : Store} (hne : as ≠ []) (h : ∀ a ∈ as, IsChange store a) :
    IsChange store ((Act.transaction store as).outcome p).1 := by
  have hstore : ∀ a ∈ as, a.OnStore store.scope store.storage := fun a ha => (h a ha).1
  constructor
  · refine .mk rfl rfl rfl fun bs hbs => ?_
    cases hbs
    exact hstore
  · refine wellFormed_of_set ?_ rfl fun a ha => (h a ha).2.inside
    exact ⟨store.scope, store.storage, as, rfl, rfl, rfl, hne, hstore⟩

theorem wellFormed_effect (payload : Fields Value) {space : Namespace} {name : String}
    {shape : EffectShape} (h : space.effect? name = some shape) :
    (((Act.effect shape.kind payload).outcome p).1).WellFormed .top := by
  obtain ⟨hs, hc⟩ := Namespace.isEffect_of_effect? h
  exact wellFormed_of_unset (fits_of_effect hs hc ⟨rfl, rfl, rfl, rfl⟩) rfl

theorem wellFormed_sequence {place : Place} (hlen : place.Admits as.length)
    (h : ∀ a ∈ as, a.WellFormed .top) :
    (((Act.sequence as).outcome p).1).WellFormed place :=
  wellFormed_of_set ⟨as, rfl, hlen⟩ rfl fun a ha => (h a ha).inside

/-- Several actions are one, and none are one that does nothing. -/
theorem wellFormed_single (h : ∀ a ∈ as, a.WellFormed .top) :
    (((Act.single as).outcome p).1).WellFormed .inside := by
  match as, h with
  | [], h => exact wellFormed_sequence (.inl rfl) h
  | [a], h => exact (h a (by simp)).inside
  | a :: b :: more, h => exact wellFormed_sequence (.inr (by simp)) h

theorem wellFormed_handler (hne : as ≠ []) (h : ∀ a ∈ as, a.WellFormed .top) :
    (((Act.single as).outcome p).1).WellFormed .top := by
  match as, hne, h with
  | [a], _, h => exact h a (by simp)
  | a :: b :: more, _, h =>
    have hlen : Place.top.Admits (a :: b :: more).length := by simp [Place.Admits]
    exact wellFormed_sequence hlen h

theorem wellFormed_request {a b : Act} {arguments : List Node} {line : Nat} {props : List String}
    {r : Request} (hr : Request.ofArguments arguments line props = .ok r) (ha : IsCallback a)
    (hb : IsCallback b) : (((Act.request r.payload a b).outcome p).1).WellFormed .top := by
  obtain ⟨method, hm, hget⟩ := Request.method_of_ofArguments hr
  refine wellFormed_of_set ⟨r.payload, method, a, b, rfl, hget, hm, rfl, ha.1, hb.1⟩ rfl ?_
  intro c hc
  rcases List.mem_cons.1 hc with rfl | hc
  · exact ha.2
  · obtain rfl := List.mem_singleton.1 hc
    exact hb.2

theorem wellFormed_choice (c : Condition) (ha : ∀ a ∈ as, a.WellFormed .top)
    (hb : ∀ b ∈ bs, b.WellFormed .top) :
    (((Act.choice c.toValue as bs).outcome p).1).WellFormed .top := by
  have hfirst := wellFormed_single (p := p) ha
  have hcond := c.isCondition_toValue
  cases bs with
  | nil =>
    refine wellFormed_of_set ⟨c.toValue, _, rfl, hcond, rfl, .inl rfl⟩ rfl ?_
    intro x hx
    obtain rfl := List.mem_singleton.1 hx
    exact hfirst
  | cons b more =>
    refine wellFormed_of_set ⟨c.toValue, _, rfl, hcond, rfl, .inr rfl⟩ rfl ?_
    intro x hx
    rcases List.mem_cons.1 hx with rfl | hx
    · exact hfirst
    · obtain rfl := List.mem_singleton.1 hx
      exact wellFormed_single hb

/-- Each branch of a switch becomes one action. -/
theorem wellFormed_branches {branches : List (List Act)}
    (h : ∀ as ∈ branches, ∀ a ∈ as, a.WellFormed .top) :
    ((branches.mapM Act.single).outcome p).1.length = branches.length ∧
      ∀ a ∈ ((branches.mapM Act.single).outcome p).1, a.WellFormed .inside := by
  induction branches generalizing p with
  | nil => simp
  | cons as more ih =>
    rw [List.mapM_cons, Collect.outcome_bind, Collect.outcome_bind, Collect.outcome_pure]
    obtain ⟨hlen, hmore⟩ := ih (p := ((Act.single as).outcome p).2)
      fun bs hbs => h bs (List.mem_cons_of_mem as hbs)
    refine ⟨by simp [hlen], List.forall_mem_cons.2 ⟨?_, hmore⟩⟩
    exact wellFormed_single (h as List.mem_cons_self)

theorem wellFormed_selection (d : Value) {tests : List Value} {branches : List (List Act)}
    (hlen : tests.length = branches.length) (h : ∀ as ∈ branches, ∀ a ∈ as, a.WellFormed .top) :
    (((Act.selection d tests branches).outcome p).1).WellFormed .top := by
  obtain ⟨hb, hall⟩ := wellFormed_branches (p := p) h
  exact wellFormed_of_set ⟨d, tests, _, rfl, rfl, hb.trans hlen.symm⟩ rfl hall

theorem closed_wellFormed : Likeness.Closed (WellFormed .top) IsChange IsCallback where
  made_of_changed _ _ h := h.2
  mutation _ _ _ store path h := isChange_mutation store path h
  transaction _ _ _ hne h := isChange_transaction hne h
  effect _ payload _ _ _ h := wellFormed_effect payload h
  handler _ _ hne h := wellFormed_handler hne h
  sequence _ _ h := ⟨rfl, wellFormed_sequence trivial h⟩
  request _ _ _ _ _ _ _ hr ha hb := wellFormed_request hr ha hb
  choice _ c _ _ ha hb := wellFormed_choice c ha hb
  selection _ d _ _ hlen h := wellFormed_selection d hlen h

end Action

/-- Every action of a program is well formed. -/
theorem wellFormed_of_mem_extract (options : Options) (body : List Node) :
    ∀ a ∈ (extract options body).parts.actions, a.WellFormed .top :=
  Action.closed_wellFormed.collectActions body {}

theorem wellFormed_of_mem_extract_remove :
    let body : List Node := [.expressionStatement (.call (.member (.call (.identifier "store") [] 1)
      (.identifier "remove") false) [.string "user"] 1)]
    ∃ a ∈ (extract {} body).parts.actions, a.kind = .storeRemove ∧ a.WellFormed .top := by
  intro body
  have hwalk : walkAll (Scope.module.hoist body) body =
      (callActions .module (.mutation { scope := .scenario, storage := .memory } (some "remove"))
        [.string "user"] 1).orReport := walkAll_of_classify rfl
  have hkinds : (extract {} body).parts.actions.map (·.kind) = [.storeRemove] := by
    change ((collectActions body).outcome {}).1.map _ = _
    rw [collectActions, Collect.outcome_bind, hwalk, callActions,
      storeAction_of_mutation (show storeMethod? "remove" = some .storeRemove from rfl) (by decide)]
    rfl
  obtain ⟨a, ha, hk⟩ := List.map_eq_singleton_iff.1 hkinds
  have hmem := List.mem_singleton_self a
  rw [← ha] at hmem
  exact ⟨a, hmem, hk, wellFormed_of_mem_extract {} _ a hmem⟩

end Scenario

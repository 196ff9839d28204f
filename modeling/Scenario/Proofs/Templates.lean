import Scenario.Proofs.RecastParts
import Scenario.Proofs.Revaluing

namespace Scenario

open Syntax Analysis
open Scenario.Action (occurrencesAll occurrencesAll_flatten occurrences_of_unset
  occurrences_of_set)

/-- An action whose value may be left open. Then it is given by an expression, which is read where the
given props are seen. -/
abbrev Template := Action (Ticket × Option (List String × Node))

namespace Template

variable (f : Replacement)

/-- The value in the place of an action of some kind. Only changes of a store at a path have one. -/
def valueIn (kind : ActionKind) (value : Option Value) : Option (List String × Node) → Option Value
  | some (props, v) =>
    if kind = .storeSet ∨ kind = .storeMerge then some (staticValue props (f.apply v)) else value
  | none => value

mutual

/-- The action that a template gives: the values in its open places are replaced. -/
def fill : Template → Act
  | ⟨(id, hole), kind, scope, storage, keyPath, value, actions⟩ =>
    ⟨id, kind, scope, storage, keyPath, valueIn f kind value hole, fillSlot actions⟩

def fillSlot : Slot (List Template) → Slot (List Act)
  | .unset => .unset
  | .null => .null
  | .set actions => .set (fillAll actions)

def fillAll : List Template → List Act
  | [] => []
  | t :: more => fill t :: fillAll more

end

theorem fillAll_eq_map (ts : List Template) : fillAll f ts = ts.map (fill f) := by
  induction ts with
  | nil => rfl
  | cons t more ih => rw [fillAll, ih, List.map_cons]

/-- The templates in a template whose values are left open. -/
def openings (t : Template) : List Template := t.occurrences.filter (·.id.2.isSome)

def openingsAll (ts : List Template) : List Template := (occurrencesAll ts).filter (·.id.2.isSome)

@[simp] theorem openingsAll_nil : openingsAll [] = [] := by simp [openingsAll]

@[simp] theorem openingsAll_cons (t : Template) (ts : List Template) :
    openingsAll (t :: ts) = openings t ++ openingsAll ts := by
  simp [openingsAll, openings]

@[simp] theorem openingsAll_append (ts us : List Template) :
    openingsAll (ts ++ us) = openingsAll ts ++ openingsAll us := by
  simp [openingsAll]

theorem openingsAll_flatten (tss : List (List Template)) :
    openingsAll tss.flatten = tss.flatMap openingsAll := by
  rw [openingsAll, occurrencesAll_flatten, List.filter_flatMap]
  rfl

theorem openings_of_unset {t : Template} (h : t.actions = .unset) :
    openings t = [t].filter (·.id.2.isSome) := by
  rw [openings, occurrences_of_unset h]

theorem openings_of_set {t : Template} {ts : List Template} (h : t.actions = .set ts)
    (hclosed : t.id.2 = none) : openings t = openingsAll ts := by
  rw [openings, occurrences_of_set h, List.filter_cons_of_neg (by simp [hclosed]), openingsAll]

end Template

open Template

section Uniform

variable {α β τ υ : Type}

/-- For all replacements alike, a step leaves one state and gives what one template gives. The template
has a property. -/
def Collect.Uniform (g : Replacement → τ → α) (P : τ → Prop) (m : Replacement → Collect α) : Prop :=
  ∀ p, ∃ t q, P t ∧ ∀ f, (m f).outcome p = (g f t, q)

/-- For all replacements alike, an analysis is refused, or it gives what one template gives. The template
has a property. -/
def Analysis.Uniform (g : Replacement → τ → α) (P : τ → Prop) (m : Replacement → Analysis α) : Prop :=
  ∀ p, (∃ r q, ∀ f, (m f).outcome p = (.error r, q)) ∨
    ∃ t q, P t ∧ ∀ f, (m f).outcome p = (.ok (g f t), q)

variable {g : Replacement → τ → α} {g' : Replacement → υ → β} {P P' : τ → Prop} {Q : υ → Prop}

namespace Collect

theorem uniform_pure {t : τ} (h : P t) : Uniform g P fun f => pure (g f t) :=
  fun p => ⟨t, p, h, fun _ => rfl⟩

theorem Uniform.bind {m : Replacement → Collect α} {k : Replacement → α → Collect β}
    (hm : Uniform g P m) (hk : ∀ t, P t → Uniform g' Q fun f => k f (g f t)) :
    Uniform g' Q fun f => m f >>= k f := by
  intro p
  obtain ⟨t, q, ht, hm⟩ := hm p
  obtain ⟨u, r, hu, hk⟩ := hk t ht q
  refine ⟨u, r, hu, fun f => ?_⟩
  rw [outcome_bind, hm f, hk f]

theorem Uniform.of_eq {m m' : Replacement → Collect α} (h : Uniform g P m')
    (heq : ∀ f, m f = m' f) : Uniform g P m := by
  rwa [funext heq]

theorem Uniform.imp {m : Replacement → Collect α} (hm : Uniform g P m) (h : ∀ t, P t → P' t) :
    Uniform g P' m := by
  intro p
  obtain ⟨t, q, ht, hm⟩ := hm p
  exact ⟨t, q, h t ht, hm⟩

end Collect

namespace Analysis

theorem Uniform.of_eq {m m' : Replacement → Analysis α} (h : Uniform g P m')
    (heq : ∀ f, m f = m' f) : Uniform g P m := by
  rwa [funext heq]

theorem Uniform.imp {m : Replacement → Analysis α} (hm : Uniform g P m) (h : ∀ t, P t → P' t) :
    Uniform g P' m := by
  intro p
  obtain hr | ⟨t, q, ht, hm⟩ := hm p
  · exact .inl hr
  · exact .inr ⟨t, q, h t ht, hm⟩

theorem uniform_pure {t : τ} (h : P t) : Uniform g P fun f => pure (g f t) :=
  fun p => .inr ⟨t, p, h, fun _ => rfl⟩

theorem uniform_throw (r : Refused) : Uniform g P fun _ => throw r :=
  fun p => .inl ⟨r, p, fun _ => rfl⟩

/-- A reading that is the same for all replacements is its own template. -/
theorem uniform_ofReading (x : Reading α) :
    Uniform (fun _ a => a) (fun a => x = .ok a) fun _ => ofReading x := by
  intro p
  cases x with
  | error r => exact .inl ⟨r, p, fun _ => rfl⟩
  | ok a => exact .inr ⟨a, p, rfl, fun _ => rfl⟩

theorem uniform_lift {m : Replacement → Collect α} (h : Collect.Uniform g P m) :
    Uniform g P fun f => liftM (m f) := by
  intro p
  obtain ⟨t, q, ht, h⟩ := h p
  refine .inr ⟨t, q, ht, fun f => ?_⟩
  rw [outcome_lift, h f]

theorem Uniform.bind {m : Replacement → Analysis α} {k : Replacement → α → Analysis β}
    (hm : Uniform g P m) (hk : ∀ t, P t → Uniform g' Q fun f => k f (g f t)) :
    Uniform g' Q fun f => m f >>= k f := by
  intro p
  obtain ⟨r, q, hm⟩ | ⟨t, q, ht, hm⟩ := hm p
  · refine .inl ⟨r, q, fun f => ?_⟩
    rw [outcome_bind, hm f]
  · obtain ⟨r, q', hk⟩ | ⟨u, q', hu, hk⟩ := hk t ht q
    · refine .inl ⟨r, q', fun f => ?_⟩
      rw [outcome_bind, hm f]
      exact hk f
    · refine .inr ⟨u, q', hu, fun f => ?_⟩
      rw [outcome_bind, hm f]
      exact hk f

end Analysis

end Uniform

/-- The actions that templates give. -/
abbrev fills (f : Replacement) (ts : List Template) : List Act := ts.map (fill f)

/-- The same with the scope behind them. -/
def fillsIn (f : Replacement) (x : List Template × Scope) : List Act × Scope := (fills f x.1, x.2)

/-- An action with actions in it that come from templates. -/
theorem uniform_composite (kind : ActionKind) (scope storage path : String) (lifetime : Slot Lifetime)
    (place : Slot Storage) (value : Option Value) (ts : List Template) :
    Collect.Uniform fill (fun t => openings t = openingsAll ts) fun f => do
      let id ← Collect.ticket kind scope storage path
      return { id, kind, scope := lifetime, storage := place, value, actions := .set (fills f ts) } := by
  intro p
  obtain ⟨id, q, hid⟩ : ∃ id q, (Collect.ticket kind scope storage path).outcome p = (id, q) :=
    ⟨_, _, rfl⟩
  refine ⟨⟨(id, none), kind, lifetime, place, .unset, value, .set ts⟩, q, openings_of_set rfl rfl,
    fun f => ?_⟩
  rw [Collect.outcome_bind, hid, fill, fillSlot, fillAll_eq_map]
  rfl

/-- An action without others in it, the same for all replacements. -/
theorem uniform_leaf {m : Collect Act} (h : ∀ p, (m.outcome p).1.actions = .unset) :
    Collect.Uniform fill (fun t => openings t = []) fun _ => m := by
  intro p
  have hunset := h p
  rcases ho : m.outcome p with ⟨⟨id, kind, scope, storage, keyPath, value, actions⟩, q⟩
  rw [ho] at hunset
  obtain rfl : actions = .unset := hunset
  exact ⟨⟨(id, none), kind, scope, storage, keyPath, value, .unset⟩, q, openings_of_unset rfl,
    fun _ => ho⟩

theorem uniform_sequence (ts : List Template) :
    Collect.Uniform fill (fun t => openings t = openingsAll ts) fun f => Act.sequence (fills f ts) :=
  uniform_composite .sequence "" "" "" .unset .unset none ts

theorem uniform_transaction (store : Store) (ts : List Template) :
    Collect.Uniform fill (fun t => openings t = openingsAll ts) fun f =>
      Act.transaction store (fills f ts) :=
  uniform_composite .storeTransaction store.scope.name store.storage.name "" (.set store.scope)
    (.set store.storage) none ts

theorem uniform_request (payload : Fields Value) (t u : Template) :
    Collect.Uniform fill (fun v => openings v = openingsAll [t, u]) fun f =>
      Act.request payload (fill f t) (fill f u) :=
  uniform_composite .apiRequest "" "" _ .unset .unset (some (.object payload)) [t, u]

theorem uniform_single (ts : List Template) :
    Collect.Uniform fill (fun t => openings t = openingsAll ts) fun f => Act.single (fills f ts) := by
  match ts with
  | [] => exact uniform_sequence []
  | [t] => exact Collect.uniform_pure (t := t) (by simp)
  | t :: u :: more => exact uniform_sequence (t :: u :: more)

theorem uniform_singleIfAny (ts : List Template) :
    Collect.Uniform (fun f t => Option.map (fill f) t) (fun t => openingsAll t.toList = openingsAll ts)
      fun f => Act.singleIfAny (fills f ts) := by
  cases ts with
  | nil => exact Collect.uniform_pure (t := none) rfl
  | cons t more =>
    change Collect.Uniform _ _ fun f => Act.single (fills f (t :: more)) >>= fun a => pure (some a)
    refine (uniform_single (t :: more)).bind fun u hu => ?_
    exact Collect.uniform_pure (t := some u) (by simpa using hu)

theorem uniform_conditional (condition : Value) (t : Template) (u : Option Template) :
    Collect.Uniform fill (fun v => openings v = openingsAll (t :: u.toList)) fun f =>
      Act.conditional condition (fill f t) (u.map (fill f)) := by
  have h := uniform_composite .conditional "" "" "" .unset .unset
    (some (.object [("condition", condition)])) (t :: u.toList)
  cases u <;> exact h

theorem uniform_choice (condition : Value) (ts us : List Template) :
    Collect.Uniform fill (fun t => openings t = openingsAll (ts ++ us)) fun f =>
      Act.choice condition (fills f ts) (fills f us) := by
  refine (uniform_single ts).bind fun t ht => (uniform_singleIfAny us).bind fun u hu => ?_
  refine (uniform_conditional condition t u).imp fun v hv => ?_
  rw [hv, openingsAll_cons, openingsAll_append, ht, hu]

theorem uniform_mapM_single (bs : List (List Template)) :
    Collect.Uniform fills (fun ts => openingsAll ts = openingsAll bs.flatten) fun f =>
      (bs.map (fills f)).mapM Act.single := by
  induction bs with
  | nil => exact Collect.uniform_pure (g := fills) (t := []) rfl
  | cons b bs ih =>
    simp only [List.map_cons, List.mapM_cons]
    refine (uniform_single b).bind fun t ht => ih.bind fun ts hts => ?_
    refine Collect.uniform_pure (g := fills) (t := t :: ts) ?_
    rw [openingsAll_cons, List.flatten_cons, openingsAll_append, ht, hts]

theorem uniform_selection (d : Value) (tests : List Value) (bs : List (List Template)) :
    Collect.Uniform fill (fun t => openings t = openingsAll bs.flatten) fun f =>
      Act.selection d tests (bs.map (fills f)) := by
  refine (uniform_mapM_single bs).bind fun ts hts => ?_
  have h := uniform_composite .switch "" "" "" .unset .unset
    (some (.object [("discriminant", d), ("cases", .list tests)])) ts
  exact h.imp fun t ht => ht.trans hts

/-- An action that changes a store at a path by a call: by its method, its store and its path, and to its
value, read in the scope of the call. -/
structure Act.IsChange (a : Act) (s : Scope) (store : Store) (method : String) (key value : Node) :
    Prop where
  kind : storeMethod? method = some a.kind
  scope : a.scope = .set store.scope
  storage : a.storage = .set store.storage
  keyPath : key.staticString?.map .set = some a.keyPath
  value : a.value = some (staticValue s.props value)

/-- A change is left open at a place that is its call: whatever the value of the call is replaced by, the
change is that of the call with its new value. -/
inductive Place.LeavesOpen : Place → Template → Prop
  | intro {s : Scope} {store : Store} {method : String} {key value : Node} {line : Nat} {t : Template} :
    isValueMethod (some method) = true → value.isValue = true →
      (∀ f : Replacement, (fill f t).IsChange s store method key (f.apply value)) →
        LeavesOpen (.call s (.mutation store (some method)) [key, value] line) t

/-- A change at a path is left open at its call. -/
theorem uniform_mutation {s : Scope} {store : Store} {method path : String} {kind : ActionKind}
    {key value : Node} (line : Nat) (hm : isValueMethod (some method) = true)
    (hk : storeMethod? method = some kind) (hpath : key.staticString? = some path)
    (hv : value.isValue = true) :
    Collect.Uniform fill (fun t => ∀ u ∈ openings t,
        Place.LeavesOpen (.call s (.mutation store (some method)) [key, value] line) u) fun f =>
      Act.mutation kind store path (some (staticValue s.props (f.apply value))) := by
  have hkind : kind = .storeSet ∨ kind = .storeMerge := by
    obtain rfl | rfl : method = "set" ∨ method = "merge" := by simpa [isValueMethod] using hm
    · exact .inl (Option.some.inj hk).symm
    · exact .inr (Option.some.inj hk).symm
  intro p
  obtain ⟨id, q, hid⟩ : ∃ id q,
      (Collect.ticket kind store.scope.name store.storage.name path).outcome p = (id, q) := ⟨_, _, rfl⟩
  let t : Template := ⟨(id, some (s.props, value)), kind, .set store.scope, .set store.storage,
    .set path, none, .unset⟩
  have hfill (f : Replacement) : fill f t = ⟨id, kind, .set store.scope, .set store.storage, .set path,
      some (staticValue s.props (f.apply value)), .unset⟩ := by
    rw [fill, fillSlot, valueIn, if_pos hkind]
  refine ⟨t, q, fun u hu => ?_, fun f => ?_⟩
  · rw [openings_of_unset rfl] at hu
    obtain rfl := List.mem_singleton.1 (List.mem_of_mem_filter hu)
    refine .intro hm hv fun f => ?_
    rw [hfill]
    exact ⟨hk, rfl, rfl, by rw [hpath]; rfl, rfl⟩
  · change (Collect.ticket _ _ _ _ >>= _ : Collect Act).outcome p = _
    rw [Collect.outcome_bind, hid, hfill]
    rfl

end Scenario

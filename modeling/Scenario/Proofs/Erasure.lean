import Scenario.Proofs.Likeness

namespace Scenario

open Syntax

namespace Action

variable {ι : Type}

mutual

/-- An action without the identifiers in it. -/
def erase : Action ι → Action Unit
  | ⟨_, kind, scope, storage, keyPath, value, actions⟩ =>
    ⟨(), kind, scope, storage, keyPath, value, eraseSlot actions⟩

def eraseSlot : Slot (List (Action ι)) → Slot (List (Action Unit))
  | .unset => .unset
  | .null => .null
  | .set actions => .set (eraseAll actions)

def eraseAll : List (Action ι) → List (Action Unit)
  | [] => []
  | a :: more => a.erase :: eraseAll more

end

@[simp] theorem eraseAll_nil : eraseAll ([] : List (Action ι)) = [] := rfl

@[simp] theorem eraseAll_cons (a : Action ι) (as : List (Action ι)) :
    eraseAll (a :: as) = a.erase :: eraseAll as := rfl

theorem eraseAll_eq_map (as : List (Action ι)) : eraseAll as = as.map erase := by
  induction as with
  | nil => rfl
  | cons a as ih => simp [ih]

@[simp] theorem eraseAll_append (as bs : List (Action ι)) :
    eraseAll (as ++ bs) = eraseAll as ++ eraseAll bs := by
  simp [eraseAll_eq_map]

@[simp] theorem length_eraseAll (as : List (Action ι)) : (eraseAll as).length = as.length := by
  simp [eraseAll_eq_map]

@[simp] theorem kind_erase (a : Action ι) : a.erase.kind = a.kind := by
  cases a
  rfl

/-- A change of a store at a path. -/
def ofChange (kind : ActionKind) (store : Store) (path : String) (value : Option Value) :
    Action Unit :=
  { id := (), kind, scope := .set store.scope, storage := .set store.storage, keyPath := .set path
    value }

/-- Changes of a store that are made together. -/
def ofChanges (store : Store) (changes : List (Action Unit)) : Action Unit :=
  { id := (), kind := .storeTransaction, scope := .set store.scope, storage := .set store.storage
    actions := .set changes }

/-- Something that the runtime does; an empty payload is left out. -/
def ofEffect (kind : ActionKind) (payload : Fields Value) : Action Unit :=
  { id := (), kind, value := if payload.isEmpty then none else some (.object payload) }

/-- A request with what follows its success and its failure. -/
def ofRequest (payload : Fields Value) (onSuccess onError : Action Unit) : Action Unit :=
  { id := (), kind := .apiRequest, value := some (.object payload)
    actions := .set [onSuccess, onError] }

/-- One action as it is; none or several as a sequence. -/
def ofList : List (Action Unit) → Action Unit
  | [a] => a
  | as => { id := (), kind := .sequence, actions := .set as }

/-- The choice between two lists of actions; an empty second one is left out. -/
def ofBranches (condition : Value) (as bs : List (Action Unit)) : Action Unit :=
  { id := (), kind := .conditional, value := some (.object [("condition", condition)])
    actions := .set (ofList as :: match bs with | [] => [] | bs => [ofList bs]) }

/-- The choice between lists of actions by a value. -/
def ofClauses (discriminant : Value) (cases : List Value) (branches : List (List (Action Unit))) :
    Action Unit :=
  { id := (), kind := .switch
    value := some (.object [("discriminant", discriminant), ("cases", .list cases)])
    actions := .set (branches.map ofList) }

theorem erase_single (as : List Act) (p : Progress) :
    ((Act.single as).outcome p).1.erase = ofList (eraseAll as) := by
  match as with
  | [] => rfl
  | [a] => rfl
  | a :: b :: more => rfl

theorem erase_choice (condition : Value) (as bs : List Act) (p : Progress) :
    ((Act.choice condition as bs).outcome p).1.erase =
      ofBranches condition (eraseAll as) (eraseAll bs) := by
  have hfirst := erase_single as p
  cases bs with
  | nil =>
    change Action.mk () _ _ _ _ _ (.set [((Act.single as).outcome p).1.erase]) = _
    rw [hfirst]
    rfl
  | cons b more =>
    have hsecond := erase_single (b :: more) ((Act.single as).outcome p).2
    change Action.mk () _ _ _ _ _ (.set [((Act.single as).outcome p).1.erase,
      ((Act.single (b :: more)).outcome ((Act.single as).outcome p).2).1.erase]) = _
    rw [hfirst, hsecond]
    rfl

theorem eraseAll_branches (branches : List (List Act)) (p : Progress) :
    eraseAll ((branches.mapM Act.single).outcome p).1 =
      (branches.map eraseAll).map ofList := by
  induction branches generalizing p with
  | nil => rfl
  | cons as more ih =>
    rw [List.mapM_cons, Collect.outcome_bind, Collect.outcome_bind, Collect.outcome_pure]
    simp only [eraseAll_cons, List.map_cons, erase_single, ih]

theorem erase_selection (d : Value) (tests : List Value) (branches : List (List Act))
    (p : Progress) :
    ((Act.selection d tests branches).outcome p).1.erase =
      ofClauses d tests (branches.map eraseAll) := by
  change Action.mk () _ _ _ _ _ (.set (eraseAll ((branches.mapM Act.single).outcome p).1)) = _
  rw [eraseAll_branches]
  rfl

end Action

namespace Act

@[simp] theorem diagnostics_single (as : List Act) (p : Progress) :
    ((single as).outcome p).2.diagnostics = p.diagnostics := by
  match as with
  | [] => rfl
  | [a] => rfl
  | a :: b :: more => rfl

@[simp] theorem diagnostics_choice (condition : Value) (as bs : List Act) (p : Progress) :
    ((choice condition as bs).outcome p).2.diagnostics = p.diagnostics := by
  have hfirst := diagnostics_single as p
  cases bs with
  | nil => exact hfirst
  | cons b more =>
    exact (diagnostics_single (b :: more) ((single as).outcome p).2).trans hfirst

@[simp] theorem diagnostics_selection (d : Value) (tests : List Value) (branches : List (List Act))
    (p : Progress) : ((selection d tests branches).outcome p).2.diagnostics = p.diagnostics := by
  change ((branches.mapM single).outcome p).2.diagnostics = _
  induction branches generalizing p with
  | nil => rfl
  | cons as more ih =>
    rw [List.mapM_cons, Collect.outcome_bind, Collect.outcome_bind, Collect.outcome_pure, ih,
      diagnostics_single]

end Act

namespace Likeness

open Scenario.Action

/-- Two stretches report the same errors. -/
def Reports (p q p' q' : Progress) : Prop :=
  ∃ ds : List Diagnostic, (∀ d ∈ ds, d.severity = .error) ∧
    q.diagnostics = p.diagnostics ++ ds ∧ q'.diagnostics = p'.diagnostics ++ ds

theorem Reports.none {p q p' q' : Progress} (h : q.diagnostics = p.diagnostics)
    (h' : q'.diagnostics = p'.diagnostics) : Reports p q p' q' :=
  ⟨[], by simp, by simpa using h, by simpa using h'⟩

theorem Reports.trans {p q r p' q' r' : Progress} (h : Reports p q p' q')
    (h' : Reports q r q' r') : Reports p r p' r' := by
  obtain ⟨ds, hds, hq, hq'⟩ := h
  obtain ⟨es, hes, hr, hr'⟩ := h'
  exact ⟨ds ++ es, List.forall_mem_append.2 ⟨hds, hes⟩, by rw [hr, hq, List.append_assoc],
    by rw [hr', hq', List.append_assoc]⟩

/-- Two runs make the same actions but for their identifiers, and report the same. -/
def agreement : Likeness where
  start _ _ := True
  made x x' := eraseAll x.result = eraseAll x'.result ∧ Reports x.before x.after x'.before x'.after
  changed _ x x' :=
    eraseAll x.result = eraseAll x'.result ∧ Reports x.before x.after x'.before x'.after
  called x x' := x.result.erase = x'.result.erase ∧ Reports x.before x.after x'.before x'.after

theorem agreement_append {p p' q q' r r' : Progress} {as as' bs bs' : List Act}
    (ha : agreement.made ⟨p, as, q⟩ ⟨p', as', q'⟩) (hb : agreement.made ⟨q, bs, r⟩ ⟨q', bs', r'⟩) :
    agreement.made ⟨p, as ++ bs, r⟩ ⟨p', as' ++ bs', r'⟩ := by
  obtain ⟨ha, hq⟩ := ha
  obtain ⟨hb, hr⟩ := hb
  refine ⟨?_, hq.trans hr⟩
  change eraseAll (as ++ bs) = eraseAll (as' ++ bs')
  rw [eraseAll_append, eraseAll_append, ha, hb]

theorem Branches.of_agreement {x x' : Run (List (List Act))} (h : agreement.Branches x x') :
    x.result.map eraseAll = x'.result.map eraseAll ∧
      Reports x.before x.after x'.before x'.after := by
  induction h with
  | nil => exact ⟨rfl, .none rfl rfl⟩
  | cons hm _ ih =>
    obtain ⟨ha, hq⟩ := hm
    obtain ⟨hb, hr⟩ := ih
    simp only at ha hb hq hr
    exact ⟨by simp [ha, hb], hq.trans hr⟩

/-- A step that makes one action and reports nothing, behind steps that agree. -/
theorem agreement_one {p p' q q' r r' : Progress} {a a' : Act} (h : Reports p q p' q')
    (hr : r.diagnostics = q.diagnostics) (hr' : r'.diagnostics = q'.diagnostics)
    (ha : a.erase = a'.erase) : agreement.made ⟨p, [a], r⟩ ⟨p', [a'], r'⟩ :=
  ⟨by simp [ha], h.trans (.none hr hr')⟩

theorem lawful_agreement : agreement.Lawful where
  next _ := trivial
  length_eq hm := by simpa using congrArg List.length hm.1
  nil _ := ⟨rfl, .none rfl rfl⟩
  append := agreement_append
  lose hm := ⟨rfl, hm.2⟩
  report _ _ := ⟨rfl, [_], List.forall_mem_singleton.2 rfl, rfl, rfl⟩
  unchanged _ _ := ⟨rfl, .none rfl rfl⟩
  change := agreement_append
  made_of_changed hc := hc
  mutation _ _ _ _ := agreement_one (.none rfl rfl) rfl rfl rfl
  transaction {_ _ _ _ as as' store} _ hc := by
    refine agreement_one hc.2 rfl rfl ?_
    change Action.mk () _ _ _ _ _ (.set (eraseAll as)) = Action.mk () _ _ _ _ _ (.set (eraseAll as'))
    rw [show eraseAll as = eraseAll as' from hc.1]
  effect _ _ _ := agreement_one (.none rfl rfl) rfl rfl rfl
  handler _ hm := by
    refine agreement_one hm.2 (Act.diagnostics_single _ _) (Act.diagnostics_single _ _) ?_
    rw [erase_single, erase_single]
    exact congrArg ofList hm.1
  sequence {_ _ _ _ as as'} hm := by
    refine ⟨?_, hm.2.trans (.none rfl rfl)⟩
    change Action.mk () _ _ _ _ _ (.set (eraseAll as)) = Action.mk () _ _ _ _ _ (.set (eraseAll as'))
    rw [show eraseAll as = eraseAll as' from hm.1]
  behind hc := ⟨rfl, hc.2⟩
  request {_ _ _ _ _ _ a a' b b' _ _ _ r} _ ha hb := by
    refine agreement_one (ha.2.trans hb.2) rfl rfl ?_
    change Action.mk () _ _ _ _ _ (.set [a.erase, b.erase]) =
      Action.mk () _ _ _ _ _ (.set [a'.erase, b'.erase])
    rw [show a.erase = a'.erase from ha.1, show b.erase = b'.erase from hb.1]
  choice {_ _ _ _ _ _ as as' bs bs'} c ha hb := by
    refine agreement_one (ha.2.trans hb.2) (Act.diagnostics_choice _ _ _ _)
      (Act.diagnostics_choice _ _ _ _) ?_
    rw [erase_choice, erase_choice, show eraseAll as = eraseAll as' from ha.1,
      show eraseAll bs = eraseAll bs' from hb.1]
  selection d _ hb := by
    obtain ⟨hbs, hr⟩ := hb.of_agreement
    refine agreement_one hr (Act.diagnostics_selection _ _ _ _)
      (Act.diagnostics_selection _ _ _ _) ?_
    rw [erase_selection, erase_selection]
    exact congrArg (ofClauses d _) hbs

end Likeness

end Scenario

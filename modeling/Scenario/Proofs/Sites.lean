import Scenario.Proofs.Compiling
import Scenario.Proofs.Identity
import Scenario.Proofs.Inheritance

namespace Scenario

open Syntax Analysis Likeness Scenario.Action

namespace Collect

variable {α β γ : Type}

/-- What the steps of a list give, one after the other. -/
def inTurn (f : α → Collect (List β)) : List α → Collect (List β)
  | [] => pure []
  | x :: more => do
    let first ← f x
    let rest ← inTurn f more
    return first ++ rest

theorem inTurn_singleton (f : α → Collect (List β)) (x : α) : inTurn f [x] = f x := by
  simp [inTurn]

theorem inTurn_append (f : α → Collect (List β)) (xs ys : List α) :
    inTurn f (xs ++ ys) = do
      let first ← inTurn f xs
      let rest ← inTurn f ys
      return first ++ rest := by
  induction xs with
  | nil => simp [inTurn]
  | cons x xs ih =>
    simp only [List.cons_append, inTurn, ih, bind_assoc, pure_bind, List.append_assoc]

theorem inTurn_map (f : β → Collect (List γ)) (g : α → β) (xs : List α) :
    inTurn f (xs.map g) = inTurn (fun x => f (g x)) xs := by
  induction xs with
  | nil => rfl
  | cons x xs ih => simp [inTurn, ih]

/-- If each step is itself made of steps in turn, so is the whole. -/
theorem inTurn_flatMap {f : β → Collect (List γ)} {g : α → List β} {h : α → Collect (List γ)}
    {xs : List α} (hx : ∀ x ∈ xs, h x = inTurn f (g x)) : inTurn h xs = inTurn f (xs.flatMap g) := by
  induction xs with
  | nil => rfl
  | cons x xs ih =>
    have hmore := ih fun y hy => hx y (List.mem_cons_of_mem x hy)
    rw [List.flatMap_cons, inTurn_append, inTurn, hx x List.mem_cons_self, hmore]

end Collect

open Collect

inductive Site where
  | call (s : Scope) (c : Call) (arguments : List Node) (line : Nat)
  | handler (s : Scope) (params : List Node) (body : Node)

namespace Site

/-- What a search takes from a site. -/
def collect : Site → Collect (List Act)
  | .call s c arguments line => (callActions s c arguments line).orReport
  | .handler s params body => (handlerActions s params body).orReport

/-- The actions of a site by itself. -/
def actions (x : Site) : List (Action Unit) := eraseAll (x.collect.outcome {}).1

def reports (x : Site) : List Diagnostic := (x.collect.outcome {}).2.diagnostics

theorem collects (x : Site) : agreement.Collects x.collect := by
  cases x with
  | call s c arguments line => exact (agrees.callActions s c arguments line).orReport lawful_agreement
  | handler s params body => exact (agrees.handlerActions s params body).orReport lawful_agreement

/-- A site gives and reports the same, whatever was found before it. -/
theorem outcome_collect (x : Site) (p : Progress) :
    eraseAll (x.collect.outcome p).1 = x.actions ∧
      (x.collect.outcome p).2.diagnostics = p.diagnostics ++ x.reports := by
  obtain ⟨hactions, ds, -, hp, hstart⟩ := x.collects p {} trivial
  have hreports : x.reports = ds := hstart
  rw [hreports]
  exact ⟨hactions, hp⟩

theorem outcome_inTurn (xs : List Site) (p : Progress) :
    eraseAll ((inTurn collect xs).outcome p).1 = xs.flatMap actions ∧
      ((inTurn collect xs).outcome p).2.diagnostics = p.diagnostics ++ xs.flatMap reports := by
  induction xs generalizing p with
  | nil => simp [inTurn]
  | cons x xs ih =>
    obtain ⟨hfirst, hreports⟩ := x.outcome_collect p
    obtain ⟨hrest, hmore⟩ := ih (x.collect.outcome p).2
    rw [inTurn, Collect.outcome_bind, Collect.outcome_bind, Collect.outcome_pure]
    constructor
    · simp only [eraseAll_append, List.flatMap_cons, hfirst, hrest]
    · simp only [hmore, hreports, List.flatMap_cons, List.append_assoc]

/-- Whether a site can give actions: a handler can, and a call that is an action. -/
def isAction : Site → Bool
  | .call _ c _ _ => c.isAction
  | .handler .. => true

/-- A call gives one action, or none with a report of that; a handler gives one at most. -/
def Accounts (x : Site) : Prop :=
  match x with
  | .call .. => x.actions.length = 1 ∨
    x.actions = [] ∧ ∃ d ∈ x.reports, d.code = .unsupportedActionExpression
  | .handler .. => x.actions.length ≤ 1

theorem actions_call {s : Scope} {c : Call} (arguments : List Node) (line : Nat)
    (hc : c.isAction = true) :
    (∃ a, (Site.call s c arguments line).actions = [a] ∧ a.kind.isControl = false) ∨
      (Site.call s c arguments line).actions = [] ∧
        ∃ d ∈ (Site.call s c arguments line).reports, d.code = .unsupportedActionExpression := by
  unfold actions reports collect
  rw [outcome_orReport]
  rcases ho : (callActions s c arguments line).outcome {} with ⟨r | out, q⟩
  · refine .inr ⟨rfl, ?_⟩
    exact ⟨_, List.mem_append_right _ (List.mem_singleton_self _), rfl⟩
  · obtain ⟨a, rfl, ha⟩ := exists_of_callActions hc ho
    exact .inl ⟨a.erase, rfl, by rwa [kind_erase]⟩

theorem actions_handler (s : Scope) (params : List Node) (body : Node) :
    (Site.handler s params body).actions.length ≤ 1 := by
  unfold actions collect
  dsimp only
  rw [outcome_orReport]
  rcases ho : (handlerActions s params body).outcome {} with ⟨r | out, q⟩
  · exact Nat.zero_le 1
  · rw [handlerActions] at ho
    obtain ⟨as, t, -, ho⟩ := of_outcome_bind_ok ho
    cases as with
    | nil =>
      cases ho
      exact Nat.zero_le 1
    | cons a more =>
      obtain ⟨b, u, -, ho⟩ := of_outcome_bind_ok ho
      cases ho
      exact Nat.le_refl 1

theorem accounts {x : Site} (hx : x.isAction = true) : x.Accounts := by
  cases x with
  | call s c arguments line =>
    obtain ⟨a, ha, -⟩ | hnone := actions_call (s := s) arguments line hx
    · exact .inl (by rw [ha]; rfl)
    · exact .inr hnone
  | handler s params body => exact actions_handler s params body

end Site

namespace Place

/-- What a search takes from a place. Statements and expressions are no places that it comes to. -/
def collect : Place → Collect (List Act)
  | .node s n => walk s n
  | .function s params body => (Site.handler s params body).collect
  | .call s c arguments line => (Site.call s c arguments line).collect
  | .statement .. => pure []
  | .expression .. => pure []

theorem walkAll_eq_inTurn (s : Scope) (ns : List Node) :
    walkAll s ns = inTurn collect (ns.map (.node s)) := by
  rw [inTurn_map]
  induction ns with
  | nil => rw [walkAll, inTurn]
  | cons n more ih => rw [walkAll, inTurn, ih, collect]

theorem walkAttribute_eq_collect (s : Scope) (n : Node) :
    walkAttribute s n = (ofAttribute s n).collect := by
  unfold ofAttribute
  cases hn : handler? n with
  | none => exact walkAttribute_of_none hn
  | some f => exact walkAttribute_of_handler? hn

theorem walkAttributes_eq_inTurn (s : Scope) (ns : List Node) :
    walkAttributes s ns = inTurn collect (ns.map (ofAttribute s)) := by
  rw [inTurn_map]
  induction ns with
  | nil => rw [walkAttributes, inTurn]
  | cons n more ih => rw [walkAttributes, inTurn, ih, walkAttribute_eq_collect]

theorem walkFunction_eq_inTurn (s : Scope) (params : List Node) (body : Node) :
    walkFunction s params body = inTurn collect (ofBody (s.function params) body) := by
  unfold walkFunction
  split
  · exact walkAll_eq_inTurn _ _
  · rw [ofBody, inTurn_singleton]
    · rfl
    · assumption

/-- One step of a search: what it takes from a node it takes from the places inside. -/
theorem walk_eq_inTurn (s : Scope) (n : Node) : walk s n = inTurn collect (insideNode s n) := by
  unfold walk
  split
  · exact walkFunction_eq_inTurn _ _ _
  · exact walkFunction_eq_inTurn _ _ _
  · exact walkFunction_eq_inTurn _ _ _
  · exact walkAll_eq_inTurn _ _
  · rw [insideNode, inTurn_append, walkAttributes_eq_inTurn, walkAll_eq_inTurn]
  · rename_i callee arguments line
    rw [insideNode]
    cases s.classify callee with
    | none => exact walkAll_eq_inTurn _ _
    | some c => exact (inTurn_singleton collect (.call s c arguments line)).symm
  · rw [insideNode] <;> try assumption
    exact walkAll_eq_inTurn _ _

/-- The sites that a search comes to, in order. -/
noncomputable def sites (p : Place) : List Site :=
  match p with
  | .node s n => (insideNode s n).attach.flatMap fun q => sites q.1
  | .function s params body => [.handler s params body]
  | .call s c arguments line => if c.isAction then [.call s c arguments line] else []
  | .statement .. => []
  | .expression .. => []
termination_by p.size
decreasing_by exact size_lt_of_mem_insideNode q.2

theorem sites_node (s : Scope) (n : Node) :
    (Place.node s n).sites = (insideNode s n).flatMap sites := by
  rw [sites, List.flatMap_subtype fun q _ => rfl, List.unattach_attach]

/-- A search runs its sites one after the other. -/
theorem collect_eq_inTurn_sites (p : Place) : p.collect = inTurn Site.collect p.sites := by
  induction p using sites.induct with
  | case1 s n ih =>
    rw [sites_node, collect, walk_eq_inTurn]
    exact inTurn_flatMap fun q hq => ih ⟨q, hq⟩
  | case2 s params body =>
    rw [sites, inTurn_singleton]
    rfl
  | case3 s c arguments line hc =>
    rw [sites, if_pos hc, inTurn_singleton]
    rfl
  | case4 s c arguments line hc =>
    have hnone := callActions_of_isAction_eq_false (s := s) (by simpa using hc) arguments line
    rw [sites, if_neg hc, inTurn, collect, Site.collect, hnone]
    rfl
  | case5 s n =>
    rw [sites]
    rfl
  | case6 s n =>
    rw [sites]
    rfl

theorem isAction_of_mem_sites {p : Place} {x : Site} (h : x ∈ p.sites) : x.isAction = true := by
  induction p using sites.induct with
  | case1 s n ih =>
    rw [sites_node] at h
    obtain ⟨q, hq, hx⟩ := List.mem_flatMap.1 h
    exact ih ⟨q, hq⟩ hx
  | case2 s params body =>
    rw [sites] at h
    obtain rfl := List.mem_singleton.1 h
    rfl
  | case3 s c arguments line hc =>
    rw [sites, if_pos hc] at h
    obtain rfl := List.mem_singleton.1 h
    exact hc
  | case4 s c arguments line hc =>
    rw [sites, if_neg hc] at h
    cases h
  | case5 s n =>
    rw [sites] at h
    cases h
  | case6 s n =>
    rw [sites] at h
    cases h

end Place

namespace Action

variable {ι : Type}

theorem mem_occurrencesAll {as : List (Action ι)} {b : Action ι} :
    b ∈ occurrencesAll as ↔ ∃ a ∈ as, b ∈ a.occurrences := by
  induction as with
  | nil => simp [occurrencesAll]
  | cons a as ih => simp [occurrencesAll, ih]

theorem shapeError?_of_effect {a : Action ι} (hs : a.kind.isStore = false)
    (hc : a.kind.isComposite = false) (ha : a.actions = .unset) : a.shapeError? = none := by
  simp [shapeError?, hs, hc, ha, Slot.value?]

/-- An action that passes the check of its members at every depth. -/
def Sound (a : Action ι) : Prop := ∀ b ∈ a.occurrences, b.shapeError? = none

theorem sound_of_unset {a : Action ι} (h : a.shapeError? = none) (ha : a.actions = .unset) :
    a.Sound := by
  obtain ⟨id, kind, scope, storage, keyPath, value, actions⟩ := a
  obtain rfl : actions = .unset := ha
  intro b hb
  rw [occurrences, occurrencesSlot] at hb
  obtain rfl := List.mem_singleton.1 hb
  exact h

theorem sound_of_set {a : Action ι} {as : List (Action ι)} (h : a.shapeError? = none)
    (ha : a.actions = .set as) (has : ∀ b ∈ as, b.Sound) : a.Sound := by
  obtain ⟨id, kind, scope, storage, keyPath, value, actions⟩ := a
  obtain rfl : actions = .set as := ha
  intro b hb
  rw [occurrences, occurrencesSlot] at hb
  rcases List.mem_cons.1 hb with rfl | hb
  · exact h
  · obtain ⟨c, hc, hb⟩ := mem_occurrencesAll.1 hb
    exact has c hc b hb

section Making

variable {p : Progress} {as bs : List Act}

theorem sound_mutation {kind : ActionKind} {value : Option Value} (store : Store) (path : String)
    (h : IsMutation kind value) : ((Act.mutation kind store path value).outcome p).1.Sound := by
  refine sound_of_unset ?_ rfl
  obtain ⟨rfl, -⟩ | ⟨rfl | rfl, -⟩ := h <;> rfl

theorem sound_effect (payload : Fields Value) {space : Namespace} {name : String}
    {shape : EffectShape} (h : space.effect? name = some shape) :
    ((Act.effect shape.kind payload).outcome p).1.Sound := by
  obtain ⟨hs, hc⟩ := Namespace.isEffect_of_effect? h
  exact sound_of_unset (shapeError?_of_effect hs hc rfl) rfl

theorem sound_sequence (h : ∀ a ∈ as, a.Sound) : ((Act.sequence as).outcome p).1.Sound :=
  sound_of_set rfl rfl h

theorem sound_single (h : ∀ a ∈ as, a.Sound) : ((Act.single as).outcome p).1.Sound := by
  match as, h with
  | [], h => exact sound_sequence h
  | [a], h => exact h a (List.mem_singleton_self a)
  | a :: b :: more, h => exact sound_sequence h

theorem sound_choice (condition : Value) (ha : ∀ a ∈ as, a.Sound) (hb : ∀ b ∈ bs, b.Sound) :
    ((Act.choice condition as bs).outcome p).1.Sound := by
  have hfirst := sound_single (p := p) ha
  cases bs with
  | nil => exact sound_of_set rfl rfl (List.forall_mem_singleton.2 hfirst)
  | cons b more =>
    have hsecond := sound_single (p := ((Act.single as).outcome p).2) hb
    exact sound_of_set rfl rfl
      (List.forall_mem_cons.2 ⟨hfirst, List.forall_mem_singleton.2 hsecond⟩)

theorem sound_branches {branches : List (List Act)} (h : ∀ as ∈ branches, ∀ a ∈ as, a.Sound) :
    ∀ a ∈ ((branches.mapM Act.single).outcome p).1, a.Sound := by
  induction branches generalizing p with
  | nil => simp
  | cons as more ih =>
    rw [List.mapM_cons, Collect.outcome_bind, Collect.outcome_bind, Collect.outcome_pure]
    refine List.forall_mem_cons.2 ⟨sound_single (h as List.mem_cons_self), ?_⟩
    exact ih fun bs hbs => h bs (List.mem_cons_of_mem as hbs)

end Making

/-- Whatever is made passes the check of its members. -/
theorem closed_sound : Closed Sound (fun _ => Sound) Sound where
  made_of_changed _ _ h := h
  mutation _ _ _ store path h := sound_mutation store path h
  transaction _ _ _ _ h := sound_of_set rfl rfl h
  effect _ payload _ _ _ h := sound_effect payload h
  handler _ _ _ h := sound_single h
  sequence _ _ h := sound_sequence h
  request _ _ _ _ _ _ _ _ ha hb :=
    sound_of_set rfl rfl (List.forall_mem_cons.2 ⟨ha, List.forall_mem_singleton.2 hb⟩)
  choice _ c _ _ ha hb := sound_choice c.toValue ha hb
  selection _ _ _ _ _ h := sound_of_set rfl rfl (sound_branches h)

end Action

namespace Syntax.Node

/-- What may stand in a node for an expression that is missing: an empty container in markup, and
nothing in a list. -/
def IsGap (n c : Node) : Prop :=
  if n.allowsEmpty then c = .container .absent else n.isLoose ∧ c = .absent

/-- No expression is missing in a node but where one may be. -/
inductive Whole : Node → Prop
  | intro {n : Node} : n ≠ .absent → (∀ c ∈ n.fields, ¬n.IsGap c → Whole c) → Whole n

theorem whole_iff {n : Node} : n.Whole ↔ n ≠ .absent ∧ ∀ c ∈ n.fields, ¬n.IsGap c → c.Whole :=
  ⟨fun h => by cases h; exact ⟨‹_›, ‹_›⟩, fun h => .intro h.1 h.2⟩

theorem not_isGap_of_isLoose_eq_false {n c : Node} (h : n.isLoose = false) : ¬n.IsGap c := by
  have hempty : n.allowsEmpty = false := by
    cases n with
    | array => cases h
    | _ => exact h
  simp [IsGap, h, hempty]

theorem Whole.fields {n c : Node} (h : n.Whole) (hn : n.isLoose = false) (hc : c ∈ n.fields) :
    c.Whole :=
  (whole_iff.1 h).2 c hc (not_isGap_of_isLoose_eq_false hn)

/-- A part of a whole node that is there is whole, or it is an empty container. -/
theorem Whole.parts {n c : Node} (h : n.Whole) (hc : c ∈ n.fields) (ha : c ≠ .absent) :
    c.Whole ∨ c = .container .absent := by
  by_cases hgap : n.IsGap c
  · unfold IsGap at hgap
    split at hgap
    · exact .inr hgap
    · exact (ha hgap.2).elim
  · exact .inl ((whole_iff.1 h).2 c hc hgap)

theorem Whole.of_fields {n : Node} (hn : n ≠ .absent) (h : ∀ c ∈ n.fields, c.Whole) : n.Whole :=
  .intro hn fun c hc _ => h c hc

theorem whole_expressionStatement {e : Node} (h : e.Whole) : (expressionStatement e).Whole :=
  .of_fields (by simp) (List.forall_mem_singleton.2 h)

theorem inherited_whole :
    Inherited Whole (fun n => n.Whole ∨ n = .container .absent) fun _ body => body.Whole where
  search := .inl
  compile hn hcontainer := hn.resolve_right (hcontainer _)
  fields hn hloose hc := hn.fields hloose hc
  children {n c} hn hc := by
    obtain ⟨hfield, hpresent⟩ := List.mem_filter.1 hc
    have ha : c ≠ .absent := by
      rintro rfl
      cases hpresent
    obtain hn | rfl := hn
    · exact hn.parts hfield ha
    · exact (ha (List.mem_singleton.1 hfield)).elim
  markup {name attributes children line c} hn hc := by
    by_cases hgap : (element name attributes children line).IsGap c
    · exact .inr hgap
    · exact .inl ((whole_iff.1 hn).2 c hc hgap)
  enter {n body params} hn hf := by
    cases n with
    | arrow | function | functionDeclaration =>
      cases hf
      exact hn.fields rfl (by simp [Node.fields])
    | _ => cases hf
  body hbody := hbody
  statement he := whole_expressionStatement he

end Syntax.Node

/-- What is compiled at a place is there, and no expression is missing in it but where one may be. -/
def Place.IsThere : Place → Prop
  | .node _ n => n.Whole ∨ n = .container .absent
  | .function _ _ body => body.Whole
  | .statement _ n => n.Whole
  | .expression _ n => n.Whole
  | .call _ _ arguments _ => ∀ a ∈ arguments, a.Whole

theorem Place.isThere_of_reaches {s : Scope} {n : Node} {q : Place} (hn : n.Whole)
    (hq : (Place.node s n).Reaches q) : q.IsThere := by
  have hstart : (Place.node s n).Has Node.Whole (fun n => n.Whole ∨ n = .container .absent)
      fun _ body => body.Whole := .inl hn
  have hq := hstart.of_reaches Node.inherited_whole hq
  cases q with
  | call s c arguments line =>
    obtain ⟨callee, hcall, -⟩ := hq
    exact fun a ha => hcall.fields rfl (List.mem_cons_of_mem callee ha)
  | _ => exact hq

/-- The sites of a program, in order. -/
noncomputable def sitesOf (body : List Node) : List Site :=
  (body.map (.node (Scope.module.hoist body))).flatMap Place.sites

theorem collectActions_eq_inTurn (body : List Node) :
    collectActions body = (do
      declareAllStores body
      inTurn Site.collect (sitesOf body)) := by
  have hwalk : inTurn Place.collect (body.map (.node (Scope.module.hoist body))) =
      inTurn Site.collect (sitesOf body) :=
    inTurn_flatMap fun p _ => Place.collect_eq_inTurn_sites p
  rw [collectActions, Place.walkAll_eq_inTurn, hwalk]

/-- The actions of a program are those of its sites in their order, one at most for each site, and of
a call that gives none there is a report. What a site gives and reports depends on nothing but the
site, so that one which fails is of no consequence for the others. The actions are built without
a fault at any depth; and where containers are empty in markup only, the search and the analyses come to
no expression that is missing. -/
theorem outcome_collectActions (body : List Node) (p : Progress) :
    let actions := ((collectActions body).outcome p).1
    let found := sitesOf body
    eraseAll actions = found.flatMap Site.actions ∧
      ((collectActions body).outcome p).2.diagnostics =
        ((declareAllStores body).outcome p).2.diagnostics ++ found.flatMap Site.reports ∧
      (∀ x ∈ found, x.Accounts ∧ ∀ q, eraseAll (x.collect.outcome q).1 = x.actions ∧
        (x.collect.outcome q).2.diagnostics = q.diagnostics ++ x.reports) ∧
      (∀ a ∈ occurrencesAll actions, a.shapeError? = none) ∧
      ((∀ n ∈ body, n.Whole) →
        ∀ n ∈ body, ∀ q, (Place.node (Scope.module.hoist body) n).Reaches q → q.IsThere) := by
  intro actions found
  have hrun : (collectActions body).outcome p =
      (inTurn Site.collect found).outcome ((declareAllStores body).outcome p).2 := by
    rw [collectActions_eq_inTurn, Collect.outcome_bind]
  obtain ⟨hactions, hreports⟩ :=
    Site.outcome_inTurn found ((declareAllStores body).outcome p).2
  refine ⟨by rw [← hactions, ← hrun], by rw [← hreports, ← hrun], fun x hx => ?_, fun a ha => ?_,
    fun hbody n hn q hq => Place.isThere_of_reaches (hbody n hn) hq⟩
  · obtain ⟨q, -, hx⟩ := List.mem_flatMap.1 hx
    exact ⟨Site.accounts (Place.isAction_of_mem_sites hx), x.outcome_collect⟩
  · obtain ⟨b, hb, ha⟩ := mem_occurrencesAll.1 ha
    exact closed_sound.collectActions body p b hb a ha

/-- A button with a handler, and with a container that is empty. -/
def emptyButton : Node :=
  .element "Button" [.attribute "onPress" (some (.container (.arrow [] (.call (.identifier "pop") [] 1)
    1)))] [.container .absent] 1

theorem whole_emptyButton : emptyButton.Whole := by
  have hname : (Node.identifier "pop").Whole := .of_fields (by simp) (by simp [Node.fields])
  have hcall : (Node.call (.identifier "pop") [] 1).Whole :=
    .of_fields (by simp) (List.forall_mem_singleton.2 hname)
  have harrow : (Node.arrow [] (.call (.identifier "pop") [] 1) 1).Whole :=
    .of_fields (by simp) (List.forall_mem_singleton.2 hcall)
  have hcontainer : (Node.container (.arrow [] (.call (.identifier "pop") [] 1) 1)).Whole :=
    .of_fields (by simp) (List.forall_mem_singleton.2 harrow)
  refine .intro (by simp [emptyButton]) fun c hc hgap => ?_
  obtain rfl | rfl : c = _ ∨ c = .container .absent := by simpa [emptyButton, Node.fields] using hc
  · exact .of_fields (by simp) (List.forall_mem_singleton.2 hcontainer)
  · exact (hgap rfl).elim

/-- The handler is there, and so is everything else that the search comes to. -/
theorem outcome_collectActions_emptyButton :
    emptyButton.Whole ∧ ∀ q, (Place.node Scope.module emptyButton).Reaches q → q.IsThere := by
  refine ⟨whole_emptyButton, ?_⟩
  have h := (outcome_collectActions [emptyButton] {}).2.2.2.2
  exact h (List.forall_mem_singleton.2 whole_emptyButton) emptyButton (List.mem_singleton_self _)

end Scenario

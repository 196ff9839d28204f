import Scenario.Proofs.Acceptance
import Scenario.Proofs.Places

namespace Scenario

open Syntax Analysis Scenario.Action

namespace Action

mutual

/-- The actions of which an action consists at any depth, itself included, less those that only say
which others are run. -/
def leaves : Action Unit → List (Action Unit)
  | ⟨_, kind, scope, storage, keyPath, value, actions⟩ =>
    (if kind.isControl then [] else [⟨(), kind, scope, storage, keyPath, value, actions⟩]) ++
      leavesSlot actions

def leavesSlot : Slot (List (Action Unit)) → List (Action Unit)
  | .unset => []
  | .null => []
  | .set actions => leavesAll actions

def leavesAll : List (Action Unit) → List (Action Unit)
  | [] => []
  | a :: more => leaves a ++ leavesAll more

end

theorem leaves_of_isControl_eq_false {a : Action Unit} (h : a.kind.isControl = false) :
    a.leaves = a :: leavesSlot a.actions := by
  cases a
  simp_all [leaves]

@[simp] theorem leavesAll_append (as bs : List (Action Unit)) :
    leavesAll (as ++ bs) = leavesAll as ++ leavesAll bs := by
  induction as with
  | nil => rfl
  | cons a as ih => simp [leavesAll, ih]

@[simp] theorem leavesAll_singleton (a : Action Unit) : leavesAll [a] = a.leaves := by
  simp [leavesAll]

@[simp] theorem leaves_ofList (as : List (Action Unit)) : (ofList as).leaves = leavesAll as := by
  match as with
  | [] => rfl
  | [a] => exact (leavesAll_singleton a).symm
  | a :: b :: more => rfl

@[simp] theorem leaves_ofBranches (c : Value) (as bs : List (Action Unit)) :
    (ofBranches c as bs).leaves = leavesAll as ++ leavesAll bs := by
  match bs with
  | [] =>
    change (ofList as).leaves ++ [] = _
    rw [leaves_ofList]
    rfl
  | b :: more =>
    change (ofList as).leaves ++ ((ofList (b :: more)).leaves ++ []) = _
    rw [leaves_ofList, leaves_ofList, List.append_nil]

theorem leavesAll_map_ofList (branches : List (List (Action Unit))) :
    leavesAll (branches.map ofList) = branches.flatMap leavesAll := by
  induction branches with
  | nil => rfl
  | cons as more ih => rw [List.map_cons, leavesAll, leaves_ofList, ih, List.flatMap_cons]

@[simp] theorem leaves_ofClauses (d : Value) (tests : List Value)
    (branches : List (List (Action Unit))) :
    (ofClauses d tests branches).leaves = branches.flatMap leavesAll :=
  leavesAll_map_ofList branches

end Action

/-- The actions of a place. -/
def placeActions : Place → Analysis (List Act)
  | .node s n => liftM (walk s n)
  | .function s params body => functionActions s params body
  | .statement s n => do return (← statement s n).1
  | .expression s n => expression s n
  | .call s c arguments line => callActions s c arguments line

/-- The actions that accepted places are compiled to, one place after the other. -/
inductive Gathers : List Place → List (Action Unit) → Prop where
  | nil : Gathers [] []
  | cons {p : Place} {ps : List Place} {out : List Act} {as : List (Action Unit)} :
    (placeActions p).Accepts out → Gathers ps as → Gathers (p :: ps) (leavesAll (eraseAll out) ++ as)

theorem Gathers.one {p : Place} {out : List Act} (h : (placeActions p).Accepts out) :
    Gathers [p] (leavesAll (eraseAll out)) := by
  have hcons := Gathers.cons h .nil
  rwa [List.append_nil] at hcons

theorem Gathers.append {ps qs : List Place} {as bs : List (Action Unit)} (h : Gathers ps as)
    (h' : Gathers qs bs) : Gathers (ps ++ qs) (as ++ bs) := by
  induction h with
  | nil => exact h'
  | cons hp _ ih =>
    rw [List.append_assoc]
    exact .cons hp ih

variable {s t : Scope} {n : Node} {ns : List Node} {as bs out : List Act}

theorem leavesAll_of_chooses {test : Node} (h : Chooses s test as bs out) :
    leavesAll (eraseAll out) = leavesAll (eraseAll as) ++ leavesAll (eraseAll bs) := by
  obtain ⟨rfl, rfl, rfl⟩ | ⟨c, -, hout⟩ := h
  · rfl
  · rw [hout, leavesAll_singleton, leaves_ofBranches]

theorem leavesAll_of_selects {d : Node} {cases : List Node} {branches : List (List Act)}
    (h : Selects s d cases branches out) :
    leavesAll (eraseAll out) = branches.flatMap fun as => leavesAll (eraseAll as) := by
  obtain ⟨v, tests, -, -, hout⟩ := h
  rw [hout, leavesAll_singleton, leaves_ofClauses, List.flatMap_map]

theorem grows_collect {m : Collect (List Act)} (h : Likeness.agreement.Collects m) :
    (liftM m : Analysis (List Act)).Grows := by
  intro p
  obtain ⟨-, ds, -, hq, -⟩ := h p p trivial
  exact ⟨ds, hq⟩

/-- What two searches find one after the other. -/
theorem accepts_both {m m' : Collect (List Act)} (hm : Likeness.agreement.Collects m)
    (hm' : Likeness.agreement.Collects m')
    (h : (liftM (do return (← m) ++ (← m') : Collect (List Act)) : Analysis _).Accepts out) :
    ∃ as bs, (liftM m : Analysis (List Act)).Accepts as ∧
      (liftM m' : Analysis (List Act)).Accepts bs ∧ out = as ++ bs := by
  have h : (do return (← liftM m) ++ (← liftM m') : Analysis (List Act)).Accepts out := h
  obtain ⟨as, ha, h⟩ := accepts_bind (grows_collect hm)
    (fun _ => (grows_collect hm').bind fun _ => grows_pure _) h
  obtain ⟨bs, hb, h⟩ := accepts_bind (grows_collect hm') (fun _ => grows_pure _) h
  exact ⟨as, bs, ha, hb, accepts_pure h⟩

theorem gathers_walkAll (h : (liftM (walkAll s ns) : Analysis (List Act)).Accepts out) :
    Gathers (ns.map (.node s)) (leavesAll (eraseAll out)) := by
  induction ns generalizing out with
  | nil =>
    rw [walkAll] at h
    rw [accepts_pure h]
    exact .nil
  | cons n more ih =>
    rw [walkAll] at h
    obtain ⟨as, bs, ha, hb, rfl⟩ := accepts_both (agrees.walk s n) (agrees.walkAll s more) h
    rw [eraseAll_append, leavesAll_append]
    exact .cons ha (ih hb)

/-- A handler is one action, which consists of those of its function. -/
theorem gathers_walkAttribute
    (h : (liftM (walkAttribute s n) : Analysis (List Act)).Accepts out) :
    Gathers [.ofAttribute s n] (leavesAll (eraseAll out)) := by
  unfold Place.ofAttribute
  cases hn : handler? n with
  | none =>
    rw [walkAttribute_of_none hn] at h
    exact .one h
  | some f =>
    obtain ⟨params, body⟩ := f
    rw [walkAttribute_of_handler? hn] at h
    obtain ⟨as, has, hout⟩ :=
      accepts_handlerActions (accepts_orReport (grows_handlerActions s params body) h)
    have hleaves : leavesAll (eraseAll out) = leavesAll (eraseAll as) := by
      obtain ⟨rfl, rfl⟩ | hout := hout
      · rfl
      · rw [hout, leavesAll_singleton, leaves_ofList]
    rw [hleaves]
    exact .one has

theorem gathers_walkAttributes
    (h : (liftM (walkAttributes s ns) : Analysis (List Act)).Accepts out) :
    Gathers (ns.map (.ofAttribute s)) (leavesAll (eraseAll out)) := by
  induction ns generalizing out with
  | nil =>
    rw [walkAttributes] at h
    rw [accepts_pure h]
    exact .nil
  | cons n more ih =>
    rw [walkAttributes] at h
    obtain ⟨as, bs, ha, hb, rfl⟩ :=
      accepts_both (agrees.walkAttribute s n) (agrees.walkAttributes s more) h
    rw [eraseAll_append, leavesAll_append]
    exact (gathers_walkAttribute ha).append (ih hb)

theorem gathers_walkFunction {params : List Node} {body : Node}
    (h : (liftM (walkFunction s params body) : Analysis (List Act)).Accepts out) :
    Gathers (Place.ofBody (s.function params) body) (leavesAll (eraseAll out)) := by
  unfold walkFunction at h
  split at h
  · exact gathers_walkAll h
  · rename_i hblock
    unfold Place.ofBody
    split
    · exact (hblock _ rfl).elim
    · exact .one h

theorem gathers_walk (h : (liftM (walk s n) : Analysis (List Act)).Accepts out) :
    Gathers (Place.insideNode s n) (leavesAll (eraseAll out)) := by
  unfold walk at h
  split at h
  · exact gathers_walkFunction h
  · exact gathers_walkFunction h
  · exact gathers_walkFunction h
  · exact gathers_walkAll h
  · rename_i name attributes children line
    obtain ⟨as, bs, ha, hb, rfl⟩ :=
      accepts_both (agrees.walkAttributes s attributes) (agrees.walkAll s children) h
    rw [eraseAll_append, leavesAll_append]
    exact (gathers_walkAttributes ha).append (gathers_walkAll hb)
  · rename_i callee arguments line
    unfold Place.insideNode
    cases hc : s.classify callee with
    | none =>
      simp only [hc] at h ⊢
      exact gathers_walkAll h
    | some c =>
      simp only [hc] at h ⊢
      exact .one (accepts_orReport (grows_callActions s c arguments line) h)
  · rename_i harrow hfunction hdeclaration hblock helement hcall
    have hinside : Place.insideNode s n = n.children.map (.node s) := by
      unfold Place.insideNode
      split
      · exact (harrow _ _ _ rfl).elim
      · exact (hfunction _ _ _ _ rfl).elim
      · exact (hdeclaration _ _ _ _ rfl).elim
      · exact (hblock _ rfl).elim
      · exact (helement _ _ _ _ rfl).elim
      · exact (hcall _ _ _ rfl).elim
      · rfl
    rw [hinside]
    exact gathers_walkAll h

/-- The scope behind a statement does not depend on what is made of the statement. -/
theorem behind_of_accepts (h : (statement s n).Accepts (out, t)) : t = s.behind n := by
  fun_induction Scope.behind s n generalizing out t with
  | case1 s kind declarators =>
    rw [statement] at h
    exact (accepts_inScope (grows_of_analyses (agrees.initialisers _ declarators) fun _ _ h => h.2)
      h).2
  | case2 s test consequent ih =>
    obtain ⟨as, u, bs, ha, hb, -⟩ := accepts_ifStatement h
    obtain ⟨-, rfl⟩ := accepts_alternative_none hb
    exact ih ha
  | case3 s test consequent alternate ih ih' =>
    obtain ⟨as, u, bs, ha, hb, -⟩ := accepts_ifStatement h
    rw [alternative] at hb
    obtain rfl := ih ha
    exact ih' hb
  | case4 n s hdeclaration hif hifelse =>
    have hs := h
    unfold statement at h
    split at h
    · exact (accepts_inScope (grows_expression s _) h).2
    · exact (accepts_inScope (grows_expression s _) h).2
    · cases accepts_pure h
      rfl
    · exact (hdeclaration _ _ rfl).elim
    · exact (accepts_inScope (grows_statements _ _) h).2
    · rename_i test consequent alternate
      cases alternate with
      | none => exact (hif _ _ rfl).elim
      | some alternate => exact (hifelse _ _ _ rfl).elim
    · exact (accepts_switchStatement hs).1
    · cases accepts_pure h
      rfl
    · split at h
      · exact (not_accepts_throw h).elim
      · cases accepts_pure h
        rfl

theorem accepts_statementPlace (h : (statement s n).Accepts (out, t)) :
    (placeActions (.statement s n)).Accepts out := by
  obtain ⟨p, q, ho, hq⟩ := h
  refine ⟨p, q, ?_, hq⟩
  rw [placeActions, outcome_bind, ho]
  rfl

theorem gathers_statements (h : (statements s ns).Accepts out) :
    Gathers (Place.inOrder s ns) (leavesAll (eraseAll out)) := by
  induction ns generalizing s out with
  | nil =>
    rw [accepts_statements_nil h]
    exact .nil
  | cons n more ih =>
    obtain ⟨first, t, rest, hfirst, hrest, rfl⟩ := accepts_statements_cons h
    obtain rfl := behind_of_accepts hfirst
    rw [eraseAll_append, leavesAll_append]
    exact .cons (accepts_statementPlace hfirst) (ih hrest)

theorem gathers_initialisers (h : (initialisers s ns).Accepts out) :
    Gathers ((ns.filterMap initialiser?).map (.expression s)) (leavesAll (eraseAll out)) := by
  induction ns generalizing out with
  | nil =>
    rw [initialisers] at h
    rw [accepts_pure h]
    exact .nil
  | cons n more ih =>
    have hgrows : (initialisers s more).Grows :=
      grows_of_analyses (agrees.initialisers s more) fun _ _ h => h.2
    cases hn : initialiser? n with
    | none =>
      rw [initialisers_of_none hn] at h
      rw [List.filterMap_cons_none hn]
      exact ih h
    | some e =>
      unfold initialiser? at hn
      split at hn
      · cases hn
        rw [initialisers] at h
        obtain ⟨first, hfirst, h⟩ := accepts_bind (grows_expression s e)
          (fun _ => hgrows.bind fun _ => grows_pure _) h
        obtain ⟨rest, hrest, h⟩ := accepts_bind hgrows (fun _ => grows_pure _) h
        rw [accepts_pure h, eraseAll_append, leavesAll_append]
        exact .cons hfirst (ih hrest)
      · cases hn

/-- Each clause of a switch gives what runs from it on. -/
theorem gathers_branchActions {cases : List Node} {branches : List (List Act)}
    (h : (branchActions s cases).Accepts branches) :
    Gathers ((cases.tails.filterMap caseRun?).flatMap fun run =>
      Place.inOrder (s.child.hoist run) run) (branches.flatMap fun as => leavesAll (eraseAll as)) := by
  induction cases generalizing branches with
  | nil =>
    rw [accepts_branchActions_nil h]
    exact .nil
  | cons c more ih =>
    cases hr : caseRun? (c :: more) with
    | none =>
      rw [branchActions_of_none hr] at h
      exact (not_accepts_throw h).elim
    | some run =>
      obtain ⟨first, rest, hfirst, hrest, rfl⟩ := accepts_branchActions_cons hr h
      rw [List.tails, List.filterMap_cons_some hr, List.flatMap_cons, List.flatMap_cons]
      exact (gathers_statements hfirst).append (ih hrest)

theorem gathers_statement (h : (statement s n).Accepts (out, t)) :
    Gathers (Place.insideStatement s n) (leavesAll (eraseAll out)) := by
  have hs := h
  unfold statement at h
  split at h
  · exact .one (accepts_inScope (grows_expression s _) h).1
  · exact .one (accepts_inScope (grows_expression s _) h).1
  · cases accepts_pure h
    exact .nil
  · rename_i kind declarators
    exact gathers_initialisers (accepts_inScope (grows_of_analyses
      (agrees.initialisers _ declarators) fun _ _ h => h.2) h).1
  · exact gathers_statements (accepts_block hs).1
  · rename_i test consequent alternate
    obtain ⟨as, u, bs, ha, hb, hc⟩ := accepts_ifStatement hs
    obtain rfl := behind_of_accepts ha
    rw [leavesAll_of_chooses hc]
    refine .cons (accepts_statementPlace ha) ?_
    cases alternate with
    | none =>
      obtain ⟨rfl, -⟩ := accepts_alternative_none hb
      exact .nil
    | some alternate =>
      rw [alternative] at hb
      exact .one (accepts_statementPlace hb)
  · rename_i d cases
    unfold Place.insideStatement
    dsimp only
    obtain ⟨-, ⟨hm, rfl⟩ | ⟨branches, hb, hselects⟩⟩ := accepts_switchStatement hs
    · rw [hm]
      exact .nil
    · cases hm : mentions s (.switchStatement d cases) with
      | false =>
        rw [hm] at h
        cases accepts_pure h
        exact .nil
      | true =>
        rw [leavesAll_of_selects hselects]
        exact gathers_branchActions hb
  · cases accepts_pure h
    exact .nil
  · rename_i hexpression hreturn hleave hdeclaration hblock hif hswitch hbreak
    have hinside : Place.insideStatement s n = [] := by
      unfold Place.insideStatement
      split
      · exact (hexpression _ rfl).elim
      · exact (hreturn _ rfl).elim
      · exact (hdeclaration _ _ rfl).elim
      · exact (hblock _ rfl).elim
      · exact (hif _ _ _ rfl).elim
      · exact (hswitch _ _ rfl).elim
      · rfl
    rw [hinside]
    split at h
    · exact (not_accepts_throw h).elim
    · cases accepts_pure h
      exact .nil

theorem gathers_plainActions (h : (plainActions s n).Accepts out) :
    Gathers [.node s n] (leavesAll (eraseAll out)) := by
  unfold plainActions at h
  split at h
  · exact (not_accepts_throw h).elim
  · exact .one h

theorem gathers_expression (h : (expression s n).Accepts out) :
    Gathers (Place.insideExpression s n) (leavesAll (eraseAll out)) := by
  have he := h
  unfold expression at h
  split at h
  · exact .one h
  · exact .one h
  · exact .one h
  · exact .one h
  · rename_i operator left right
    rw [Place.insideExpression]
    split at h
    · rename_i hop
      obtain ⟨as, ha, hc⟩ := accepts_junction hop.1 (by simpa using hop.2) he
      have hleaves : leavesAll (eraseAll out) = leavesAll (eraseAll as) := by
        split at hc
        · exact leavesAll_of_chooses hc
        · rw [leavesAll_of_chooses hc, eraseAll_nil, leavesAll, List.append_nil]
      rw [if_pos hop, hleaves]
      exact .one ha
    · rename_i hop
      rw [if_neg hop]
      exact gathers_plainActions h
  · rename_i test consequent alternate line
    rw [Place.insideExpression]
    split at h
    · rename_i hm
      rw [if_pos hm]
      exact gathers_plainActions h
    · rename_i hm
      obtain ⟨as, bs, ha, hb, hc⟩ := accepts_ternary (by simpa using hm) he
      rw [if_neg hm, leavesAll_of_chooses hc]
      exact .cons ha (.one hb)
  · rename_i hparenthesized hassertion hcontainer hawait hbinary hternary
    unfold Place.insideExpression
    split
    · exact (hparenthesized _ rfl).elim
    · exact (hassertion _ rfl).elim
    · exact (hcontainer _ rfl).elim
    · exact (hawait _ rfl).elim
    · exact (hbinary _ _ _ rfl).elim
    · exact (hternary _ _ _ _ rfl).elim
    · exact gathers_plainActions h

theorem gathers_functionActions {params : List Node} {body : Node}
    (h : (functionActions s params body).Accepts out) :
    Gathers (Place.insideFunction (s.function params) body) (leavesAll (eraseAll out)) := by
  unfold functionActions at h
  split at h
  · exact gathers_statements h
  · rename_i hblock
    unfold Place.insideFunction
    split
    · exact (hblock _ rfl).elim
    · exact .one h

end Scenario

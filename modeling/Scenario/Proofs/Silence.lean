import Scenario.Proofs.FlatCode

namespace Scenario

open Syntax Analysis

namespace Spot

variable {s : Scope} {n : Node}

theorem Flat.nests_eq_false {s : Scope} {n : Node} (hs : s.isModule = false) (h : (here s n).Flat) :
    nests s n = false := by
  rw [← Bool.not_eq_true, nests_iff_children h.isFunctionExpression]
  rintro ⟨-, m, hm, hn⟩
  have hflat := h.of_mem_fields hs (List.mem_filter.1 hm).1
  rw [hflat.nests_eq_false ((s.isModule_within n).trans hs)] at hn
  cases hn
termination_by sizeOf n
decreasing_by exact Node.sizeOf_lt_of_mem_children hm

/-- Flat code without tests runs its sites one after the other. -/
theorem Flat.plainActions_eq (hs : s.isModule = false) (h : (here s n).Flat) :
    plainActions s n = liftM (Collect.inTurn Site.collect (Place.node s n).sites) := by
  have hnested : nestedFunction? s n = none := by simpa [nests] using h.nests_eq_false hs
  have hwalk : walk s n = Collect.inTurn Site.collect (Place.node s n).sites :=
    Place.collect_eq_inTurn_sites (.node s n)
  rw [plainActions, hnested, hwalk]

theorem Flat.plainActions_of_mentions (hs : s.isModule = false) (h : (here s n).Flat)
    (hm : mentions s n = false) : plainActions s n = pure [] := by
  rw [h.plainActions_eq hs, (h.sites_node hs).1.1 hm]
  rfl

/-- Each site gives an action or a report. -/
theorem Flat.mentions_of_accepts_plainActions (hs : s.isModule = false) (h : (here s n).Flat)
    (hacc : (plainActions s n).Accepts []) : mentions s n = false := by
  obtain ⟨p, q, ho, hq⟩ := hacc
  rw [h.plainActions_eq hs, outcome_lift, Prod.mk.injEq, Except.ok.injEq] at ho
  obtain ⟨hout, rfl⟩ := ho
  obtain ⟨hactions, hreports⟩ := Site.outcome_inTurn (Place.node s n).sites p
  rw [hout, Action.eraseAll_nil, eq_comm, List.flatMap_eq_nil_iff] at hactions
  rw [hq, List.self_eq_append_right, List.flatMap_eq_nil_iff] at hreports
  rw [(h.sites_node hs).1, List.eq_nil_iff_forall_not_mem]
  intro x hx
  obtain ⟨t, c, arguments, line, rfl⟩ := (h.sites_node hs).2 x hx
  obtain ⟨a, ha, -⟩ | ⟨-, d, hd, -⟩ :=
    Site.actions_call (s := t) arguments line (Place.isAction_of_mem_sites hx)
  · rw [hactions _ hx] at ha
    cases ha
  · rw [hreports _ hx] at hd
    cases hd

theorem chooses_nil {test : Node} {as bs : List Act} (h : Chooses s test as bs []) :
    as = [] ∧ bs = [] := by
  obtain ⟨ha, hb, -⟩ | ⟨c, -, hc⟩ := h
  · exact ⟨ha, hb⟩
  · cases hc

theorem Flat.expression_of_mentions {s : Scope} {n : Node} (hs : s.isModule = false)
    (h : (here s n).Flat) (hm : mentions s n = false) : expression s n = pure [] := by
  have hpart {c : Node} (hc : c ∈ n.fields) (hw : s.within n = s) :
      (here s c).Flat ∧ mentions s c = false := by
    have hmentions := mentions_of_mem_fields hm hc
    rw [hw] at hmentions
    exact ⟨h.of_mem_fields_of_within hs hw hc, hmentions⟩
  have hplain := h.plainActions_of_mentions hs hm
  unfold expression
  split
  · obtain ⟨hflat, hmentions⟩ := hpart List.mem_cons_self rfl
    exact hflat.expression_of_mentions hs hmentions
  · obtain ⟨hflat, hmentions⟩ := hpart List.mem_cons_self rfl
    exact hflat.expression_of_mentions hs hmentions
  · obtain ⟨hflat, hmentions⟩ := hpart List.mem_cons_self rfl
    exact hflat.expression_of_mentions hs hmentions
  · obtain ⟨hflat, hmentions⟩ := hpart List.mem_cons_self rfl
    exact hflat.expression_of_mentions hs hmentions
  · rename_i operator left right
    split
    · obtain ⟨hflat, hmentions⟩ := hpart (c := right) (by simp [Node.fields]) rfl
      rw [hflat.expression_of_mentions hs hmentions]
      rfl
    · exact hplain
  · rename_i test consequent alternate line
    split
    · exact hplain
    · obtain ⟨hfirst, hfirst'⟩ := hpart (c := consequent) (by simp [Node.fields]) rfl
      obtain ⟨hsecond, hsecond'⟩ := hpart (c := alternate) (by simp [Node.fields]) rfl
      rw [hfirst.expression_of_mentions hs hfirst', hsecond.expression_of_mentions hs hsecond']
      rfl
  · exact hplain
termination_by sizeOf n

/-- An expression that gives no action and reports nothing has no action in it, tests included. -/
theorem Flat.mentions_of_accepts_expression {s : Scope} {n : Node} (hs : s.isModule = false)
    (h : (here s n).Flat) (hacc : (expression s n).Accepts []) : mentions s n = false := by
  have hpart {c : Node} (hc : c ∈ n.fields) (hw : s.within n = s) : (here s c).Flat :=
    h.of_mem_fields_of_within hs hw hc
  have hacc' := hacc
  unfold expression at hacc
  split at hacc
  · rw [mentions_wrapped rfl rfl rfl]
    exact (hpart List.mem_cons_self rfl).mentions_of_accepts_expression hs hacc
  · rw [mentions_wrapped rfl rfl rfl]
    exact (hpart List.mem_cons_self rfl).mentions_of_accepts_expression hs hacc
  · rw [mentions_wrapped rfl rfl rfl]
    exact (hpart List.mem_cons_self rfl).mentions_of_accepts_expression hs hacc
  · rw [mentions_wrapped rfl rfl rfl]
    exact (hpart List.mem_cons_self rfl).mentions_of_accepts_expression hs hacc
  · rename_i operator left right
    split at hacc
    · rename_i hop
      have hleft : mentions s left = false := by simpa using hop.2
      obtain ⟨as, has, hchoice⟩ := accepts_junction hop.1 hleft hacc'
      have hempty : as = [] := by
        split at hchoice
        · exact (chooses_nil hchoice).2
        · exact (chooses_nil hchoice).1
      rw [hempty] at has
      have hright := (hpart (c := right) (by simp [Node.fields]) rfl).mentions_of_accepts_expression
        hs has
      rw [← Bool.not_eq_true, mentions_iff_fields rfl rfl]
      simp [Node.fields, hleft, hright]
    · exact h.mentions_of_accepts_plainActions hs hacc
  · rename_i test consequent alternate line
    split at hacc
    · exact h.mentions_of_accepts_plainActions hs hacc
    · rename_i hm
      have htest : mentions s test = false := by simpa using hm
      obtain ⟨as, bs, has, hbs, hchoice⟩ := accepts_ternary htest hacc'
      obtain ⟨rfl, rfl⟩ := chooses_nil hchoice
      have hfirst := (hpart (c := consequent) (by simp [Node.fields])
        rfl).mentions_of_accepts_expression hs has
      have hsecond := (hpart (c := alternate) (by simp [Node.fields])
        rfl).mentions_of_accepts_expression hs hbs
      rw [← Bool.not_eq_true, mentions_iff_fields rfl rfl]
      simp [Node.fields, htest, hfirst, hsecond]
  · exact h.mentions_of_accepts_plainActions hs hacc
termination_by sizeOf n

end Spot

mutual

/-- What is heard of a statement of a handler: blocks and `if` statements are gone through, and what
stands in them is heard, but not the tests. -/
def Syntax.Node.heard : Node → List Node
  | .block body => heardAll body
  | .ifStatement _ consequent alternate => consequent.heard ++ heardOption alternate
  | n => [n]

def Syntax.Node.heardOption : Option Node → List Node
  | none => []
  | some n => n.heard

def Syntax.Node.heardAll : List Node → List Node
  | [] => []
  | n :: more => n.heard ++ heardAll more

end

mutual

/-- The tests of the `if` statements that are gone through. -/
def Syntax.Node.passed : Node → List Node
  | .block body => passedAll body
  | .ifStatement test consequent alternate => test :: consequent.passed ++ passedOption alternate
  | _ => []

def Syntax.Node.passedOption : Option Node → List Node
  | none => []
  | some n => n.passed

def Syntax.Node.passedAll : List Node → List Node
  | [] => []
  | n :: more => n.passed ++ passedAll more

end

/-- What is heard of the body of a handler. -/
def Syntax.Node.heardBody : Node → List Node
  | .block body => Node.heardAll body
  | e => [e]

/-- The tests in the body of a handler that are not heard. -/
def Syntax.Node.passedBody : Node → List Node
  | .block body => Node.passedAll body
  | _ => []

theorem mem_heardAll {ns : List Node} {m : Node} :
    m ∈ Node.heardAll ns ↔ ∃ n ∈ ns, m ∈ n.heard := by
  induction ns with
  | nil => simp [Node.heardAll]
  | cons n more ih => simp [Node.heardAll, ih]

theorem mem_passedAll {ns : List Node} {m : Node} :
    m ∈ Node.passedAll ns ↔ ∃ n ∈ ns, m ∈ n.passed := by
  induction ns with
  | nil => simp [Node.passedAll]
  | cons n more ih => simp [Node.passedAll, ih]

/-- A statement mentions what is mentioned in what is heard of it or in the tests that are not. -/
theorem mentions_iff_heard (s : Scope) (n : Node) :
    mentions s n = true ↔
      (∃ m ∈ n.heard, mentions s m = true) ∨ ∃ m ∈ n.passed, mentions s m = true := by
  cases n with
  | block body =>
    have ih : ∀ n ∈ body, _ := fun n _ => mentions_iff_heard s n
    simp only [mentions_block, Node.heard, Node.passed, mem_heardAll, mem_passedAll]
    constructor
    · rintro ⟨n, hn, hm⟩
      rcases (ih n hn).1 hm with ⟨m, hm, htrue⟩ | ⟨m, hm, htrue⟩
      · exact .inl ⟨m, ⟨n, hn, hm⟩, htrue⟩
      · exact .inr ⟨m, ⟨n, hn, hm⟩, htrue⟩
    · rintro (⟨m, ⟨n, hn, hm⟩, htrue⟩ | ⟨m, ⟨n, hn, hm⟩, htrue⟩)
      · exact ⟨n, hn, (ih n hn).2 (.inl ⟨m, hm, htrue⟩)⟩
      · exact ⟨n, hn, (ih n hn).2 (.inr ⟨m, hm, htrue⟩)⟩
  | ifStatement test consequent alternate =>
    have hfirst := mentions_iff_heard s consequent
    rw [mentions_iff_fields rfl rfl]
    cases alternate with
    | none =>
      simp [Node.fields, Node.heard, Node.passed, Node.heardOption, Node.passedOption, hfirst,
        or_left_comm]
    | some alternate =>
      have hsecond := mentions_iff_heard s alternate
      simp [Node.fields, Node.heard, Node.passed, Node.heardOption, Node.passedOption, hfirst,
        hsecond, or_and_right, exists_or, or_assoc, or_left_comm]
  | _ => simp [Node.heard, Node.passed]
termination_by sizeOf n

theorem mentions_iff_heardBody (s : Scope) (body : Node) :
    mentions s body = true ↔
      (∃ m ∈ body.heardBody, mentions s m = true) ∨ ∃ m ∈ body.passedBody, mentions s m = true := by
  unfold Node.heardBody Node.passedBody
  split
  · exact mentions_iff_heard s _
  · simp

namespace Spot

theorem Flat.accepts_statements {s : Scope} {ns : List Node}
    (h : ∀ n ∈ ns, ∀ out t, (statement s n).Accepts (out, t) →
      t = s ∧ (out = [] → ∀ m ∈ n.heard, mentions s m = false))
    (hacc : (statements s ns).Accepts []) : ∀ m ∈ Node.heardAll ns, mentions s m = false := by
  induction ns with
  | nil => simp [Node.heardAll]
  | cons n more ih =>
    obtain ⟨first, t, rest, hfirst, hrest, hout⟩ := accepts_statements_cons hacc
    obtain ⟨rfl, rfl⟩ := List.append_eq_nil_iff.1 hout.symm
    obtain ⟨rfl, hheard⟩ := h n List.mem_cons_self _ _ hfirst
    intro m hm
    rcases List.mem_append.1 hm with hm | hm
    · exact hheard rfl m hm
    · exact ih (fun n hn => h n (List.mem_cons_of_mem _ hn)) hrest m hm

/-- A statement that gives no action and reports nothing has no action in what is heard of it. -/
theorem Flat.accepts_statement {s : Scope} {n : Node} (hs : s.isModule = false)
    (h : (here s n).Flat) {out : List Act} {t : Scope} (hacc : (statement s n).Accepts (out, t)) :
    t = s ∧ (out = [] → ∀ m ∈ n.heard, mentions s m = false) := by
  have hpart {c : Node} (hc : c ∈ n.fields) (hw : s.within n = s) : (here s c).Flat :=
    h.of_mem_fields_of_within hs hw hc
  have hexpression {e : Node} (he : n.fields = [e]) (ha : s.isActionCall n = false)
      (hw : s.within n = s) (hacc : (expression s e).Accepts out) (hout : out = []) :
      mentions s n = false := by
    rw [hout] at hacc
    rw [mentions_wrapped ha hw he]
    exact (hpart (by simp [he]) hw).mentions_of_accepts_expression hs hacc
  have hacc' := hacc
  unfold statement at hacc
  split at hacc
  · obtain ⟨he, rfl⟩ := accepts_expressionStatement hacc'
    simpa [Node.heard] using hexpression rfl rfl rfl he
  · obtain ⟨he, rfl⟩ := accepts_returnStatement hacc'
    simpa [Node.heard] using hexpression rfl rfl rfl he
  · obtain ⟨-, rfl⟩ := accepts_returnStatement_none hacc'
    simp [Node.heard, mentions_of_fields_eq_nil (s := t) (n := .returnStatement none) rfl rfl]
  · cases (h (here s _) (mem_all_self _)).1
  · rename_i body
    obtain ⟨hbody, rfl⟩ := accepts_block hacc'
    rw [h.hoist_block hs] at hbody
    refine ⟨rfl, ?_⟩
    rintro rfl
    exact Flat.accepts_statements
      (fun m hm out t hacc => (hpart (c := m) hm rfl).accepts_statement hs hacc) hbody
  · rename_i test consequent alternate
    obtain ⟨as, u, bs, has, hbs, hchoice⟩ := accepts_ifStatement hacc'
    obtain ⟨rfl, hfirst⟩ := (hpart (c := consequent) (by simp [Node.fields]) rfl).accepts_statement
      hs has
    have hsecond : t = u ∧ (bs = [] → ∀ m ∈ Node.heardOption alternate, mentions u m = false) := by
      cases alternate with
      | none =>
        obtain ⟨-, rfl⟩ := accepts_alternative_none hbs
        exact ⟨rfl, by simp [Node.heardOption]⟩
      | some alternate =>
        rw [alternative] at hbs
        exact (hpart (c := alternate) (by simp [Node.fields]) rfl).accepts_statement hs hbs
    obtain ⟨rfl, hsecond⟩ := hsecond
    refine ⟨rfl, ?_⟩
    rintro rfl m hm
    obtain ⟨ha, hb⟩ := chooses_nil hchoice
    rcases List.mem_append.1 hm with hm | hm
    · exact hfirst ha m hm
    · exact hsecond hb m hm
  · obtain ⟨rfl, ⟨hm, -⟩ | ⟨branches, -, v, tests, -, -, hout⟩⟩ := accepts_switchStatement hacc'
    · simp [Node.heard, hm]
    · refine ⟨rfl, ?_⟩
      rintro rfl
      cases hout
  · obtain ⟨-, rfl⟩ := accepts_breakStatement hacc'
    simp [Node.heard, mentions_of_fields_eq_nil (s := t) (n := .breakStatement) rfl rfl]
  · have hheard : n.heard = [n] := by
      rw [Node.heard] <;> assumption
    split at hacc
    · exact (not_accepts_throw hacc).elim
    · rename_i hm
      cases accepts_pure hacc
      simpa [hheard] using hm
termination_by sizeOf n

theorem statements_eq_nil {s : Scope} {ns : List Node}
    (h : ∀ n ∈ ns, statement s n = pure ([], s)) : statements s ns = pure [] := by
  induction ns with
  | nil => rw [statements]
  | cons n more ih =>
    rw [statements, h n List.mem_cons_self, pure_bind]
    dsimp only
    rw [ih fun m hm => h m (List.mem_cons_of_mem n hm)]
    rfl

/-- A statement without an action in what is heard of it gives none, whatever is in its tests. -/
theorem Flat.statement_of_heard {s : Scope} {n : Node} (hs : s.isModule = false)
    (h : (here s n).Flat) (hm : ∀ m ∈ n.heard, mentions s m = false) :
    statement s n = pure ([], s) := by
  have hpart {c : Node} (hc : c ∈ n.fields) (hw : s.within n = s) : (here s c).Flat :=
    h.of_mem_fields_of_within hs hw hc
  have hexpression {e : Node} (he : n.fields = [e]) (ha : s.isActionCall n = false)
      (hw : s.within n = s) (hheard : n.heard = [n]) : expression s e = pure [] := by
    have hmentions := hm n (by simp [hheard])
    rw [mentions_wrapped ha hw he] at hmentions
    exact (hpart (by simp [he]) hw).expression_of_mentions hs hmentions
  unfold statement
  split
  · rw [hexpression rfl rfl rfl rfl]
    rfl
  · rw [hexpression rfl rfl rfl rfl]
    rfl
  · rfl
  · cases (h (here s _) (mem_all_self _)).1
  · rename_i body
    have hbody : statements s body = pure [] := statements_eq_nil fun c hc =>
      (hpart (c := c) hc rfl).statement_of_heard hs fun m hmem =>
        hm m (mem_heardAll.2 ⟨c, hc, hmem⟩)
    rw [h.hoist_block hs, hbody]
    rfl
  · rename_i test consequent alternate
    have hfirst : statement s consequent = pure ([], s) :=
      (hpart (c := consequent) (by simp [Node.fields]) rfl).statement_of_heard hs fun m hmem =>
        hm m (List.mem_append_left _ hmem)
    have hsecond : alternative s alternate = pure ([], s) := by
      cases alternate with
      | none => rw [alternative]
      | some alternate =>
        rw [alternative]
        exact (hpart (c := alternate) (by simp [Node.fields]) rfl).statement_of_heard hs
          fun m hmem => hm m (List.mem_append_right _ hmem)
    rw [hfirst, pure_bind]
    dsimp only
    rw [hsecond]
    rfl
  · rw [if_pos (by simp [hm _ List.mem_cons_self])]
  · rfl
  · have hmentions : mentions s n = false := by
      refine hm n ?_
      rw [Node.heard]
      · exact List.mem_singleton_self n
      all_goals assumption
    rw [if_neg (by simp [hmentions])]
termination_by sizeOf n

/-- What is heard of a statement and the tests in it stand in the same scope. -/
theorem Flat.of_mem_heard {s : Scope} {n : Node} (hs : s.isModule = false) (h : (here s n).Flat)
    {m : Node} (hm : m ∈ n.heard ∨ m ∈ n.passed) : (here s m).Flat := by
  cases n with
  | block body =>
    obtain ⟨c, hc, hm⟩ : ∃ c ∈ body, m ∈ c.heard ∨ m ∈ c.passed := by
      rcases hm with hm | hm
      · obtain ⟨c, hc, hm⟩ := mem_heardAll.1 hm
        exact ⟨c, hc, .inl hm⟩
      · obtain ⟨c, hc, hm⟩ := mem_passedAll.1 hm
        exact ⟨c, hc, .inr hm⟩
    have hflat : (here s c).Flat := h.of_mem_fields hs hc
    exact hflat.of_mem_heard hs hm
  | ifStatement test consequent alternate =>
    have htest : (here s test).Flat := h.of_mem_fields hs (by simp [Node.fields])
    have hfirst : (here s consequent).Flat := h.of_mem_fields hs (by simp [Node.fields])
    have hsecond (hm : m ∈ Node.heardOption alternate ∨ m ∈ Node.passedOption alternate) :
        (here s m).Flat := by
      cases alternate with
      | none => simp [Node.heardOption, Node.passedOption] at hm
      | some alternate =>
        have hflat : (here s alternate).Flat := h.of_mem_fields hs (by simp [Node.fields])
        exact hflat.of_mem_heard hs hm
    rcases hm with hm | hm
    · rcases List.mem_append.1 hm with hm | hm
      · exact hfirst.of_mem_heard hs (.inl hm)
      · exact hsecond (.inl hm)
    · rcases List.mem_cons.1 hm with rfl | hm
      · exact htest
      · rcases List.mem_append.1 hm with hm | hm
        · exact hfirst.of_mem_heard hs (.inr hm)
        · exact hsecond (.inr hm)
  | _ =>
    simp only [Node.heard, Node.passed, List.mem_singleton, List.not_mem_nil, or_false] at hm
    rwa [hm]
termination_by sizeOf n

/-- The same of the body of a handler. -/
theorem Flat.of_mem_heardBody {s : Scope} {body : Node} (hs : s.isModule = false)
    (h : (here s body).Flat) {m : Node} (hm : m ∈ body.heardBody ∨ m ∈ body.passedBody) :
    (here s m).Flat := by
  unfold Node.heardBody Node.passedBody at hm
  split at hm
  · exact h.of_mem_heard hs hm
  · simp only [List.mem_singleton, List.not_mem_nil, or_false] at hm
    rwa [hm]

theorem Flat.functionActions_of_heard {s : Scope} {params : List Node} {body : Node}
    (h : (here (s.function params) body).Flat)
    (hm : ∀ m ∈ body.heardBody, mentions (s.function params) m = false) :
    functionActions s params body = pure [] := by
  have hs := isModule_function s params
  unfold functionActions
  split
  · rename_i body
    have hhoist := h.hoist_block hs
    rw [Scope.child_of_isModule_eq_false hs] at hhoist
    rw [hhoist]
    refine statements_eq_nil fun c hc => ?_
    have hflat : (here (s.function params) c).Flat := h.of_mem_fields hs hc
    exact hflat.statement_of_heard hs fun m hmem => hm m (mem_heardAll.2 ⟨c, hc, hmem⟩)
  · refine h.expression_of_mentions hs (hm _ ?_)
    rw [Node.heardBody]
    · exact List.mem_singleton_self _
    · assumption

theorem Flat.mentions_of_accepts_functionActions {s : Scope} {params : List Node} {body : Node}
    (h : (here (s.function params) body).Flat) (hacc : (functionActions s params body).Accepts []) :
    ∀ m ∈ body.heardBody, mentions (s.function params) m = false := by
  have hs := isModule_function s params
  unfold functionActions at hacc
  split at hacc
  · rename_i body
    have hhoist := h.hoist_block hs
    rw [Scope.child_of_isModule_eq_false hs] at hhoist
    rw [hhoist] at hacc
    refine Flat.accepts_statements (fun c hc out t hstatement => ?_) hacc
    have hflat : (here (s.function params) c).Flat := h.of_mem_fields hs hc
    exact hflat.accepts_statement hs hstatement
  · rw [Node.heardBody]
    · exact List.forall_mem_singleton.2 (h.mentions_of_accepts_expression hs hacc)
    · assumption

end Spot

/-- In flat code, a handler is passed over without a word just if there is no action in what is
heard of it, and it leaves no trace then. So one with an action in it is passed over just if the
actions stand in tests of `if` statements only. -/
theorem accepts_nil_iff_heard (s : Scope) (params : List Node) (body : Node)
    (h : (Spot.here (s.function params) body).Flat) :
    let hasAction (m : Node) := (Spot.here (s.function params) m).HasAction
    let silent := ∀ m ∈ body.heardBody, ¬hasAction m
    ((handlerActions s params body).Accepts [] ↔ silent) ∧
      (silent → ∀ p, (handlerActions s params body).outcome p = (.ok [], p)) ∧
      ((handlerActions s params body).Accepts [] ∧ hasAction body ↔
        silent ∧ ∃ test ∈ body.passedBody, hasAction test) := by
  intro hasAction silent
  have hs := isModule_function s params
  have hheard : silent ↔ ∀ m ∈ body.heardBody, mentions (s.function params) m = false :=
    forall₂_congr fun m hm => ((h.of_mem_heardBody hs (.inl hm)).mentions_eq_false_iff hs).symm
  have hbody : hasAction body ↔
      (∃ m ∈ body.heardBody, hasAction m) ∨ ∃ m ∈ body.passedBody, hasAction m := by
    refine (h.mentions_iff hs).symm.trans ((mentions_iff_heardBody _ body).trans (or_congr ?_ ?_))
    · exact exists_congr fun m => and_congr_right fun hm =>
        (h.of_mem_heardBody hs (.inl hm)).mentions_iff hs
    · exact exists_congr fun m => and_congr_right fun hm =>
        (h.of_mem_heardBody hs (.inr hm)).mentions_iff hs
  have hsilent : silent → ∀ p, (handlerActions s params body).outcome p = (.ok [], p) := by
    intro hnone p
    rw [handlerActions, h.functionActions_of_heard (hheard.1 hnone)]
    rfl
  have haccepts : (handlerActions s params body).Accepts [] ↔ silent := by
    constructor
    · intro hacc
      obtain ⟨as, has, ⟨rfl, -⟩ | hout⟩ := accepts_handlerActions hacc
      · exact hheard.2 (h.mentions_of_accepts_functionActions has)
      · cases hout
    · exact fun hnone => ⟨{}, {}, hsilent hnone {}, rfl⟩
  refine ⟨haccepts, hsilent, ?_⟩
  rw [haccepts, hbody]
  constructor
  · rintro ⟨hnone, ⟨m, hm, ha⟩ | hpassed⟩
    · exact (hnone m hm ha).elim
    · exact ⟨hnone, hpassed⟩
  · rintro ⟨hnone, hpassed⟩
    exact ⟨hnone, .inr hpassed⟩

/-- A handler that goes to a screen in the test of an `if` statement, the branch of which does
something else. -/
theorem accepts_nil_iff_heard_test :
    let test : Node := .call (.identifier "push") [.string "Home"] 1
    let body : Node := .block [.ifStatement test
      (.block [.expressionStatement (.call (.identifier "log") [] 1)]) none]
    (Spot.here (Scope.module.function []) body).Flat ∧
      (handlerActions Scope.module [] body).Accepts [] ∧
      (Spot.here (Scope.module.function []) body).HasAction := by
  intro test body
  have hargument (s : Scope) : ¬(Spot.here s (.string "Home")).HasAction := by
    rintro ⟨y, hy, ha⟩
    simp only [Spot.all_eq, Spot.parts, Spot.here, Scope.parts, Node.fields, List.map_nil,
      List.flatMap_nil, List.mem_singleton] at hy
    cases hy
    cases ha
  have hflat : (Spot.here (Scope.module.function []) body).Flat := by
    intro y hy
    simp only [Spot.all_eq, Spot.parts, Spot.here, Scope.parts, body, test, Node.fields,
      Option.toList_none, List.map_cons, List.map_nil, List.flatMap_cons, List.flatMap_nil,
      List.append_nil, List.cons_append, List.nil_append, List.mem_cons, List.not_mem_nil,
      or_false] at hy
    rcases hy with rfl | rfl | rfl | rfl | rfl | rfl | rfl | rfl | rfl <;>
      refine ⟨rfl, rfl, ?_⟩ <;> rintro callee arguments line ⟨⟩ hc
    · rintro a ha
      obtain rfl := List.mem_singleton.1 ha
      exact hargument _
    · cases hc
  have htest : (Spot.here (Scope.module.function []) test).HasAction :=
    ⟨_, Spot.mem_all_self _, rfl⟩
  have hsilent : ∀ m ∈ body.heardBody, ¬(Spot.here (Scope.module.function []) m).HasAction := by
    intro m hm
    obtain rfl := List.mem_singleton.1 hm
    rintro ⟨y, hy, ha⟩
    simp only [Spot.all_eq, Spot.parts, Spot.here, Scope.parts, Node.fields, List.map_cons,
      List.map_nil, List.flatMap_cons, List.flatMap_nil, List.append_nil, List.mem_cons,
      List.not_mem_nil, or_false] at hy
    rcases hy with rfl | rfl | rfl <;> cases ha
  have hmem : test ∈ body.passedBody := List.mem_cons_self
  obtain ⟨-, -, hignored⟩ := accepts_nil_iff_heard Scope.module [] body hflat
  exact ⟨hflat, hignored.2 ⟨hsilent, test, hmem, htest⟩⟩

end Scenario

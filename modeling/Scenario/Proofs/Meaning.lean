import Scenario.Proofs.Nested

namespace Scenario

open Syntax Analysis Scenario.Action

variable {σ : Type} (r : Runtime σ) {s : Scope}

/-- A statement that always runs into the next one, and what it is compiled to does what it does. -/
structure Flows (r : Runtime σ) (s : Scope) (n : Node) : Prop where
  hoist : s.hoistStatement n = s
  exits : exits n = false
  caseFlow? (more : List Node) : caseFlow? (n :: more) =
    (caseFlow? more).map fun (run, leaves) => (n :: run, leaves)
  ends (x : σ) : (r.exec s n x).2 = none
  quiet (x : σ) : mentions s n = false → (r.exec s n x).1 = x
  compiles : Compiles r s n fun x => (r.exec s n x).1

section Lists

variable {r : Runtime σ} {ns more : List Node}

theorem hoist_of_flows (h : ∀ n ∈ ns, Flows r s n) : s.hoist ns = s :=
  hoist_eq_self fun n hn => (h n hn).hoist

theorem exitsAny_of_flows (h : ∀ n ∈ ns, Flows r s n) : exitsAny ns = false := by
  induction ns with
  | nil => rfl
  | cons n ns ih =>
    rw [exitsAny, (h n List.mem_cons_self).exits, ih fun m hm => h m (List.mem_cons_of_mem n hm)]
    rfl

theorem caseFlow?_append_of_flows (h : ∀ n ∈ ns, Flows r s n) (more : List Node) :
    caseFlow? (ns ++ more) = (caseFlow? more).map fun (run, leaves) => (ns ++ run, leaves) := by
  induction ns with
  | nil => simp
  | cons n ns ih =>
    rw [List.cons_append, (h n List.mem_cons_self).caseFlow?,
      ih fun m hm => h m (List.mem_cons_of_mem n hm)]
    simp [Option.map_map, Function.comp_def]

/-- The statements before the first exit are run one after the other. -/
theorem execAll_append_of_flows (h : ∀ n ∈ ns, Flows r s n) (more : List Node) (x : σ) :
    r.execAll s (ns ++ more) x = r.execAll s more (r.execAll s ns x).1 ∧
      (r.execAll s ns x).2 = none := by
  induction ns generalizing x with
  | nil => exact ⟨rfl, rfl⟩
  | cons n ns ih =>
    have hn := (h n List.mem_cons_self).ends x
    rw [List.cons_append, r.execAll_cons_of_none s hn, r.execAll_cons_of_none s hn]
    exact ih (fun m hm => h m (List.mem_cons_of_mem n hm)) _

theorem compilesAll_append_of_flows (h : ∀ n ∈ ns, Flows r s n) {f : σ → σ}
    (hmore : CompilesAll r s more f) :
    CompilesAll r s (ns ++ more) fun x => f (r.execAll s ns x).1 := by
  induction ns with
  | nil => exact hmore
  | cons n ns ih =>
    have hn := h n List.mem_cons_self
    have hcons := compilesAll_cons hn.compiles (ih fun m hm => h m (List.mem_cons_of_mem n hm))
    refine hcons.congr fun x => ?_
    rw [r.execAll_cons_of_none s (hn.ends x)]
    rfl

theorem compilesAll_of_flows (h : ∀ n ∈ ns, Flows r s n) :
    CompilesAll r s ns fun x => (r.execAll s ns x).1 := by
  have hall := compilesAll_append_of_flows h compilesAll_nil
  rw [List.append_nil] at hall
  exact hall

end Lists

section Clauses

variable {r : Runtime σ}

/-- The end of what a clause runs: nothing, or a block that a break ends. -/
def IsTail (r : Runtime σ) (s : Scope) (tail : List Node) : Prop :=
  tail = [] ∨ ∃ ns, tail = [.block (ns ++ [.breakStatement])] ∧ ∀ n ∈ ns, Flows r s n

/-- A statement of a clause. A break may end it at once or at the end of a block. -/
def IsDirect (r : Runtime σ) (s : Scope) (n : Node) : Prop :=
  Flows r s n ∨ n = .breakStatement ∨ IsTail r s [n]

theorem exec_tail {ns : List Node} (h : ∀ n ∈ ns, Flows r s n) (x : σ) :
    r.exec s (.block (ns ++ [.breakStatement])) x = ((r.execAll s ns x).1, some .broken) := by
  rw [Runtime.exec, (execAll_append_of_flows h [.breakStatement] x).1]
  rfl

theorem caseFlow?_tail {ns : List Node} (h : ∀ n ∈ ns, Flows r s n) (more : List Node) :
    caseFlow? (.block (ns ++ [.breakStatement]) :: more) =
      some ([.block (ns ++ [.breakStatement])], true) := by
  have hbody := caseFlow?_append_of_flows h [.breakStatement]
  simp only [caseFlow?, hbody, Option.map_some]

/-- What a clause runs is cut off at its break, and the clause leaves just then. -/
theorem caseFlow?_of_direct {body : List Node} (h : ∀ n ∈ body, IsDirect r s n) :
    ∃ ns tail leaves, (∀ n ∈ ns, Flows r s n) ∧ IsTail r s tail ∧ (leaves = false → tail = []) ∧
      caseFlow? body = some (ns ++ tail, leaves) ∧
      ∀ x, r.execAll s body x =
        ((r.execAll s (ns ++ tail) x).1, if leaves then some .broken else none) := by
  -- A block that ends in a break keeps it, so it is the last that is compiled (`tail`); a break of
  -- the clause itself is left out.
  induction body with
  | nil => exact ⟨[], [], false, by simp, .inl rfl, fun _ => rfl, by simp [caseFlow?], fun x => rfl⟩
  | cons n body ih =>
    rcases h n List.mem_cons_self with hn | rfl | hn
    · obtain ⟨ns, tail, leaves, hns, htail, hleaves, hflow, hexec⟩ :=
        ih fun m hm => h m (List.mem_cons_of_mem n hm)
      refine ⟨n :: ns, tail, leaves, List.forall_mem_cons.2 ⟨hn, hns⟩, htail, hleaves, ?_, ?_⟩
      · rw [hn.caseFlow?, hflow]
        rfl
      · intro x
        rw [r.execAll_cons_of_none s (hn.ends x), hexec, List.cons_append,
          r.execAll_cons_of_none s (hn.ends x)]
    · exact ⟨[], [], true, by simp, .inl rfl, fun _ => rfl, by simp [caseFlow?], fun x => rfl⟩
    · refine ⟨[], [n], true, by simp, hn, by simp, ?_⟩
      obtain hnil | ⟨ns, heq, hns⟩ := hn
      · cases hnil
      · cases heq
        refine ⟨caseFlow?_tail hns body, fun x => ?_⟩
        have hx := exec_tail hns x
        have hexit : (r.exec s (.block (ns ++ [.breakStatement])) x).2 = some .broken := by rw [hx]
        rw [r.execAll_cons_of_some s hexit, List.nil_append, r.execAll_cons_of_some s hexit, hx]
        rfl

/-- A clause, with a test that is not compiled to the mark of the default. -/
def IsClause (r : Runtime σ) (s : Scope) (c : Node) : Prop :=
  ∃ test body, c = .switchCase test body ∧ (∀ n, test = some n → s.tests.operandValue n ≠ .ok .null) ∧
    (∀ n ∈ body, IsDirect r s n)

/-- Clauses run through to the next ones up to the first break. -/
theorem caseRun?_of_clauses {cases : List Node} (h : ∀ c ∈ cases, IsClause r s c) :
    ∃ ns tail, (∀ n ∈ ns, Flows r s n) ∧ IsTail r s tail ∧ caseRun? cases = some (ns ++ tail) ∧
      ∀ x, (r.execAll s cases x).1 = (r.execAll s (ns ++ tail) x).1 ∧
        (r.execAll s cases x).2 ≠ some .returned := by
  induction cases with
  | nil => exact ⟨[], [], by simp, .inl rfl, rfl, fun x => ⟨rfl, by simp [Runtime.execAll]⟩⟩
  | cons c more ih =>
    obtain ⟨test, body, rfl, -, hbody⟩ := h c List.mem_cons_self
    obtain ⟨ns, tail, leaves, hns, htail, hleaves, hflow, hexec⟩ := caseFlow?_of_direct hbody
    have hc : ∀ x, r.exec s (.switchCase test body) x = r.execAll s body x := by
      intro x
      rw [Runtime.exec]
    cases leaves with
    | true =>
      refine ⟨ns, tail, hns, htail, by simp [caseRun?, caseBody, hflow], fun x => ?_⟩
      have hexit : (r.exec s (.switchCase test body) x).2 = some .broken := by
        rw [hc, hexec]
        rfl
      rw [r.execAll_cons_of_some s hexit, hc, hexec]
      exact ⟨rfl, by simp⟩
    | false =>
      obtain rfl := hleaves rfl
      obtain ⟨ms, tail, hms, htail, hrun, hmore⟩ := ih fun d hd => h d (List.mem_cons_of_mem _ hd)
      refine ⟨ns ++ ms, tail, ?_, htail, ?_, fun x => ?_⟩
      · exact List.forall_mem_append.2 ⟨hns, hms⟩
      · simp [caseRun?, caseBody, hflow, hrun]
      · have hends : (r.exec s (.switchCase test body) x).2 = none := by
          rw [hc, hexec]
          rfl
        rw [r.execAll_cons_of_none s hends, hc, hexec, List.append_assoc,
          (execAll_append_of_flows hns (ms ++ tail) x).1]
        simpa using hmore (r.execAll s ns x).1

/-- What is compiled of the run of a clause does what the run does. -/
theorem compilesAll_tail {ns tail : List Node} (hns : ∀ n ∈ ns, Flows r s n)
    (htail : IsTail r s tail) (hs : s.isModule = false) :
    CompilesAll r s (ns ++ tail) fun x => (r.execAll s (ns ++ tail) x).1 := by
  have hlast : CompilesAll r s tail fun x => (r.execAll s tail x).1 := by
    obtain rfl | ⟨ms, rfl, hms⟩ := htail
    · exact compilesAll_nil
    · have hbody := compilesAll_append_of_flows hms (compilesAll_cons compiles_break compilesAll_nil)
      have hscope : s.child.hoist (ms ++ [.breakStatement]) = s := by
        rw [Scope.child_of_isModule_eq_false hs, hoist_append, hoist_of_flows hms]
        rfl
      have hblock := compilesAll_cons (compiles_block hscope hbody) compilesAll_nil
      refine hblock.congr fun x => ?_
      have hexit : (r.exec s (.block (ms ++ [.breakStatement])) x).2 = some .broken := by
        rw [exec_tail hms]
      rw [r.execAll_cons_of_some s hexit, exec_tail hms]
      rfl
  refine (compilesAll_append_of_flows hns hlast).congr fun x => ?_
  rw [(execAll_append_of_flows hns tail x).1]

end Clauses

section Switches

variable {r : Runtime σ}

/-- Each branch of a switch does what the clauses do from its clause on. -/
theorem execFrom_of_branches (hs : s.isModule = false) {cases : List Node}
    (h : ∀ c ∈ cases, IsClause r s c) {branches : List (List Act)}
    (hb : (branchActions s cases).Accepts branches) (k : Nat) (x : σ) :
    (r.execFrom s k cases x).1 = r.runAll (eraseAll (branches[k]?.getD [])) x := by
  induction cases generalizing branches k with
  | nil =>
    rw [accepts_branchActions_nil hb]
    simp [Runtime.execFrom]
  | cons c more ih =>
    obtain ⟨ns, tail, hns, htail, hrun, hexec⟩ := caseRun?_of_clauses h
    obtain ⟨first, rest, hfirst, hrest, rfl⟩ := accepts_branchActions_cons hrun hb
    cases k with
    | zero =>
      have hscope : s.child.hoist (ns ++ tail) = s := by
        rw [Scope.child_of_isModule_eq_false hs, hoist_append, hoist_of_flows hns]
        obtain rfl | ⟨ms, rfl, -⟩ := htail <;> rfl
      rw [hscope] at hfirst
      rw [r.execFrom_zero, (hexec x).1]
      exact (compilesAll_tail hns htail hs first hfirst x).symm
    | succ k => exact ih (fun d hd => h d (List.mem_cons_of_mem c hd)) hrest k

theorem execFrom_ne_returned {cases : List Node} (h : ∀ c ∈ cases, IsClause r s c) (k : Nat) (x : σ) :
    (r.execFrom s k cases x).2 ≠ some .returned := by
  induction cases generalizing k with
  | nil => simp [Runtime.execFrom]
  | cons c more ih =>
    cases k with
    | zero =>
      obtain ⟨ns, tail, -, -, -, hexec⟩ := caseRun?_of_clauses h
      rw [r.execFrom_zero]
      exact (hexec x).2
    | succ k => exact ih (fun d hd => h d (List.mem_cons_of_mem c hd)) k

theorem exec_of_quiet_direct {n : Node} (h : IsDirect r s n) (hm : mentions s n = false) (x : σ) :
    (r.exec s n x).1 = x := by
  rcases h with hn | rfl | hnil | ⟨ns, heq, hns⟩
  · exact hn.quiet x hm
  · rfl
  · cases hnil
  · cases heq
    rw [exec_tail hns]
    refine r.execAll_of_still s (fun m hmem y => (hns m hmem).quiet y ?_) x
    exact mentions_of_mem_fields hm (by simp [Node.fields, hmem])

theorem exec_of_quiet_clause {c : Node} (h : IsClause r s c) (hm : mentions s c = false) (x : σ) :
    (r.exec s c x).1 = x := by
  obtain ⟨test, body, rfl, -, hbody⟩ := h
  rw [Runtime.exec]
  refine r.execAll_of_still s (fun n hn y => exec_of_quiet_direct (hbody n hn) ?_ y) x
  exact mentions_of_mem_fields hm (by simp [Node.fields, hn])

theorem execFrom_of_still {cases : List Node} (h : ∀ c ∈ cases, ∀ x, (r.exec s c x).1 = x) (k : Nat)
    (x : σ) : (r.execFrom s k cases x).1 = x := by
  induction cases generalizing k with
  | nil => simp [Runtime.execFrom]
  | cons c more ih =>
    cases k with
    | zero =>
      rw [r.execFrom_zero]
      exact r.execAll_of_still s h x
    | succ k => exact ih (fun d hd => h d (List.mem_cons_of_mem c hd)) k

theorem findIdx_eq_of_forall₂ {α β : Type} {f : α → Bool} {g : β → Bool} {as : List α} {bs : List β}
    (h : List.Forall₂ (fun a b => f a = g b) as bs) : as.findIdx f = bs.findIdx g := by
  induction h with
  | nil => rfl
  | cons hab _ ih => rw [List.findIdx_cons, List.findIdx_cons, hab, ih]

/-- The clause that is written and the value that it is compiled to are found alike. -/
theorem start_eq_entry {d : Node} {cases : List Node} {v : Value} {tests : List Value}
    (hv : s.tests.operandValue d = .ok v)
    (ht : List.Forall₂ (fun c w => s.tests.caseValue c = .ok w) cases tests)
    (h : ∀ c ∈ cases, IsClause r s c) (x : σ) : r.start s d cases x = r.entry v tests x := by
  -- Without the condition on tests, a clause for null would be taken for the default.
  have hpair : List.Forall₂ (fun c w => r.isMatch s d c x = (!w.isNull && r.equal v w x) ∧
      (caseTest c).isNone = w.isNull) cases tests := by
    induction ht with
    | nil => exact .nil
    | @cons c w more rest hw _ ih =>
      refine .cons ?_ (ih fun e he => h e (List.mem_cons_of_mem c he))
      obtain ⟨test, body, rfl, htest, -⟩ := h c List.mem_cons_self
      cases test with
      | none =>
        cases hw
        exact ⟨rfl, rfl⟩
      | some n =>
        have hn : s.tests.operandValue n = .ok w := hw
        have hnull : w.isNull = false := by
          cases w <;> first | rfl | exact (htest n rfl hn).elim
        simp [Runtime.isMatch, caseTest, hv, hn, hnull]
  have hfirst := findIdx_eq_of_forall₂ (hpair.imp fun _ _ hp => hp.1)
  have hdefault := findIdx_eq_of_forall₂ (hpair.imp fun _ _ hp => hp.2)
  unfold Runtime.start Runtime.entry
  rw [hfirst, hdefault, ht.length_eq]

theorem exec_switch {d : Node} {cases : List Node} (h : ∀ c ∈ cases, IsClause r s c) (x : σ) :
    r.exec s (.switchStatement d cases) x = ((r.execFrom s (r.start s d cases x) cases x).1, none) := by
  have hexit := execFrom_ne_returned h (r.start s d cases x) x
  rw [Runtime.exec]
  rcases hx : r.execFrom s (r.start s d cases x) cases x with ⟨y, e⟩
  rw [hx] at hexit
  rcases e with _ | _ | _
  · rfl
  · rfl
  · exact (hexit rfl).elim

theorem exec_of_quiet_switch {d : Node} {cases : List Node} (h : ∀ c ∈ cases, IsClause r s c)
    (hm : mentions s (.switchStatement d cases) = false) (x : σ) :
    (r.exec s (.switchStatement d cases) x).1 = x := by
  have hclauses : ∀ c ∈ cases, ∀ y, (r.exec s c y).1 = y := by
    intro c hc y
    have hmc : mentions s c = false := mentions_of_mem_fields hm (by simp [Node.fields, hc])
    exact exec_of_quiet_clause (h c hc) hmc y
  rw [exec_switch h]
  exact execFrom_of_still hclauses _ x

theorem compiles_switch (hs : s.isModule = false) {d : Node} {cases : List Node}
    (h : ∀ c ∈ cases, IsClause r s c) :
    Compiles r s (.switchStatement d cases) fun x => (r.exec s (.switchStatement d cases) x).1 := by
  intro out t ho
  obtain ⟨rfl, ⟨hm, rfl⟩ | ⟨branches, hb, v, tests, hv, ht, hout⟩⟩ := accepts_switchStatement ho
  · exact ⟨rfl, fun x => (exec_of_quiet_switch h hm x).symm⟩
  · refine ⟨rfl, fun x => ?_⟩
    dsimp only
    rw [exec_switch h, execFrom_of_branches hs h hb, start_eq_entry hv ht h, hout,
      Runtime.runAll_cons, Runtime.run_ofClauses, List.getElem?_map]
    cases branches[r.entry v tests x]? <;> rfl

theorem flows_switch (hs : s.isModule = false) {d : Node} {cases : List Node}
    (h : ∀ c ∈ cases, IsClause r s c) : Flows r s (.switchStatement d cases) where
  hoist := rfl
  exits := by simp [exits]
  caseFlow? more := by simp [caseFlow?]
  ends x := by rw [exec_switch h]
  quiet x hm := exec_of_quiet_switch h hm x
  compiles := compiles_switch hs h

end Switches

/-- Where a statement stands: in a clause of a switch, as a clause, or anywhere else. -/
inductive Position where
  | inner
  | direct
  | clause

/-- Statements without declarations and returns. A break leaves a switch as a statement of a clause
or at the end of a block that is one. -/
inductive Simple (s : Scope) : Position → Node → Prop where
  | expression {e : Node} : Effect s e → Simple s .inner (.expressionStatement e)
  | block {body : List Node} : (∀ n ∈ body, Simple s .inner n) → Simple s .inner (.block body)
  | choice {test consequent : Node} {alternate : Option Node} : mentions s test = false →
    Simple s .inner consequent → (∀ n, alternate = some n → Simple s .inner n) →
    Simple s .inner (.ifStatement test consequent alternate)
  | switch {d : Node} {cases : List Node} : mentions s d = false →
    (∀ c ∈ cases, Simple s .clause c) → Simple s .inner (.switchStatement d cases)
  | clause {test : Option Node} {body : List Node} :
    (∀ n, test = some n → mentions s n = false ∧ s.tests.operandValue n ≠ .ok .null) →
    (∀ n ∈ body, Simple s .direct n) → Simple s .clause (.switchCase test body)
  | inner {n : Node} : Simple s .inner n → Simple s .direct n
  | leave : Simple s .direct .breakStatement
  | leaveBlock {body : List Node} : (∀ n ∈ body, Simple s .inner n) →
    Simple s .direct (.block (body ++ [.breakStatement]))

section Functions

variable {r : Runtime σ}

theorem flows_expression {e : Node} (h : Effect s e) : Flows r s (.expressionStatement e) where
  hoist := rfl
  exits := by simp [exits]
  caseFlow? more := by simp [caseFlow?]
  ends x := by rw [Runtime.exec]
  quiet x hm := by
    have he : mentions s e = false := mentions_of_mem_fields hm (by simp [Node.fields])
    rw [Runtime.exec, r.eval_of_mentions_eq_false he]
  compiles := compiles_expression h

theorem flows_block (hs : s.isModule = false) {body : List Node} (h : ∀ n ∈ body, Flows r s n) :
    Flows r s (.block body) where
  hoist := rfl
  exits := by rw [exits, exitsAny_of_flows h]
  caseFlow? more := by
    have hbody := caseFlow?_append_of_flows h []
    rw [List.append_nil] at hbody
    simp [caseFlow?, hbody]
  ends x := by
    rw [Runtime.exec]
    exact (execAll_append_of_flows h [] x).2
  quiet x hm := by
    rw [Runtime.exec]
    refine r.execAll_of_still s (fun n hn y => (h n hn).quiet y ?_) x
    exact mentions_of_mem_fields hm (by simp [Node.fields, hn])
  compiles := by
    refine compiles_block ?_ (compilesAll_of_flows h)
    rw [Scope.child_of_isModule_eq_false hs, hoist_of_flows h]

theorem flows_choice {test consequent : Node} {alternate : Option Node} (hc : Flows r s consequent)
    (ha : ∀ n, alternate = some n → Flows r s n) :
    Flows r s (.ifStatement test consequent alternate) := by
  have hexits : exits (.ifStatement test consequent alternate) = false := by
    cases alternate with
    | none => simp [exits, exitsOption, hc.exits]
    | some n => simp [exits, exitsOption, hc.exits, (ha n rfl).exits]
  refine ⟨rfl, hexits, fun more => ?_, fun x => ?_, fun x hm => ?_, ?_⟩
  · rw [caseFlow?, hexits]
    rfl
  · rw [Runtime.exec]
    split
    · exact hc.ends x
    · cases alternate with
      | none => rfl
      | some n => exact (ha n rfl).ends x
  · rw [Runtime.exec]
    split
    · exact hc.quiet x (mentions_of_mem_fields hm (by simp [Node.fields]))
    · cases alternate with
      | none => rfl
      | some n => exact (ha n rfl).quiet x (mentions_of_mem_fields hm (by simp [Node.fields]))
  · have hsecond : CompilesOption r s alternate fun x => (r.execOption s alternate x).1 := by
      cases alternate with
      | none => exact fun x => rfl
      | some n => exact (ha n rfl).compiles
    intro out t ho
    obtain ⟨rfl, hrun⟩ := compiles_choice hc.compiles hsecond out t ho
    refine ⟨rfl, fun x => ?_⟩
    rw [hrun]
    dsimp only
    rw [Runtime.exec]
    split <;> rfl

/-- What a statement has to be at each position. -/
def Means (r : Runtime σ) (s : Scope) : Position → Node → Prop
  | .inner, n => Flows r s n
  | .direct, n => IsDirect r s n
  | .clause, n => IsClause r s n

theorem Simple.means (hs : s.isModule = false) {position : Position} {n : Node}
    (h : Simple s position n) : Means r s position n := by
  induction h with
  | expression he => exact flows_expression he
  | block _ ih => exact flows_block hs ih
  | choice _ _ _ ihc iha => exact flows_choice ihc iha
  | switch _ _ ih => exact flows_switch hs ih
  | @clause test body ht _ ih => exact ⟨test, body, rfl, fun n hn => (ht n hn).2, ih⟩
  | inner _ ih => exact .inl ih
  | leave => exact .inr (.inl rfl)
  | @leaveBlock body _ ih => exact .inr (.inr (.inr ⟨body, rfl, ih⟩))

/-- The bodies of functions that are made of simple statements, or of a single expression. -/
def IsSimpleBody (s : Scope) : Node → Prop
  | .block body => ∀ n ∈ body, Simple s .inner n
  | e => Effect s e

theorem accepts_functionActions {params : List Node} {body : Node} {out : List Act}
    (hb : IsSimpleBody (s.function params) body) (h : (functionActions s params body).Accepts out)
    (x : σ) : r.runAll (eraseAll out) x = r.call (s.function params) body x := by
  have hs := isModule_function s params
  unfold functionActions at h
  unfold Runtime.call
  split at h
  · rename_i body
    have hflows : ∀ n ∈ body, Flows r (s.function params) n := fun n hn => (hb n hn).means hs
    rw [hoist_of_flows hflows] at h
    exact compilesAll_of_flows hflows out h x
  · rename_i hblock
    have he : Effect (s.function params) body := by
      unfold IsSimpleBody at hb
      split at hb
      · exact (hblock _ rfl).elim
      · exact hb
    rw [r.runAll_expression he h]
    split
    · exact (hblock _ rfl).elim
    · rfl

theorem run_callback {params : List Node} {body n : Node} {name : String} {a : Act}
    (hf : functionOf? n = some (params, body)) (h : (callback s name (some n)).Accepts a) :
    ∃ as, (functionActions s params body).Accepts as ∧
      ∀ x, r.run a.erase x = r.runAll (eraseAll as) x := by
  rw [callback_of_functionOf? hf] at h
  obtain ⟨as, has, h⟩ := accepts_bind (grows_functionActions s params body)
    (fun as => grows_lift fun p => rfl) h
  obtain ⟨p, q, ho, -⟩ := h
  cases ho
  exact ⟨as, has, fun x => rfl⟩

end Functions

/-- The calls of a function that is compiled without a report have the shape of actions. -/
theorem isSome_action?_of_accepts {params : List Node} {body : Node} {out : List Act}
    (h : (functionActions s params body).Accepts out) :
    ∀ c ∈ (Place.function s params body).calls, c.action?.isSome := by
  intro c hc
  obtain ⟨haction, out, hout⟩ :=
    exists_accepts_of_mem_calls (p := .function s params body) h hc
  obtain ⟨a, ha, -⟩ := correspond_inner haction hout
  rw [ha]
  rfl

end Scenario

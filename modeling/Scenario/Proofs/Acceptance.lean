import Scenario.Proofs.Erasure

namespace Scenario

open Syntax

variable {α β : Type}

namespace Analysis

/-- The analysis never takes a report back. -/
def Grows (m : Analysis α) : Prop := ∀ p, ∃ ds, (m.outcome p).2.diagnostics = p.diagnostics ++ ds

/-- From some progress, the analysis gives a result and reports nothing. -/
def Accepts (m : Analysis α) (a : α) : Prop :=
  ∃ p q, m.outcome p = (.ok a, q) ∧ q.diagnostics = p.diagnostics

theorem grows_pure (a : α) : (pure a : Analysis α).Grows := fun _ => ⟨[], by simp⟩

theorem grows_throw (r : Refused) : (throw r : Analysis α).Grows := fun _ => ⟨[], by simp⟩

theorem Grows.bind {m : Analysis α} {f : α → Analysis β} (hm : m.Grows) (hf : ∀ a, (f a).Grows) :
    (m >>= f).Grows := by
  intro p
  obtain ⟨ds, hq⟩ := hm p
  rw [outcome_bind]
  rcases ho : m.outcome p with ⟨r | a, q⟩
  · rw [ho] at hq
    exact ⟨ds, hq⟩
  · rw [ho] at hq
    obtain ⟨es, hr⟩ := hf a q
    refine ⟨ds ++ es, ?_⟩
    simp only at hq ⊢
    rw [hr, hq, List.append_assoc]

theorem grows_ofReading (x : Reading α) : (ofReading x).Grows := by
  cases x with
  | error r => exact grows_throw r
  | ok a => exact grows_pure a

/-- Analyses that end alike add to the reports. -/
theorem grows_of_analyses {m : Analysis α} {Q : Run α → Run α → Prop}
    (h : Likeness.agreement.Analyses m Q)
    (hQ : ∀ x x', Q x x' → Likeness.Reports x.before x.after x'.before x'.after) : m.Grows := by
  intro p
  have hends := h p p trivial
  rcases ho : m.outcome p with ⟨r | a, q⟩ <;> rw [ho] at hends
  · obtain ⟨-, -, ds, -, hq, -⟩ := hends
    exact ⟨ds, hq⟩
  · obtain ⟨ds, -, hq, -⟩ := hQ _ _ hends
    exact ⟨ds, hq⟩

theorem accepts_pure {a b : α} (h : (pure a : Analysis α).Accepts b) : b = a := by
  obtain ⟨p, q, ho, -⟩ := h
  cases ho
  rfl

theorem not_accepts_throw {r : Refused} {a : α} : ¬(throw r : Analysis α).Accepts a := by
  rintro ⟨p, q, ho, -⟩
  cases ho

theorem accepts_ofReading {x : Reading α} {a : α} (h : (ofReading x).Accepts a) : x = .ok a := by
  obtain ⟨p, q, ho, -⟩ := h
  rw [outcome_ofReading] at ho
  cases ho
  rfl

/-- What is accepted as a whole is accepted step by step. -/
theorem accepts_bind {m : Analysis α} {f : α → Analysis β} {b : β} (hm : m.Grows)
    (hf : ∀ a, (f a).Grows) (h : (m >>= f).Accepts b) : ∃ a, m.Accepts a ∧ (f a).Accepts b := by
  obtain ⟨p, r, ho, hr⟩ := h
  obtain ⟨a, q, ha, hb⟩ := of_outcome_bind_ok ho
  obtain ⟨ds, hq⟩ := hm p
  obtain ⟨es, hrq⟩ := hf a q
  rw [ha] at hq
  rw [hb] at hrq
  simp only at hq hrq
  -- Neither step takes reports back, so together they add none only if each adds none.
  have hnil : ds ++ es = [] := by
    have hlen : r.diagnostics.length = p.diagnostics.length := by rw [hr]
    rw [hrq, hq, List.append_assoc, List.length_append] at hlen
    exact List.eq_nil_of_length_eq_zero (by omega)
  obtain ⟨rfl, rfl⟩ := List.append_eq_nil_iff.1 hnil
  rw [List.append_nil] at hq hrq
  exact ⟨a, ⟨p, q, ha, hq⟩, ⟨q, r, hb, hrq⟩⟩

/-- A refusal is reported, so an accepted report hides none. -/
theorem accepts_orReport {m : Analysis (List α)} {as : List α} (hm : m.Grows)
    (h : (liftM m.orReport : Analysis (List α)).Accepts as) : m.Accepts as := by
  obtain ⟨p, q, ho, hq⟩ := h
  rw [outcome_lift, outcome_orReport] at ho
  obtain ⟨ds, hds⟩ := hm p
  rcases hr : m.outcome p with ⟨r | bs, t⟩
  · rw [hr] at ho hds
    simp only [Prod.mk.injEq] at ho hds
    obtain ⟨-, rfl⟩ := ho
    have hlen := congrArg List.length hq
    change (t.diagnostics ++ [_]).length = _ at hlen
    rw [hds] at hlen
    simp at hlen
  · rw [hr] at ho
    simp only [Prod.mk.injEq, Except.ok.injEq] at ho
    obtain ⟨rfl, rfl⟩ := ho
    exact ⟨p, t, hr, hq⟩

end Analysis

open Analysis Likeness Scenario.Action

theorem agrees : agreement.traversal.Everywhere := lawful_agreement.everywhere

section Grows

variable (s : Scope)

theorem grows_callActions (call : Call) (arguments : List Node) (line : Nat) :
    (callActions s call arguments line).Grows :=
  grows_of_analyses (agrees.callActions s call arguments line) fun _ _ h => h.2

theorem grows_callback (name : String) (n : Option Node) : (callback s name n).Grows :=
  grows_of_analyses (agrees.callback s name n) fun _ _ h => h.2

theorem grows_storeAction (store : Store) (method : Option String) (arguments : List Node)
    (line : Nat) : (storeAction s store method arguments line).Grows :=
  grows_of_analyses ((analyses_store lawful_agreement store).1 s method arguments line)
    fun _ _ h => h.2

theorem grows_transactionActions (store : Store) (proxy : String) (line : Nat) (ns : List Node) :
    (transactionActions s store proxy line ns).Grows :=
  grows_of_analyses ((analyses_store lawful_agreement store).2 s proxy line ns) fun _ _ h => h.2

theorem grows_functionActions (params : List Node) (body : Node) :
    (functionActions s params body).Grows :=
  grows_of_analyses (agrees.functionActions s params body) fun _ _ h => h.2

theorem grows_handlerActions (params : List Node) (body : Node) :
    (handlerActions s params body).Grows :=
  grows_of_analyses (agrees.handlerActions s params body) fun _ _ h => h.2

theorem grows_expression (n : Node) : (expression s n).Grows :=
  grows_of_analyses (agrees.expression s n) fun _ _ h => h.2

theorem grows_statements (ns : List Node) : (statements s ns).Grows :=
  grows_of_analyses (agrees.statements s ns) fun _ _ h => h.2

theorem grows_statement (n : Node) : (statement s n).Grows :=
  grows_of_analyses (agrees.statement s n) fun _ _ h => h.2.2

theorem grows_alternative (n : Option Node) : (alternative s n).Grows :=
  grows_of_analyses (agrees.alternative s n) fun _ _ h => h.2.2

theorem grows_branchActions (cases : List Node) : (branchActions s cases).Grows :=
  grows_of_analyses (agrees.branchActions s cases) fun _ _ h => h.2.of_agreement.2

theorem grows_lift {m : Collect α} (h : ∀ p, (m.outcome p).2.diagnostics = p.diagnostics) :
    (liftM m : Analysis α).Grows :=
  fun p => ⟨[], by simp [h]⟩

theorem grows_transaction (store : Store) (as : List Act) (line : Nat) :
    (match as with
      | [] => throw ⟨.transactionEmpty, some line⟩
      | actions => liftM (Act.transaction store actions) : Analysis Act).Grows := by
  cases as with
  | nil => exact grows_throw _
  | cons a more => exact grows_lift fun p => rfl

theorem grows_conditionalAct (test : Node) (as bs : List Act) :
    (conditionalAct s test as bs).Grows := by
  intro p
  rw [outcome_conditionalAct]
  cases s.tests.condition test <;> exact ⟨[], by simp⟩

theorem grows_chosen {γ : Type} (f : List Act → γ) (test : Node) (as bs : List Act) :
    (if as.isEmpty && bs.isEmpty then return f []
      else return f [← conditionalAct s test as bs] : Analysis γ).Grows := by
  split
  · exact grows_pure _
  · exact (grows_conditionalAct s test as bs).bind fun _ => grows_pure _

theorem grows_switchAct (discriminant : Node) (cases : List Node) (branches : List (List Act)) :
    (switchAct s discriminant cases branches).Grows := by
  intro p
  rw [outcome_switchAct]
  cases s.tests.operandValue discriminant <;> cases cases.mapM s.tests.caseValue <;>
    exact ⟨[], by simp⟩

end Grows

section Inversion

variable {s t : Scope} {n : Node} {as bs out : List Act}

/-- What a test makes of actions that it chooses between. -/
def Chooses (s : Scope) (test : Node) (as bs out : List Act) : Prop :=
  as = [] ∧ bs = [] ∧ out = [] ∨
    ∃ c, s.tests.condition test = .ok c ∧
      eraseAll out = [ofBranches c.toValue (eraseAll as) (eraseAll bs)]

/-- What a switch makes of the actions of its clauses. -/
def Selects (s : Scope) (d : Node) (cases : List Node) (branches : List (List Act))
    (out : List Act) : Prop :=
  ∃ v tests, s.tests.operandValue d = .ok v ∧
    List.Forall₂ (fun c w => s.tests.caseValue c = .ok w) cases tests ∧
    eraseAll out = [ofClauses v tests (branches.map eraseAll)]

theorem accepts_conditionalAct {test : Node} {a : Act}
    (h : (conditionalAct s test as bs).Accepts a) : Chooses s test as bs [a] := by
  obtain ⟨p, q, ho, -⟩ := h
  rw [outcome_conditionalAct] at ho
  cases hc : s.tests.condition test with
  | error r => simp [hc] at ho
  | ok c =>
    simp only [hc, Prod.mk.injEq, Except.ok.injEq] at ho
    obtain ⟨rfl, -⟩ := ho
    exact .inr ⟨c, hc, by simp [erase_choice]⟩

theorem accepts_switchAct {d : Node} {cases : List Node} {branches : List (List Act)} {a : Act}
    (h : (switchAct s d cases branches).Accepts a) : Selects s d cases branches [a] := by
  obtain ⟨p, q, ho, -⟩ := h
  rw [outcome_switchAct] at ho
  cases hv : s.tests.operandValue d with
  | error r => simp [hv] at ho
  | ok v =>
    cases ht : cases.mapM s.tests.caseValue with
    | error r => simp [hv, ht] at ho
    | ok tests =>
      simp only [hv, ht, Prod.mk.injEq, Except.ok.injEq] at ho
      obtain ⟨rfl, -⟩ := ho
      exact ⟨v, tests, hv, forall₂_of_mapM_ok ht, by simp [erase_selection]⟩

/-- Both parts of a choice are accepted, and so is what the test makes of them. -/
theorem accepts_choice {test : Node} {γ : Type} {f : List Act → γ} {b : γ}
    (h : (if as.isEmpty && bs.isEmpty then return f []
      else return f [← conditionalAct s test as bs] : Analysis γ).Accepts b) :
    ∃ out, b = f out ∧ Chooses s test as bs out := by
  split at h
  · rename_i hempty
    obtain ⟨ha, hb⟩ : as = [] ∧ bs = [] := by simpa using hempty
    exact ⟨[], accepts_pure h, .inl ⟨ha, hb, rfl⟩⟩
  · obtain ⟨a, ha, hb⟩ := accepts_bind (grows_conditionalAct s test as bs)
      (fun a => grows_pure _) h
    exact ⟨[a], accepts_pure hb, accepts_conditionalAct ha⟩

theorem accepts_statements_nil (h : (statements s []).Accepts out) : out = [] := by
  rw [statements] at h
  exact accepts_pure h

theorem accepts_statements_cons {more : List Node} (h : (statements s (n :: more)).Accepts out) :
    ∃ first t rest, (statement s n).Accepts (first, t) ∧ (statements t more).Accepts rest ∧
      out = first ++ rest := by
  rw [statements] at h
  obtain ⟨⟨first, t⟩, hfirst, h⟩ := accepts_bind (grows_statement s n)
    (fun x => (grows_statements x.2 more).bind fun _ => grows_pure _) h
  obtain ⟨rest, hrest, h⟩ := accepts_bind (grows_statements t more) (fun _ => grows_pure _) h
  exact ⟨first, t, rest, hfirst, hrest, accepts_pure h⟩

/-- Actions that leave the scope as it was. -/
theorem accepts_inScope {m : Analysis (List Act)} {x : List Act × Scope} (hm : m.Grows)
    (h : (do return (← m, s) : Analysis (List Act × Scope)).Accepts x) : m.Accepts x.1 ∧ x.2 = s := by
  obtain ⟨as, ha, h⟩ := accepts_bind hm (fun _ => grows_pure _) h
  rw [accepts_pure h]
  exact ⟨ha, rfl⟩

theorem accepts_expressionStatement {e : Node}
    (h : (statement s (.expressionStatement e)).Accepts (out, t)) :
    (expression s e).Accepts out ∧ t = s := by
  rw [statement] at h
  exact accepts_inScope (grows_expression s e) h

theorem accepts_returnStatement {e : Node}
    (h : (statement s (.returnStatement (some e))).Accepts (out, t)) :
    (expression s e).Accepts out ∧ t = s := by
  rw [statement] at h
  exact accepts_inScope (grows_expression s e) h

theorem accepts_returnStatement_none (h : (statement s (.returnStatement none)).Accepts (out, t)) :
    out = [] ∧ t = s := by
  rw [statement] at h
  cases accepts_pure h
  exact ⟨rfl, rfl⟩

theorem accepts_breakStatement (h : (statement s .breakStatement).Accepts (out, t)) :
    out = [] ∧ t = s := by
  rw [statement] at h
  cases accepts_pure h
  exact ⟨rfl, rfl⟩

theorem accepts_block {body : List Node} (h : (statement s (.block body)).Accepts (out, t)) :
    (statements (s.child.hoist body) body).Accepts out ∧ t = s := by
  rw [statement] at h
  exact accepts_inScope (grows_statements (s.child.hoist body) body) h

theorem accepts_alternative_none (h : (alternative s none).Accepts (out, t)) : out = [] ∧ t = s := by
  rw [alternative] at h
  cases accepts_pure h
  exact ⟨rfl, rfl⟩

theorem accepts_ifStatement {test consequent : Node} {alternate : Option Node}
    (h : (statement s (.ifStatement test consequent alternate)).Accepts (out, t)) :
    ∃ as u bs, (statement s consequent).Accepts (as, u) ∧ (alternative u alternate).Accepts (bs, t) ∧
      Chooses t test as bs out := by
  rw [statement] at h
  obtain ⟨⟨as, u⟩, ha, h⟩ := accepts_bind (grows_statement s consequent)
    (fun x => (grows_alternative x.2 alternate).bind fun y =>
      grows_chosen y.2 (fun out => (out, y.2)) test x.1 y.1) h
  obtain ⟨⟨bs, v⟩, hb, h⟩ := accepts_bind (grows_alternative u alternate)
    (fun y => grows_chosen y.2 (fun out => (out, y.2)) test as y.1) h
  obtain ⟨out', hout, hc⟩ := accepts_choice (f := fun out => (out, v)) h
  cases hout
  exact ⟨as, u, bs, ha, hb, hc⟩

theorem accepts_switchStatement {d : Node} {cases : List Node}
    (h : (statement s (.switchStatement d cases)).Accepts (out, t)) :
    t = s ∧ (mentions s (.switchStatement d cases) = false ∧ out = [] ∨
      ∃ branches, (branchActions s cases).Accepts branches ∧ Selects s d cases branches out) := by
  rw [statement] at h
  split at h
  · rename_i hm
    cases accepts_pure h
    exact ⟨rfl, .inl ⟨by simpa using hm, rfl⟩⟩
  · split at h
    · exact (not_accepts_throw h).elim
    · obtain ⟨branches, hb, h⟩ := accepts_bind (grows_branchActions s cases)
        (fun bs => (grows_switchAct s d cases bs).bind fun _ => grows_pure _) h
      obtain ⟨a, ha, h⟩ := accepts_bind (grows_switchAct s d cases branches)
        (fun _ => grows_pure _) h
      cases accepts_pure h
      exact ⟨rfl, .inr ⟨branches, hb, accepts_switchAct ha⟩⟩

theorem accepts_branchActions_nil {branches : List (List Act)}
    (h : (branchActions s []).Accepts branches) : branches = [] := by
  rw [branchActions] at h
  exact accepts_pure h

theorem accepts_branchActions_cons {c : Node} {more run : List Node} {branches : List (List Act)}
    (hr : caseRun? (c :: more) = some run) (h : (branchActions s (c :: more)).Accepts branches) :
    ∃ first rest, (statements (s.child.hoist run) run).Accepts first ∧
      (branchActions s more).Accepts rest ∧ branches = first :: rest := by
  rw [branchActions_of_caseRun? hr] at h
  obtain ⟨first, hf, h⟩ := accepts_bind (grows_statements (s.child.hoist run) run)
    (fun _ => (grows_branchActions s more).bind fun _ => grows_pure _) h
  obtain ⟨rest, hrest, h⟩ := accepts_bind (grows_branchActions s more) (fun _ => grows_pure _) h
  exact ⟨first, rest, hf, hrest, accepts_pure h⟩

/-- What stands behind a test is done if the test holds, or with `||` if it does not. -/
theorem accepts_junction {operator : String} {left right : Node}
    (hop : operator = "&&" ∨ operator = "||") (hl : mentions s left = false)
    (h : (expression s (.binary operator left right)).Accepts out) :
    ∃ as, (expression s right).Accepts as ∧
      if operator = "||" then Chooses s left [] as out else Chooses s left as [] out := by
  rw [expression, if_pos ⟨hop, by simp [hl]⟩] at h
  obtain ⟨as, ha, h⟩ := accepts_bind (grows_expression s right) (fun as => by
    cases as with
    | nil => exact grows_pure _
    | cons a more =>
      dsimp only
      split <;> exact (grows_conditionalAct s left _ _).bind fun _ => grows_pure _) h
  refine ⟨as, ha, ?_⟩
  cases as with
  | nil =>
    have hout := accepts_pure h
    split <;> exact .inl ⟨rfl, rfl, hout⟩
  | cons a more =>
    dsimp only at h
    split at h <;> rename_i ho <;> simp only [ho, if_true, if_false]
    · obtain ⟨b, hb, h⟩ := accepts_bind (grows_conditionalAct s left [] (a :: more))
        (fun _ => grows_pure _) h
      rw [accepts_pure h]
      exact accepts_conditionalAct hb
    · obtain ⟨b, hb, h⟩ := accepts_bind (grows_conditionalAct s left (a :: more) [])
        (fun _ => grows_pure _) h
      rw [accepts_pure h]
      exact accepts_conditionalAct hb

theorem accepts_ternary {test consequent alternate : Node} {line : Nat}
    (ht : mentions s test = false)
    (h : (expression s
      (.unsupported "ternary_expression" [test, consequent, alternate] line)).Accepts out) :
    ∃ as bs, (expression s consequent).Accepts as ∧ (expression s alternate).Accepts bs ∧
      Chooses s test as bs out := by
  rw [expression, if_neg (by simp [ht])] at h
  obtain ⟨as, ha, h⟩ := accepts_bind (grows_expression s consequent)
    (fun as => (grows_expression s alternate).bind fun bs =>
      grows_chosen s (fun out => out) test as bs) h
  obtain ⟨bs, hb, h⟩ := accepts_bind (grows_expression s alternate)
    (fun bs => grows_chosen s (fun out => out) test as bs) h
  obtain ⟨out', rfl, hc⟩ := accepts_choice (f := fun out => out) h
  exact ⟨as, bs, ha, hb, hc⟩

/-- Several actions of a handler are one; a handler without actions is none. -/
theorem accepts_handlerActions {params : List Node} {body : Node}
    (h : (handlerActions s params body).Accepts out) :
    ∃ as, (functionActions s params body).Accepts as ∧
      (as = [] ∧ out = [] ∨ eraseAll out = [ofList (eraseAll as)]) := by
  rw [handlerActions] at h
  obtain ⟨as, has, h⟩ := accepts_bind (grows_functionActions s params body) (fun as => by
    cases as with
    | nil => exact grows_pure _
    | cons a more =>
      exact (grows_lift fun p => Act.diagnostics_single (a :: more) p).bind fun _ => grows_pure _) h
  refine ⟨as, has, ?_⟩
  cases as with
  | nil => exact .inl ⟨rfl, accepts_pure h⟩
  | cons a more =>
    obtain ⟨p, q, ho, -⟩ := h
    obtain rfl : [((Act.single (a :: more)).outcome p).1] = out :=
      Except.ok.inj (congrArg Prod.fst ho)
    exact .inr (by rw [eraseAll_cons, erase_single, eraseAll_nil])

/-- A change at a path is made of a path and, unless it is a removal, of a value. -/
theorem accepts_mutation {store : Store} {method : String} {kind : ActionKind}
    {arguments : List Node} {line : Nat} {a : Act} (hk : storeMethod? method = some kind)
    (ht : kind ≠ .storeTransaction)
    (h : (storeAction s store (some method) arguments line).Accepts a) :
    ∃ key path, key.staticString? = some path ∧
      (kind = .storeRemove ∧ arguments = [key] ∧ a.erase = ofChange kind store path none ∨
        kind ≠ .storeRemove ∧ ∃ value, arguments = [key, value] ∧ isSpread value = false ∧
          a.erase = ofChange kind store path (some (staticValue s.props value))) := by
  rw [storeAction_of_mutation hk ht] at h
  obtain ⟨p, q, ho, -⟩ := h
  obtain ⟨plain, t, hplain, ho⟩ := of_outcome_bind_ok ho
  obtain ⟨path, u, hpath, ho⟩ := of_outcome_bind_ok ho
  rw [outcome_ofReading, Prod.mk.injEq] at hplain hpath
  obtain ⟨hplain, -⟩ := hplain
  obtain ⟨hpath, -⟩ := hpath
  have hspread : arguments.any isSpread = false := by
    unfold plainArguments at hplain
    split at hplain
    · cases hplain
    · rename_i hno
      simpa using hno
  cases arguments with
  | nil => cases hpath
  | cons key more =>
    cases hkey : key.staticString? with
    | none =>
      rw [keyPath, hkey] at hpath
      cases hpath
    | some path' =>
      rw [keyPath, hkey] at hpath
      cases hpath
      refine ⟨key, path, hkey, ?_⟩
      by_cases hr : kind = .storeRemove
      · rw [if_pos hr] at ho
        cases more with
        | nil =>
          cases ho
          exact .inl ⟨hr, rfl, rfl⟩
        | cons _ _ => cases ho
      · rw [if_neg hr] at ho
        rcases more with _ | ⟨value, _ | _⟩
        · cases ho
        · cases ho
          exact .inr ⟨hr, value, rfl, by simp_all, rfl⟩
        · cases ho

theorem accepts_transaction {store : Store} {arguments : List Node} {line : Nat} {a : Act}
    (h : (storeAction s store (some "transaction") arguments line).Accepts a) :
    ∃ t as, Transaction.ofArguments arguments line = .ok t ∧
      (transactionActions ((s.function t.params).bind t.proxy (some store)) store t.proxy line
        t.statements).Accepts as ∧
      as ≠ [] ∧ a.erase = ofChanges store (eraseAll as) := by
  rw [storeAction_of_transaction rfl] at h
  have hgrows (t : Transaction) := (grows_transactionActions
    ((s.function t.params).bind t.proxy (some store)) store t.proxy line t.statements).bind
    fun as => grows_transaction store as line
  obtain ⟨-, -, h⟩ := accepts_bind (grows_ofReading _)
    (fun _ => (grows_ofReading _).bind hgrows) h
  obtain ⟨t, ht, h⟩ := accepts_bind (grows_ofReading _) hgrows h
  obtain ⟨as, has, h⟩ := accepts_bind (grows_transactionActions _ store t.proxy line t.statements)
    (fun as => grows_transaction store as line) h
  cases as with
  | nil => exact (not_accepts_throw h).elim
  | cons b more =>
    obtain ⟨p, q, ho, -⟩ := h
    cases ho
    exact ⟨t, b :: more, accepts_ofReading ht, has, by simp, rfl⟩

theorem accepts_transactionActions_nil {store : Store} {proxy : String} {line : Nat}
    (h : (transactionActions s store proxy line []).Accepts out) : out = [] := by
  rw [transactionActions] at h
  exact accepts_pure h

/-- A statement of a transaction is a change of the store, or else it does nothing. -/
theorem accepts_transactionActions_cons {store : Store} {proxy : String} {line : Nat}
    {more : List Node} (h : (transactionActions s store proxy line (n :: more)).Accepts out) :
    (∃ c a as, mutationOn? proxy n = some c ∧
        (storeAction s store c.method c.arguments c.line).Accepts a ∧
        (transactionActions s store proxy line more).Accepts as ∧ out = a :: as) ∨
      mutationOn? proxy n = none ∧ mentions s n = false ∧
        (transactionActions s store proxy line more).Accepts out := by
  cases hn : mutationOn? proxy n with
  | none =>
    rw [transactionActions_of_none hn] at h
    split at h
    · exact (not_accepts_throw h).elim
    · rename_i hm
      exact .inr ⟨rfl, by simpa using hm, h⟩
  | some c =>
    rw [transactionActions_of_mutation hn] at h
    obtain ⟨a, ha, h⟩ := accepts_bind (grows_storeAction s store c.method c.arguments c.line)
      (fun _ => (grows_transactionActions s store proxy line more).bind fun _ => grows_pure _) h
    obtain ⟨as, has, h⟩ := accepts_bind (grows_transactionActions s store proxy line more)
      (fun _ => grows_pure _) h
    exact .inl ⟨c, a, as, rfl, ha, has, accepts_pure h⟩

/-- A request is made of its payload and of what follows it. -/
theorem accepts_request {arguments : List Node} {line : Nat}
    (h : (callActions s (.effect .api (some "request")) arguments line).Accepts out) :
    ∃ r a b, Request.ofArguments arguments line s.props = .ok r ∧
      (callback s "onSuccess" r.onSuccess).Accepts a ∧
      (callback s "onError" r.onError).Accepts b ∧
      eraseAll out = [ofRequest r.payload a.erase b.erase] := by
  cases hr : Request.ofArguments arguments line s.props with
  | error e =>
    rw [callActions_of_refused hr] at h
    exact (not_accepts_throw h).elim
  | ok r =>
    rw [callActions_of_request hr] at h
    obtain ⟨a, ha, h⟩ := accepts_bind (grows_callback s "onSuccess" r.onSuccess)
      (fun _ => (grows_callback s "onError" r.onError).bind fun _ =>
        (grows_lift fun p => rfl).bind fun _ => grows_pure _) h
    obtain ⟨b, hb, h⟩ := accepts_bind (grows_callback s "onError" r.onError)
      (fun _ => (grows_lift fun p => rfl).bind fun _ => grows_pure _) h
    obtain ⟨p, q, ho, -⟩ := h
    cases ho
    exact ⟨r, a, b, rfl, ha, hb, rfl⟩

/-- An effect is made of a payload by the shape of its method. -/
theorem of_outcome_effectAct {space : Namespace} {method : Option String} {arguments : List Node}
    {line : Nat} {p q : Progress} {a : Act}
    (h : (effectAct s space method arguments line).outcome p = (.ok a, q)) :
    ∃ name shape payload t, method = some name ∧ space.effect? name = some shape ∧
      effectPayload shape (space.name ++ "." ++ name ++ "()") arguments line s.props =
        .ok payload ∧
      a = ((Act.effect shape.kind payload).outcome t).1 := by
  unfold effectAct at h
  cases hn : method.filter (· ≠ "") with
  | none =>
    simp only [hn] at h
    cases h
  | some name =>
    simp only [hn, Option.bind_some] at h
    cases hs : space.effect? name with
    | none =>
      simp only [hs] at h
      cases h
    | some shape =>
      simp only [hs] at h
      obtain ⟨payload, t, hpayload, h⟩ := of_outcome_bind_ok h
      rw [outcome_ofReading, Prod.mk.injEq] at hpayload
      rw [outcome_lift] at h
      cases h
      exact ⟨name, shape, payload, t, (Option.filter_eq_some_iff.1 hn).1, hs, hpayload.1, rfl⟩

theorem accepts_effect {space : Namespace} {method : Option String} {arguments : List Node}
    {line : Nat} (hspace : space ≠ .api)
    (h : (callActions s (.effect space method) arguments line).Accepts out) :
    ∃ name shape payload, method = some name ∧ space.effect? name = some shape ∧
      effectPayload shape (space.name ++ "." ++ name ++ "()") arguments line s.props =
        .ok payload ∧
      eraseAll out = [ofEffect shape.kind payload] := by
  obtain ⟨p, q, ho, -⟩ := h
  rw [callActions] at ho
  case x => exact hspace
  obtain ⟨a, t, he, ho⟩ := of_outcome_bind_ok ho
  cases ho
  obtain ⟨name, shape, payload, u, hname, hshape, hpayload, rfl⟩ := of_outcome_effectAct he
  exact ⟨name, shape, payload, hname, hshape, hpayload, rfl⟩

end Inversion

end Scenario

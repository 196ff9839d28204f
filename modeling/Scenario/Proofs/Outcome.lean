import Mathlib.Data.List.Forall2
import Scenario.Action.Collection

namespace Scenario

open Syntax

variable {α β : Type}

/-- What a step gives and the progress that it leaves. -/
def Collect.outcome (m : Collect α) (p : Progress) : α × Progress := m.run p

/-- What an analysis gives and the progress that it leaves. A refusal leaves progress too. -/
def Analysis.outcome (m : Analysis α) (p : Progress) : Except Refused α × Progress := m.run.run p

namespace Collect

@[simp] theorem outcome_pure (a : α) (p : Progress) : (pure a : Collect α).outcome p = (a, p) := rfl

@[simp] theorem outcome_bind (m : Collect α) (f : α → Collect β) (p : Progress) :
    (m >>= f).outcome p = (f (m.outcome p).1).outcome (m.outcome p).2 := rfl

end Collect

namespace Analysis

@[simp] theorem outcome_pure (a : α) (p : Progress) :
    (pure a : Analysis α).outcome p = (.ok a, p) := rfl

@[simp] theorem outcome_throw (r : Refused) (p : Progress) :
    (throw r : Analysis α).outcome p = (.error r, p) := rfl

@[simp] theorem outcome_lift (m : Collect α) (p : Progress) :
    (liftM m : Analysis α).outcome p = (.ok (m.outcome p).1, (m.outcome p).2) := rfl

theorem outcome_bind (m : Analysis α) (f : α → Analysis β) (p : Progress) :
    (m >>= f).outcome p =
      match m.outcome p with
      | (.ok a, q) => (f a).outcome q
      | (.error r, q) => (.error r, q) := by
  change (ExceptT.bindCont f (m.outcome p).1).run (m.outcome p).2 = _
  rcases m.outcome p with ⟨_ | _, _⟩ <;> rfl

/-- What comes behind a step that succeeds: the step succeeded, and so did what follows it. -/
theorem of_outcome_bind_ok {m : Analysis α} {f : α → Analysis β} {p r : Progress} {b : β}
    (h : (m >>= f).outcome p = (.ok b, r)) :
    ∃ a q, m.outcome p = (.ok a, q) ∧ (f a).outcome q = (.ok b, r) := by
  rw [outcome_bind] at h
  rcases hm : m.outcome p with ⟨_ | a, q⟩
  · simp [hm] at h
  · rw [hm] at h
    exact ⟨a, q, rfl, h⟩

theorem outcome_ofReading (x : Reading α) (p : Progress) : (ofReading x).outcome p = (x, p) := by
  cases x <;> rfl

/-- What an analysis finds out, with its refusal reported. -/
theorem outcome_orReport (m : Analysis (List α)) (p : Progress) :
    m.orReport.outcome p =
      match m.outcome p with
      | (.ok as, q) => (as, q)
      | (.error r, q) => ([], ((Collect.reportRefused r).outcome q).2) := by
  have hrun : Collect.outcome m.run p = m.outcome p := rfl
  unfold orReport
  rw [Collect.outcome_bind, hrun]
  rcases m.outcome p with ⟨_ | _, _⟩ <;> rfl

theorem forall₂_of_mapM_ok {f : α → Reading β} {as : List α} {bs : List β}
    (h : as.mapM f = .ok bs) : List.Forall₂ (fun a b => f a = .ok b) as bs := by
  induction as generalizing bs with
  | nil =>
    cases h
    exact .nil
  | cons a more ih =>
    rw [List.mapM_cons] at h
    cases ha : f a with
    | error r => simp [ha, bind, Except.bind] at h
    | ok b =>
      cases hm : more.mapM f with
      | error r => simp [ha, hm, bind, Except.bind] at h
      | ok rest =>
        simp only [ha, hm, bind, Except.bind, pure, Except.pure, Except.ok.injEq] at h
        subst h
        exact .cons ha (ih hm)

theorem outcome_mapM_ofReading {g : α → Analysis β} (f : α → Reading β)
    (h : ∀ a, g a = ofReading (f a)) (as : List α) (p : Progress) :
    (as.mapM g).outcome p = (as.mapM f, p) := by
  induction as with
  | nil => rfl
  | cons a more ih =>
    rw [List.mapM_cons, List.mapM_cons, outcome_bind, h, outcome_ofReading]
    cases f a with
    | error r => rfl
    | ok b =>
      change (_ >>= _ : Analysis _).outcome p = _
      rw [outcome_bind, ih]
      cases more.mapM f <;> rfl

theorem outcome_mapM_lift (f : α → Collect β) (as : List α) (p : Progress) :
    (as.mapM fun a => (liftM (f a) : Analysis β)).outcome p =
      (.ok ((as.mapM f).outcome p).1, ((as.mapM f).outcome p).2) := by
  induction as generalizing p with
  | nil => rfl
  | cons a more ih =>
    rw [List.mapM_cons, List.mapM_cons, outcome_bind, outcome_lift]
    change (_ >>= _ : Analysis _).outcome _ = _
    rw [outcome_bind, ih]
    rfl

end Analysis

namespace Act

/-- The choice between two lists of actions. -/
def choice (condition : Value) (consequent alternate : List Act) : Collect Act := do
  let first ← single consequent
  let second ← singleIfAny alternate
  conditional condition first second

/-- The choice between lists of actions by a value. -/
def selection (discriminant : Value) (cases : List Value) (branches : List (List Act)) :
    Collect Act := do
  let branches ← branches.mapM single
  switch discriminant cases branches

end Act

namespace TestContext

variable (t : TestContext)

def operandValue (n : Node) : Reading Value := return (← t.operand n).toValue

/-- The value that a clause is compared with, null for the default. -/
def caseValue (c : Node) : Reading Value :=
  match caseTest c with
  | some test => t.operandValue test
  | none => .ok .null

end TestContext

open Analysis

theorem outcome_conditionalAct (s : Scope) (test : Node) (as bs : List Act) (p : Progress) :
    (conditionalAct s test as bs).outcome p =
      match s.tests.condition test with
      | .ok c =>
        (.ok ((Act.choice c.toValue as bs).outcome p).1,
          ((Act.choice c.toValue as bs).outcome p).2)
      | .error r => (.error r, p) := by
  unfold conditionalAct
  rw [outcome_bind, outcome_ofReading]
  cases s.tests.condition test <;> rfl

theorem outcome_switchAct (s : Scope) (discriminant : Node) (cases : List Node)
    (branches : List (List Act)) (p : Progress) :
    (switchAct s discriminant cases branches).outcome p =
      match s.tests.operandValue discriminant, cases.mapM s.tests.caseValue with
      | .ok d, .ok tests =>
        (.ok ((Act.selection d tests branches).outcome p).1,
          ((Act.selection d tests branches).outcome p).2)
      | .error r, _ => (.error r, p)
      | .ok _, .error r => (.error r, p) := by
  have hop (n : Node) : (do return (← ofReading (s.tests.operand n)).toValue : Analysis Value) =
      ofReading (s.tests.operandValue n) := by
    unfold TestContext.operandValue
    cases s.tests.operand n <;> rfl
  unfold switchAct
  simp only [hop]
  rw [outcome_bind, outcome_ofReading]
  cases s.tests.operandValue discriminant with
  | error r => rfl
  | ok d =>
    change (_ >>= _ : Analysis _).outcome p = _
    rw [outcome_bind, outcome_mapM_ofReading s.tests.caseValue]
    case h =>
      intro c
      unfold TestContext.caseValue
      cases caseTest c <;> rfl
    cases cases.mapM s.tests.caseValue with
    | error r => rfl
    | ok tests =>
      change (_ >>= _ : Analysis _).outcome p = _
      rw [outcome_bind, outcome_mapM_lift]
      rfl

theorem walkAttribute_of_handler? {s : Scope} {n body : Node} {params : List Node}
    (h : handler? n = some (params, body)) :
    walkAttribute s n = (handlerActions s params body).orReport := by
  rw [walkAttribute]
  split
  · rename_i h'
    rw [h, Option.some.injEq, Prod.mk.injEq] at h'
    obtain ⟨rfl, rfl⟩ := h'
    rfl
  · simp_all

theorem walkAttribute_of_none {s : Scope} {n : Node} (h : handler? n = none) :
    walkAttribute s n = walk s n := by
  rw [walkAttribute]
  split <;> simp_all

/-- A program that is a call gives the actions of the call. -/
theorem walkAll_of_classify {s : Scope} {callee : Node} {arguments : List Node} {line : Nat}
    {call : Call} (h : s.classify callee = some call) :
    walkAll s [.expressionStatement (.call callee arguments line)] =
      (callActions s call arguments line).orReport := by
  have hcall : walk s (.call callee arguments line) =
      (callActions s call arguments line).orReport := by
    rw [walk, h]
  have hchildren : (Node.expressionStatement (.call callee arguments line)).children =
      [.call callee arguments line] := rfl
  have hwalk : walk s (.expressionStatement (.call callee arguments line)) =
      walkAll s [.call callee arguments line] := by
    rw [walk, hchildren] <;> simp
  simp [walkAll, hwalk, hcall]

theorem callback_of_functionOf? {s : Scope} {name : String} {n body : Node} {params : List Node}
    (h : functionOf? n = some (params, body)) :
    callback s name (some n) = (do Act.sequence (← functionActions s params body)) := by
  rw [callback]
  split
  · rename_i h'
    rw [h, Option.some.injEq, Prod.mk.injEq] at h'
    obtain ⟨rfl, rfl⟩ := h'
    rfl
  · simp_all

theorem callback_of_none {s : Scope} {name : String} {n : Node} (h : functionOf? n = none) :
    callback s name (some n) = throw ⟨.callbackNotFunction name, none⟩ := by
  rw [callback]
  split <;> simp_all

theorem callActions_of_request {s : Scope} {arguments : List Node} {line : Nat} {r : Request}
    (h : Request.ofArguments arguments line s.props = .ok r) :
    callActions s (.effect .api (some "request")) arguments line = (do
      let onSuccess ← callback s "onSuccess" r.onSuccess
      let onError ← callback s "onError" r.onError
      return [← Act.request r.payload onSuccess onError]) := by
  rw [callActions, if_pos rfl]
  split
  · simp_all
  · rename_i r' h'
    obtain rfl : r = r' := by simpa [h] using h'
    rfl

theorem callActions_of_refused {s : Scope} {arguments : List Node} {line : Nat} {r : Refused}
    (h : Request.ofArguments arguments line s.props = .error r) :
    callActions s (.effect .api (some "request")) arguments line = throw r := by
  rw [callActions, if_pos rfl]
  split <;> simp_all

theorem branchActions_of_caseRun? {s : Scope} {c : Node} {more run : List Node}
    (h : caseRun? (c :: more) = some run) :
    branchActions s (c :: more) = (do
      let first ← statements (s.child.hoist run) run
      return first :: (← branchActions s more)) := by
  rw [branchActions]
  split
  · simp_all
  · rename_i run' h'
    obtain rfl : run = run' := by simpa [h] using h'
    rfl

theorem branchActions_of_none {s : Scope} {c : Node} {more : List Node}
    (h : caseRun? (c :: more) = none) :
    branchActions s (c :: more) = throw ⟨.conditionalExit, none⟩ := by
  rw [branchActions]
  split <;> simp_all

/-- The kinds of changes at a path, with the values that they have. -/
def IsMutation (kind : ActionKind) (value : Option Value) : Prop :=
  kind = .storeRemove ∧ value = none ∨ (kind = .storeSet ∨ kind = .storeMerge) ∧ value.isSome

/-- A change at a path is read off its call, and then it is made or refused. -/
theorem outcome_mutationAct (s : Scope) {kind : ActionKind} {method : String} (store : Store)
    (call : String) (arguments : List Node) (line : Nat) (hk : storeMethod? method = some kind)
    (ht : kind ≠ .storeTransaction) :
    (∃ r, ∀ p, (mutationAct s kind store call arguments line).outcome p = (.error r, p)) ∨
    ∃ path value, IsMutation kind value ∧
      mutationAct s kind store call arguments line = liftM (Act.mutation kind store path value) := by
  unfold mutationAct
  cases hp : keyPath call line arguments with
  | error r => exact .inl ⟨r, fun p => rfl⟩
  | ok path =>
    change (∃ r, ∀ p, ((if kind = .storeRemove then _ else _ : Analysis Act)).outcome p = _) ∨
      ∃ path value, _ ∧ (if kind = .storeRemove then _ else _ : Analysis Act) = _
    by_cases hr : kind = .storeRemove
    · simp only [if_pos hr]
      split
      · exact .inr ⟨path, none, .inl ⟨hr, rfl⟩, rfl⟩
      · exact .inl ⟨_, fun p => rfl⟩
    · simp only [if_neg hr]
      split
      · rename_i value
        refine .inr ⟨path, some (staticValue s.props value), .inr ⟨?_, rfl⟩, rfl⟩
        unfold storeMethod? at hk
        split at hk <;> simp_all
      · exact .inl ⟨_, fun p => rfl⟩

theorem storeAction_of_mutation {s : Scope} {store : Store} {method : String} {kind : ActionKind}
    {arguments : List Node} {line : Nat} (hk : storeMethod? method = some kind)
    (ht : kind ≠ .storeTransaction) :
    storeAction s store (some method) arguments line = (do
      let _ ← ofReading (plainArguments ("store." ++ method ++ "()") arguments line)
      mutationAct s kind store ("store." ++ method ++ "()") arguments line) := by
  rw [storeAction]
  simp only [hk, if_neg ht]

theorem storeAction_of_transaction {s : Scope} {store : Store} {method : String}
    {arguments : List Node} {line : Nat} (hk : storeMethod? method = some .storeTransaction) :
    storeAction s store (some method) arguments line = (do
      let _ ← ofReading (plainArguments ("store." ++ method ++ "()") arguments line)
      let t ← ofReading (Transaction.ofArguments arguments line)
      match ← transactionActions ((s.function t.params).bind t.proxy (some store)) store t.proxy line
          t.statements with
      | [] => throw ⟨.transactionEmpty, some line⟩
      | actions => Act.transaction store actions) := by
  rw [storeAction]
  simp only [hk, if_true]
  congr 1
  funext _
  split
  · rename_i r hr
    rw [hr]
    rfl
  · rename_i t ht
    rw [ht]
    rfl

theorem transactionActions_of_mutation {s : Scope} {store : Store} {proxy : String} {line : Nat}
    {n : Node} {more : List Node} {c : MethodCall} (h : mutationOn? proxy n = some c) :
    transactionActions s store proxy line (n :: more) = (do
      let first ← storeAction s store c.method c.arguments c.line
      return first :: (← transactionActions s store proxy line more)) := by
  rw [transactionActions]
  split
  · rename_i c' h'
    obtain rfl : c = c' := by simpa [h] using h'
    rfl
  · simp_all

theorem transactionActions_of_none {s : Scope} {store : Store} {proxy : String} {line : Nat}
    {n : Node} {more : List Node} (h : mutationOn? proxy n = none) :
    transactionActions s store proxy line (n :: more) =
      if mentions s n then throw ⟨.transactionStatement proxy, some line⟩
      else transactionActions s store proxy line more := by
  rw [transactionActions]
  split <;> simp_all

/-- Declaring stores adds stores and reports only, so it keeps what these two keep. -/
theorem declareAllStores_keeps {I : Progress → Prop}
    (hstore : ∀ store p, I p → I ((Collect.addStore store).outcome p).2)
    (hreport : ∀ r p, I p → I ((Collect.reportRefused r).outcome p).2) (body : List Node) :
    ∀ p, I p → I ((declareAllStores body).outcome p).2 := by
  have h := declareStores.mutual_induct
    (fun n => ∀ p, I p → I ((declareStores n).outcome p).2)
    (fun ns => ∀ p, I p → I ((declareAllStores ns).outcome p).2)
    (fun callee arguments line hf store hs p hp => by
      rw [declareStores, if_pos hf, hs]
      exact hstore store p hp)
    (fun callee arguments line hf r hr p hp => by
      rw [declareStores, if_pos hf, hr]
      exact hreport r p hp)
    (fun callee arguments line hf ih p hp => by
      rw [declareStores, if_neg hf]
      exact ih p hp)
    (fun n hn ih p hp => by
      rw [declareStores]
      · exact ih p hp
      · exact hn)
    (fun p hp => by rwa [declareAllStores])
    (fun n more ihn ihm p hp => by
      rw [declareAllStores, Collect.outcome_bind]
      exact ihm _ (ihn p hp))
  exact h.2 body

end Scenario

import Scenario.Proofs.Conditions
import Scenario.Proofs.Meaning

namespace Scenario

open Syntax Analysis Scenario.Action

namespace Syntax.Node

/-- The expression is written `null` or `undefined`. A name without letters, which no source text has,
is no prop and so counts as one. -/
def isNullTest (n : Node) : Bool :=
  match n.unwrap with
  | .null => true
  | .identifier name => name == "undefined" || name == ""
  | _ => false

end Syntax.Node

/-- The clause is the default of its switch. -/
def isDefault (c : Node) : Bool := (caseTest c).isNone

/-- The clause is for `null` or `undefined`. -/
def isNullClause (c : Node) : Bool := (caseTest c).any Node.isNullTest

theorem Value.isNull_eq_true_iff (v : Value) : v.isNull = true ↔ v = .null := by
  cases v <;> simp [Value.isNull]

namespace TestContext

variable {t : TestContext} {n c : Node} {v : Value}

/-- Of the operands that are no reads, just those two are null: objects, arrays and props are
objects and lists, whatever is in them. -/
theorem isNull_of_literal? (h : t.literal? n.unwrap = some v) : v.isNull = n.isNullTest := by
  unfold Node.isNullTest
  generalize n.unwrap = m at h
  cases m with
  | string | number | boolean | null | object | array =>
    cases h
    rfl
  | template quasis expressions =>
    obtain ⟨text, -, rfl⟩ := Option.map_eq_some_iff.1 h
    rfl
  | identifier name =>
    rw [literal?] at h
    split at h
    · rename_i hname
      cases h
      simp [hname, Value.isNull]
    · rename_i hname
      split at h
      · rename_i hprop
        cases h
        by_cases hempty : name = ""
        · simp [staticValue, hempty, Value.isNull]
        · simp [staticValue, hempty, hname, hprop, Value.propRef, Value.isNull]
      · cases h
  | _ => cases h

theorem isNull_of_operandValue (h : t.operandValue n = .ok v) : v.isNull = n.isNullTest := by
  obtain ⟨x, hx, hv⟩ := Reading.of_bind_ok h
  cases hv
  unfold operand at hx
  split at hx
  · rename_i s arguments line hread
    have hcall : n.isNullTest = false := by
      unfold readStore? at hread
      split at hread
      · rename_i hn
        simp [Node.isNullTest, hn]
      · cases hread
    rw [hcall]
    unfold read at hx
    split at hx
    · cases hx
    · split at hx
      · cases hx
        rfl
      · cases hx
  · split at hx
    · rename_i w hw
      cases hx
      exact isNull_of_literal? hw
    · cases hx

theorem isNull_of_caseValue (h : t.caseValue c = .ok v) :
    v.isNull = (isDefault c || isNullClause c) := by
  unfold caseValue at h
  unfold isDefault isNullClause
  split at h
  · rename_i test htest
    rw [isNull_of_operandValue h, htest]
    rfl
  · rename_i htest
    cases h
    rw [htest]
    rfl

end TestContext

variable {s t : Scope} {d : Node} {cases : List Node} {as : List Act}

/-- What a switch that succeeds gives: nothing, or the selection of its branches by its operands. -/
theorem selection_of_statement {p q : Progress}
    (h : (statement s (.switchStatement d cases)).outcome p = (.ok (as, t), q)) :
    as = [] ∨ ∃ v tests branches r, s.tests.operandValue d = .ok v ∧
      List.Forall₂ (fun c w => s.tests.caseValue c = .ok w) cases tests ∧
      as = [((Act.selection v tests branches).outcome r).1] := by
  rw [statement] at h
  split at h
  · cases h
    exact .inl rfl
  · split at h
    · cases h
    · obtain ⟨branches, r, -, h⟩ := of_outcome_bind_ok h
      obtain ⟨a, r', ha, h⟩ := of_outcome_bind_ok h
      cases h
      rw [outcome_switchAct] at ha
      cases hv : s.tests.operandValue d with
      | error e => simp [hv] at ha
      | ok v =>
        cases ht : cases.mapM s.tests.caseValue with
        | error e => simp [hv, ht] at ha
        | ok tests =>
          simp only [hv, ht, Prod.mk.injEq, Except.ok.injEq] at ha
          exact .inr ⟨v, tests, branches, r, rfl, forall₂_of_mapM_ok ht, by rw [ha.1]⟩

/-- Null marks the default alone just where no clause is for null. -/
theorem forall₂_isDefault_iff {tests : List Value}
    (h : List.Forall₂ (fun c w => w.isNull = (isDefault c || isNullClause c)) cases tests) :
    List.Forall₂ (fun c w => w = .null ↔ isDefault c = true) cases tests ↔
      ∀ c ∈ cases, isNullClause c = false := by
  induction h with
  | nil => simp
  | @cons c w more rest hw _ ih =>
    have hnot : isDefault c = true → isNullClause c = false := by
      intro hd
      rw [isDefault, Option.isNone_iff_eq_none] at hd
      simp [isNullClause, hd]
    have hhead : (w = .null ↔ isDefault c = true) ↔ isNullClause c = false := by
      rw [← Value.isNull_eq_true_iff, hw]
      cases hd : isDefault c <;> cases hn : isNullClause c <;> simp_all
    rw [List.forall₂_cons, hhead, ih, List.forall_mem_cons]

namespace Runtime

variable {σ : Type} (r : Runtime σ)

/-- Where no value is equal, the clause for null is run. -/
theorem entry_of_unequal {v : Value} {tests : List Value} {x : σ}
    (h : ∀ w ∈ tests, w.isNull = false → r.equal v w x = false) :
    r.entry v tests x = tests.findIdx Value.isNull := by
  have hnone : ∀ w ∈ tests, (!w.isNull && r.equal v w x) = false := by
    intro w hw
    cases hn : w.isNull with
    | true => rfl
    | false => simp [h w hw hn]
  have hlen : tests.findIdx (fun w => !w.isNull && r.equal v w x) = tests.length :=
    List.findIdx_eq_length.2 hnone
  unfold entry
  rw [hlen]
  simp

end Runtime

/-- In a switch that is compiled to an action, null stands among the cases for the default clause and
for the clauses for `null` and `undefined`, and for no other. So it marks the default alone if and only
if there are no such clauses; a runtime that finds no equal value runs the first clause of both
kinds. -/
theorem null_cases_of_switch {p q : Progress}
    (h : (statement s (.switchStatement d cases)).outcome p = (.ok (as, t), q)) (hne : as ≠ []) :
    ∃ a v tests, as = [a] ∧ a.kind = .switch ∧
      a.value = some (.object [("discriminant", v), ("cases", .list tests)]) ∧
      List.Forall₂ (fun c w => w = .null ↔ isDefault c = true ∨ isNullClause c = true) cases tests ∧
      (List.Forall₂ (fun c w => w = .null ↔ isDefault c = true) cases tests ↔
        ∀ c ∈ cases, isNullClause c = false) ∧
      ∀ (σ : Type) (r : Runtime σ) (x : σ),
        (∀ w ∈ tests, w.isNull = false → r.equal v w x = false) →
        r.entry v tests x = cases.findIdx fun c => isDefault c || isNullClause c := by
  obtain rfl | ⟨v, tests, branches, u, -, hcases, rfl⟩ := selection_of_statement h
  · exact (hne rfl).elim
  have hmarks : List.Forall₂ (fun c w => w.isNull = (isDefault c || isNullClause c)) cases tests :=
    hcases.imp fun _ _ hc => TestContext.isNull_of_caseValue hc
  refine ⟨_, v, tests, rfl, rfl, rfl, ?_, forall₂_isDefault_iff hmarks, fun σ r x hx => ?_⟩
  · refine hmarks.imp fun c w hw => ?_
    rw [← Value.isNull_eq_true_iff, hw, Bool.or_eq_true]
  · rw [r.entry_of_unequal hx]
    exact (findIdx_eq_of_forall₂ (hmarks.imp fun _ _ hw => hw.symm)).symm

/-- A clause for null in front of the default is run in place of it. -/
theorem null_cases_of_switch_null :
    let s : Scope := {}
    let pop : Node := .expressionStatement (.call (.identifier "pop") [] 1)
    let first : Node := .switchCase (some .null) [pop, .breakStatement]
    let last : Node := .switchCase none [pop]
    isDefault first = false ∧ isNullClause first = true ∧
      ∃ a v q, (statement s (.switchStatement (.boolean true) [first, last])).outcome {} =
          (.ok ([a], s), q) ∧
        a.value = some (.object [("discriminant", v), ("cases", .list [.null, .null])]) ∧
        ∀ (σ : Type) (r : Runtime σ) (x : σ), r.entry v [.null, .null] x = 0 := by
  intro s pop first last
  have hcall : s.isActionCall (.call (.identifier "pop") [] 1) = true := rfl
  have hmentions : mentions s (.switchStatement (.boolean true) [first, last]) = true := by
    simp [mentions, mentionsAny, first, last, pop, Node.children, Node.fields, Node.isAbsent,
      Scope.within, hcall]
  have hfirst : caseRun? [first, last] = some [pop] := by
    simp [caseRun?, caseFlow?, caseBody, first, pop]
  have hlast : caseRun? [last] = some [pop] := by
    simp [caseRun?, caseFlow?, caseBody, last, pop]
  have hflows : ([first, last].any fun c => (caseFlow? (caseBody c)).isNone) = false := by
    simp [caseFlow?, caseBody, first, last, pop]
  have hpop : statements (s.child.hoist [pop]) [pop] = (do
      return (← liftM (do return [← effectAct s .navigate (some "pop") [] 1] :
        Analysis (List Act)).orReport) ++ []) := by
    have hexpression : expression s (.call (.identifier "pop") [] 1) = _ :=
      expression_of_shortForm? (show shortForm? "pop" = some (.navigate, "pop") from rfl)
        (by decide) rfl
    have hhoist : s.child.hoist [pop] = s := rfl
    rw [hhoist, statements, statement, hexpression]
    simp only [statements]
    rfl
  have hout : ∃ a q, (statement s (.switchStatement (.boolean true) [first, last])).outcome {} =
      (.ok ([a], s), q) := by
    rw [statement, hmentions, hflows, branchActions_of_caseRun? hfirst,
      branchActions_of_caseRun? hlast, branchActions, hpop]
    exact ⟨_, _, rfl⟩
  obtain ⟨a, q, ho⟩ := hout
  obtain ⟨b, v, tests, hb, -, hvalue, hcases, -, hentry⟩ := null_cases_of_switch ho (by simp)
  obtain ⟨w, rest, hw, hrest, rfl⟩ := List.forall₂_cons_left_iff.1 hcases
  obtain ⟨w', rest', hw', hnil, rfl⟩ := List.forall₂_cons_left_iff.1 hrest
  cases hnil
  obtain rfl : w = .null := hw.2 (.inr rfl)
  obtain rfl : w' = .null := hw'.2 (.inl rfl)
  obtain rfl : a = b := by simpa using hb
  refine ⟨rfl, rfl, a, v, q, ho, hvalue, fun σ r x => ?_⟩
  exact hentry σ r x (by simp [Value.isNull])

end Scenario

import Scenario.Syntax.Weight

namespace Scenario

open Syntax

mutual

/-- Whether a break or a return occurs in a statement, outside loops, switches and functions. -/
def exits : Node → Bool
  | .breakStatement => true
  | .returnStatement _ => true
  | .block body => exitsAny body
  | .ifStatement _ consequent alternate => exits consequent || exitsOption alternate
  | _ => false

def exitsOption : Option Node → Bool
  | none => false
  | some n => exits n

def exitsAny : List Node → Bool
  | [] => false
  | n :: more => exits n || exitsAny more

end

/-- The statements that a clause runs, and whether it leaves the switch then. There is no answer if
it depends on a condition whether the clause leaves. -/
def caseFlow? : List Node → Option (List Node × Bool)
  | [] => some ([], false)
  | .breakStatement :: _ => some ([], true)
  | .returnStatement e :: _ => some ([.returnStatement e], true)
  | .block body :: more =>
    match caseFlow? body with
    | none => none
    | some (_, true) => some ([.block body], true)
    | some (_, false) => (caseFlow? more).map fun (run, leaves) => (.block body :: run, leaves)
  | .ifStatement test consequent alternate :: more =>
    if exits (.ifStatement test consequent alternate) then none
    else
      (caseFlow? more).map fun (run, leaves) =>
        (.ifStatement test consequent alternate :: run, leaves)
  | n :: more => (caseFlow? more).map fun (run, leaves) => (n :: run, leaves)

def caseBody : Node → List Node
  | .switchCase _ body => body
  | _ => []

/-- The test of a clause; the default has none. -/
def caseTest : Node → Option Node
  | .switchCase test _ => test
  | _ => none

/-- The statements that run from the first of the given clauses on. -/
def caseRun? : List Node → Option (List Node)
  | [] => some []
  | c :: more =>
    match caseFlow? (caseBody c) with
    | none => none
    | some (run, true) => some run
    | some (run, false) => (caseRun? more).map (run ++ ·)

theorem weight_caseFlow?_le {body run : List Node} {leaves : Bool}
    (h : caseFlow? body = some (run, leaves)) : weight run ≤ weight body := by
  fun_induction caseFlow? body generalizing run leaves with
  | case1 => simp_all
  | case2 => simp_all
  | case3 =>
    cases h
    simp
  | case4 => simp at h
  | case5 =>
    cases h
    simp
  | case6 body more _ _ _ ih =>
    obtain ⟨⟨run', leaves'⟩, hr, he⟩ := Option.map_eq_some_iff.1 h
    have := ih hr
    simp at he
    obtain ⟨rfl, rfl⟩ := he
    simp
    omega
  | case7 => simp at h
  | case8 test consequent alternate more _ ih =>
    obtain ⟨⟨run', leaves'⟩, hr, he⟩ := Option.map_eq_some_iff.1 h
    have := ih hr
    simp at he
    obtain ⟨rfl, rfl⟩ := he
    simp
    omega
  | case9 n more _ _ _ _ ih =>
    obtain ⟨⟨run', leaves'⟩, hr, he⟩ := Option.map_eq_some_iff.1 h
    have := ih hr
    simp at he
    obtain ⟨rfl, rfl⟩ := he
    simp
    omega

theorem weight_caseBody_lt (c : Node) : weight (caseBody c) < sizeOf c := by
  cases c with
  | switchCase test body =>
    have hbody := weight_lt_sizeOf body
    simp only [caseBody, Node.switchCase.sizeOf_spec]
    omega
  | _ => exact Node.one_le_sizeOf _

theorem weight_caseRun?_le {cases run : List Node} (h : caseRun? cases = some run) :
    weight run ≤ weight cases := by
  fun_induction caseRun? cases generalizing run with
  | case1 => simp_all
  | case2 => simp at h
  | case3 c more run' hf =>
    have := weight_caseFlow?_le hf
    have := weight_caseBody_lt c
    simp at h
    subst h
    simp
    omega
  | case4 c more run' hf ih =>
    obtain ⟨rest, hr, rfl⟩ := Option.map_eq_some_iff.1 h
    have := weight_caseFlow?_le hf
    have := weight_caseBody_lt c
    have := ih hr
    simp
    omega

end Scenario

import Scenario.Proofs.Compiling

namespace Scenario

open Syntax Analysis Scenario.Action

/-- The runtime that writes the actions down which it runs, where every test is decided beforehand. -/
def Runtime.recorder (holds : Value → Bool) (dynamic : Node → Bool) :
    Runtime (List (Action Unit)) where
  effect a x := x ++ [a]
  holds v _ := holds v
  equal _ _ _ := false
  dynamicTest n _ := dynamic n
  dynamicMatch _ _ _ := false

namespace Runtime

variable {σ : Type} (r : Runtime σ) (s : Scope)

mutual

/-- What a statement does to a state if a `return` ends nothing. -/
def sweep : Node → σ → σ
  | .expressionStatement e, x => r.eval s e x
  | .returnStatement (some e), x => r.eval s e x
  | .block body, x => sweepAll body x
  | .ifStatement test consequent alternate, x =>
    if r.test s test x then sweep consequent x else sweepOption alternate x
  | _, x => x

def sweepOption : Option Node → σ → σ
  | none, x => x
  | some n, x => sweep n x

def sweepAll : List Node → σ → σ
  | [], x => x
  | n :: more, x => sweepAll more (sweep n x)

end

end Runtime

namespace Runtime

variable (r : Runtime (List (Action Unit))) (s : Scope)

mutual

/-- The actions that stand behind the `return` which a statement comes to. -/
def behind : Node → List (Action Unit) → List (Action Unit)
  | .block body, x => behindAll body x
  | .ifStatement test consequent alternate, x =>
    if r.test s test x then behind consequent x else behindOption alternate x
  | _, _ => []

def behindOption : Option Node → List (Action Unit) → List (Action Unit)
  | none, _ => []
  | some n, x => behind n x

def behindAll : List Node → List (Action Unit) → List (Action Unit)
  | [], _ => []
  | n :: more, x =>
    match r.exec s n x with
    | (y, none) => behindAll more y
    | (_, some _) => behind n x ++ r.sweepAll s more []

end

end Runtime

/-- Statements that are actions, choices and returns. -/
inductive Returning (s : Scope) : Node → Prop where
  | expression {e : Node} : Effect s e → Returning s (.expressionStatement e)
  | leave : Returning s (.returnStatement none)
  | leaveWith {e : Node} : Effect s e → Returning s (.returnStatement (some e))
  | block {body : List Node} : (∀ n ∈ body, Returning s n) → Returning s (.block body)
  | choice {test consequent : Node} {alternate : Option Node} : mentions s test = false →
    Returning s consequent → (∀ n, alternate = some n → Returning s n) →
    Returning s (.ifStatement test consequent alternate)

namespace Returning

variable {σ : Type} {r : Runtime σ} {s : Scope}

theorem hoistStatement_eq_self {n : Node} (h : Returning s n) : s.hoistStatement n = s := by
  cases h <;> rfl

theorem compilesAll_sweep {ns : List Node} (h : ∀ n ∈ ns, Compiles r s n (r.sweep s n)) :
    CompilesAll r s ns (r.sweepAll s ns) := by
  induction ns with
  | nil => exact compilesAll_nil
  | cons n ns ih =>
    exact compilesAll_cons (h n List.mem_cons_self) (ih fun m hm => h m (List.mem_cons_of_mem n hm))

/-- A statement is compiled as if a `return` ended nothing. -/
theorem compiles (hs : s.isModule = false) {n : Node} (h : Returning s n) :
    Compiles r s n (r.sweep s n) := by
  induction h with
  | expression he => exact compiles_expression he
  | leave => exact compiles_return_none
  | leaveWith he => exact compiles_return he
  | @block body hbody ih =>
    have hscope : s.child.hoist body = s := by
      rw [Scope.child_of_isModule_eq_false hs]
      exact hoist_eq_self fun n hn => (hbody n hn).hoistStatement_eq_self
    exact compiles_block hscope (compilesAll_sweep ih)
  | @choice test consequent alternate _ _ _ ihc iha =>
    have hsecond : CompilesOption r s alternate (r.sweepOption s alternate) := by
      cases alternate with
      | none => exact fun x => rfl
      | some n => exact iha n rfl
    exact compiles_choice ihc hsecond

theorem compilesAll (hs : s.isModule = false) {ns : List Node} (h : ∀ n ∈ ns, Returning s n) :
    CompilesAll r s ns (r.sweepAll s ns) :=
  compilesAll_sweep fun n hn => (h n hn).compiles hs

end Returning

/-- A runtime that writes actions down and decides tests without looking at what is written. -/
structure Runtime.Records (r : Runtime (List (Action Unit))) : Prop where
  effect (a : Action Unit) (x : List (Action Unit)) : r.effect a x = x ++ [a]
  test (s : Scope) (n : Node) (x y : List (Action Unit)) : r.test s n x = r.test s n y

theorem Runtime.records_recorder (holds : Value → Bool) (dynamic : Node → Bool) :
    (recorder holds dynamic).Records where
  effect a x := rfl
  test s n x y := by
    unfold Runtime.test
    cases s.tests.condition n <;> rfl

theorem Runtime.sweepAll_append {r : Runtime (List (Action Unit))} {s : Scope} {ns : List Node}
    (h : ∀ n ∈ ns, ∀ x, r.sweep s n x = x ++ r.sweep s n []) (x : List (Action Unit)) :
    r.sweepAll s ns x = x ++ r.sweepAll s ns [] := by
  induction ns generalizing x with
  | nil => simp [sweepAll]
  | cons n ns ih =>
    have hn := h n List.mem_cons_self x
    have hmore := ih fun m hm => h m (List.mem_cons_of_mem n hm)
    rw [sweepAll, sweepAll, hn, hmore, hmore (r.sweep s n []), List.append_assoc]

namespace Runtime.Records

variable {r : Runtime (List (Action Unit))} (hr : r.Records) {s : Scope}
include hr

theorem eval_append (e : Node) (x : List (Action Unit)) : r.eval s e x = x ++ r.eval s e [] := by
  fun_induction r.eval s e x with
  | case1 e x ih => exact ih
  | case2 e x ih => exact ih
  | case3 e x ih => exact ih
  | case4 e x ih => exact ih
  | case5 left right x ht ih => simpa [Runtime.eval, hr.test s left [] x, ht] using ih
  | case6 left right x ht => simp [Runtime.eval, hr.test s left [] x, ht]
  | case7 left right x ht => simp [Runtime.eval, hr.test s left [] x, ht]
  | case8 left right x ht _ ih => simpa [Runtime.eval, hr.test s left [] x, ht] using ih
  | case9 operator left right x hand hor => simp [Runtime.eval, hand, hor]
  | case10 test consequent alternate line x ht ih =>
    simpa [Runtime.eval, hr.test s test [] x, ht] using ih
  | case11 test consequent alternate line x ht ih =>
    simpa [Runtime.eval, hr.test s test [] x, ht] using ih
  | case12 callee arguments line x a ha => simp [Runtime.eval, ha, hr.effect]
  | case13 callee arguments line x ha => simp [Runtime.eval, ha]
  | case14 => simp [Runtime.eval]

theorem sweep_append {n : Node} (h : Returning s n) (x : List (Action Unit)) :
    r.sweep s n x = x ++ r.sweep s n [] := by
  induction h generalizing x with
  | expression => exact hr.eval_append _ x
  | leave => simp [sweep]
  | leaveWith => exact hr.eval_append _ x
  | block _ ih =>
    rw [sweep, sweep]
    exact sweepAll_append ih x
  | @choice test consequent alternate _ _ _ ihc iha =>
    rw [sweep, sweep, hr.test s test x []]
    split
    · exact ihc x
    · cases alternate with
      | none => simp [sweepOption]
      | some n => exact iha n rfl x

/-- A list of statements is cut off at the first of them that returns. -/
theorem sweepAll_eq_append_behind {ns : List Node} (hns : ∀ n ∈ ns, Returning s n)
    (h : ∀ n ∈ ns, ∀ x, r.sweep s n x = (r.exec s n x).1 ++ r.behind s n x ∧
      ((r.exec s n x).2 = none → r.behind s n x = [])) (x : List (Action Unit)) :
    r.sweepAll s ns x = (r.execAll s ns x).1 ++ r.behindAll s ns x ∧
      ((r.execAll s ns x).2 = none → r.behindAll s ns x = []) := by
  induction ns generalizing x with
  | nil => simp [sweepAll, Runtime.execAll, behindAll]
  | cons n ns ih =>
    obtain ⟨hn, hnone⟩ := h n List.mem_cons_self x
    have hmore := ih (fun m hm => hns m (List.mem_cons_of_mem n hm))
      fun m hm => h m (List.mem_cons_of_mem n hm)
    rcases hx : r.exec s n x with ⟨y, _ | e⟩
    · simp only [hx] at hn hnone
      simp only [sweepAll, Runtime.execAll, behindAll, hx, hn, hnone, List.append_nil]
      exact hmore y
    · -- The statement returns: what is made of the others is written behind what it has written.
      have hrest : ∀ m ∈ ns, ∀ z, r.sweep s m z = z ++ r.sweep s m [] :=
        fun m hm z => hr.sweep_append (hns m (List.mem_cons_of_mem n hm)) z
      simp only [hx] at hn
      simp only [sweepAll, Runtime.execAll, behindAll, hx, hn]
      rw [sweepAll_append hrest, List.append_assoc]
      simp

/-- A statement that comes to a `return` is compiled with what stands behind it, and no other is. -/
theorem sweep_eq_append_behind {n : Node} (h : Returning s n) (x : List (Action Unit)) :
    r.sweep s n x = (r.exec s n x).1 ++ r.behind s n x ∧
      ((r.exec s n x).2 = none → r.behind s n x = []) := by
  induction h generalizing x with
  | expression => simp [sweep, Runtime.exec, behind]
  | leave => simp [sweep, Runtime.exec, behind]
  | leaveWith => simp [sweep, Runtime.exec, behind]
  | block hbody ih =>
    rw [sweep, Runtime.exec, behind]
    exact hr.sweepAll_eq_append_behind hbody ih x
  | @choice test consequent alternate _ _ _ ihc iha =>
    rw [sweep, Runtime.exec, behind]
    split
    · exact ihc x
    · cases alternate with
      | none => simp [sweepOption, Runtime.execOption, behindOption]
      | some n => exact iha n rfl x

end Runtime.Records

/-- Under every outcome of its tests, a handler that is compiled without a report runs what its body
runs and then what stands behind the `return` that the body comes to. So it runs what the body runs
if and only if there are no actions behind that `return`. -/
theorem runAll_eq_append_behind {s : Scope} {params body : List Node} {n : Node} {p : Progress}
    (holds : Value → Bool) (dynamic : Node → Bool) (hn : handler? n = some (params, .block body))
    (hb : ∀ m ∈ body, Returning (s.function params) m)
    (hq : ((walkAttribute s n).outcome p).2.diagnostics = p.diagnostics) :
    let r := Runtime.recorder holds dynamic
    let compiled := r.runAll (eraseAll ((walkAttribute s n).outcome p).1) []
    let written := (r.execAll (s.function params) body []).1
    compiled = written ++ r.behindAll (s.function params) body [] ∧
      (compiled = written ↔ r.behindAll (s.function params) body [] = []) := by
  intro r compiled written
  have hr := Runtime.records_recorder holds dynamic
  have hs := isModule_function s params
  obtain ⟨as, has, hrun⟩ := runAll_walkAttribute (r := r) hn hq
  have hscope : (s.function params).hoist body = s.function params :=
    hoist_eq_self fun m hm => (hb m hm).hoistStatement_eq_self
  rw [functionActions, hscope] at has
  have hsweep := Returning.compilesAll (r := r) hs hb as has []
  obtain ⟨hcut, -⟩ := hr.sweepAll_eq_append_behind hb
    (fun m hm x => hr.sweep_eq_append_behind (hb m hm) x) []
  have hall : compiled = written ++ r.behindAll (s.function params) body [] :=
    ((hrun []).trans hsweep).trans hcut
  refine ⟨hall, ?_⟩
  rw [hall]
  exact List.append_right_eq_self

/-- A handler that returns before it goes back is compiled to going back. -/
theorem runAll_eq_append_behind_pop :
    let r := Runtime.recorder (fun _ => true) fun _ => true
    let body : List Node :=
      [.returnStatement none, .expressionStatement (.call (.identifier "pop") [] 1)]
    let handler : Node := .attribute "onPress" (some (.arrow [] (.block body) 1))
    let compiled := r.runAll (eraseAll ((walkAttribute .module handler).outcome {}).1) []
    (r.execAll (Scope.module.function []) body []).1 = [] ∧
      compiled = r.behindAll (Scope.module.function []) body [] ∧
      compiled.map (·.kind) = [.navigationPop] := by
  intro r body handler compiled
  have hbody : ∀ m ∈ body, Returning (Scope.module.function []) m := by
    intro m hm
    rcases List.mem_cons.1 hm with rfl | hm
    · exact .leave
    · obtain rfl := List.mem_singleton.1 hm
      exact .expression (.action rfl)
  have hpop : shortForm? "pop" = some (.navigate, "pop") := rfl
  have houtcome : ((walkAttribute .module handler).outcome {}).2.diagnostics = [] ∧
      (r.runAll (eraseAll ((walkAttribute .module handler).outcome {}).1) []).map (·.kind) =
        [.navigationPop] := by
    rw [walkAttribute_of_handler? (n := handler) rfl]
    simp only [body, handlerActions, functionActions, statements, statement, pure_bind]
    rw [expression_of_shortForm? hpop (by decide) rfl]
    exact ⟨rfl, rfl⟩
  obtain ⟨hreports, hkinds⟩ := houtcome
  obtain ⟨hall, -⟩ := runAll_eq_append_behind (s := .module) (n := handler) (fun _ => true)
    (fun _ => true) rfl hbody hreports
  exact ⟨rfl, hall, hkinds⟩

end Scenario

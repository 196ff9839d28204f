import Mathlib.Data.List.Forall2
import Scenario.Condition.Reading

namespace Scenario

open Syntax

/-- What is left open by the structure of tests and conditions. -/
structure Interpretation (α : Type) where
  operand : Operand → α
  /-- What an expression stands for that is no operand. -/
  dynamic : Node → α
  equals : α → α → Bool
  notEquals : α → α → Bool
  greaterThan : α → α → Bool
  lessThan : α → α → Bool
  greaterThanOrEqual : α → α → Bool
  lessThanOrEqual : α → α → Bool
  contains : α → α → Bool
  startsWith : α → α → Bool
  endsWith : α → α → Bool
  truthy : α → Bool

namespace Interpretation

variable {α : Type} (I : Interpretation α)

/-- What a comparison of a condition means. -/
def comparison : Comparison → α → α → Bool
  | .equals => I.equals
  | .notEquals => I.notEquals
  | .greaterThan => I.greaterThan
  | .lessThan => I.lessThan
  | .greaterThanOrEqual => I.greaterThanOrEqual
  | .lessThanOrEqual => I.lessThanOrEqual
  | .contains => I.contains
  | .startsWith => I.startsWith
  | .endsWith => I.endsWith

mutual

/-- Whether a condition holds. -/
def holds : Condition → Bool
  | .compare c left right => I.comparison c (I.operand left) (I.operand right)
  | .joined .and conditions => holdsAll conditions
  | .joined .or conditions => holdsAny conditions
  | .not c => !holds c
  | .truthy x => I.truthy (I.operand x)

def holdsAll : List Condition → Bool
  | [] => true
  | c :: more => holds c && holdsAll more

def holdsAny : List Condition → Bool
  | [] => false
  | c :: more => holds c || holdsAny more

end

/-- What an operator of a test means. -/
def operator? : String → Option (α → α → Bool)
  | "===" => some I.equals
  | "==" => some I.equals
  | "!==" => some I.notEquals
  | "!=" => some I.notEquals
  | ">" => some I.greaterThan
  | "<" => some I.lessThan
  | ">=" => some I.greaterThanOrEqual
  | "<=" => some I.lessThanOrEqual
  | _ => none

/-- What a method of a test means, of its receiver and its argument. -/
def method? : String → Option (α → α → Bool)
  | "includes" => some I.contains
  | "startsWith" => some I.startsWith
  | "endsWith" => some I.endsWith
  | _ => none

/-- What an expression stands for. -/
def value (t : TestContext) (n : Node) : α :=
  match t.operand n with
  | .ok x => I.operand x
  | .error _ => I.dynamic n

/-- Whether a test holds that is not made of other tests. -/
def leaf (t : TestContext) (n : Node) : Bool :=
  match n with
  | .binary operator left right =>
    match I.operator? operator with
    | some f => f (I.value t left) (I.value t right)
    | none => I.truthy (I.value t n)
  | .call callee [a] _ =>
    match Callee.method? callee with
    | some (receiver, some method) =>
      match I.method? method with
      | some f => f (I.value t receiver) (I.value t a)
      | none => I.truthy (I.value t n)
    | _ => I.truthy (I.value t n)
  | n => I.truthy (I.value t n)

/-- Whether a test holds. -/
def test (t : TestContext) : Node → Bool
  | .parenthesized e => test t e
  | .assertion e => test t e
  | .container e => test t e
  | .binary operator left right =>
    if operator = "&&" then test t left && test t right
    else if operator = "||" then test t left || test t right
    else I.leaf t (.binary operator left right)
  | .unary operator argument =>
    if operator = "!" then !test t argument else I.leaf t (.unary operator argument)
  | n => I.leaf t n

end Interpretation

/-- The tests that a test is made of, in order. -/
def Syntax.Node.testLeaves : Node → List Node
  | .parenthesized e => e.testLeaves
  | .assertion e => e.testLeaves
  | .container e => e.testLeaves
  | .binary operator left right =>
    if operator = "&&" ∨ operator = "||" then left.testLeaves ++ right.testLeaves
    else [.binary operator left right]
  | .unary operator argument =>
    if operator = "!" then argument.testLeaves else [.unary operator argument]
  | n => [n]

namespace Condition

mutual

/-- The comparisons that a condition is made of, in order. -/
def leaves : Condition → List Condition
  | .joined _ conditions => leavesAll conditions
  | .not c => leaves c
  | .compare c left right => [.compare c left right]
  | .truthy x => [.truthy x]

def leavesAll : List Condition → List Condition
  | [] => []
  | c :: more => leaves c ++ leavesAll more

end

def junction? : Condition → Option Junction
  | .joined j _ => some j
  | _ => none

/-- No junction has fewer than two members, and none stands directly in another of its kind. -/
inductive IsFlat : Condition → Prop where
  | compare (c : Comparison) (left right : Operand) : IsFlat (.compare c left right)
  | truthy (x : Operand) : IsFlat (.truthy x)
  | not {c : Condition} : IsFlat c → IsFlat (.not c)
  | joined {j : Junction} {conditions : List Condition} : 2 ≤ conditions.length →
    (∀ c ∈ conditions, c.IsFlat) → (∀ c ∈ conditions, c.junction? ≠ some j) →
    IsFlat (.joined j conditions)

end Condition

/-- The same test with its chains grouped in another way, or with other parentheses. -/
inductive Regrouped : Node → Node → Prop where
  | refl (n : Node) : Regrouped n n
  | symm {m n : Node} : Regrouped m n → Regrouped n m
  | trans {l m n : Node} : Regrouped l m → Regrouped m n → Regrouped l n
  | parenthesized (n : Node) : Regrouped (.parenthesized n) n
  | assoc {operator : String} (l m n : Node) : operator = "&&" ∨ operator = "||" →
    Regrouped (.binary operator (.binary operator l m) n)
      (.binary operator l (.binary operator m n))
  | junction {operator : String} {l l' m m' : Node} : operator = "&&" ∨ operator = "||" →
    Regrouped l l' → Regrouped m m' → Regrouped (.binary operator l m) (.binary operator l' m')
  | not {m n : Node} : Regrouped m n → Regrouped (.unary "!" m) (.unary "!" n)

namespace Condition

theorem members_join (j : Junction) (c d : Condition) :
    (c.join j d).members j = c.members j ++ d.members j := by
  simp [join, members]

/-- However a chain is grouped, its members are joined in their order. -/
theorem join_assoc (j : Junction) (c d e : Condition) :
    (c.join j d).join j e = c.join j (d.join j e) := by
  rw [join, members_join, List.append_assoc, ← members_join]
  rfl

theorem leavesAll_append (cs ds : List Condition) :
    leavesAll (cs ++ ds) = leavesAll cs ++ leavesAll ds := by
  induction cs with
  | nil => rfl
  | cons c cs ih => simp [leavesAll, ih]

theorem leavesAll_members (j : Junction) (c : Condition) : leavesAll (c.members j) = c.leaves := by
  unfold members
  split
  · split
    · rfl
    · simp [leavesAll]
  · simp [leavesAll]

theorem leaves_join (j : Junction) (c d : Condition) :
    (c.join j d).leaves = c.leaves ++ d.leaves := by
  rw [join, leaves, leavesAll_append, leavesAll_members, leavesAll_members]

/-- A flat condition brings members to a junction, none of which is of its kind. -/
theorem IsFlat.members {c : Condition} (h : c.IsFlat) (j : Junction) :
    1 ≤ (c.members j).length ∧ (∀ d ∈ c.members j, d.IsFlat) ∧
      ∀ d ∈ c.members j, d.junction? ≠ some j := by
  have hself (hj : c.junction? ≠ some j) :
      1 ≤ [c].length ∧ (∀ d ∈ [c], d.IsFlat) ∧ ∀ d ∈ [c], d.junction? ≠ some j :=
    ⟨Nat.le_refl 1, List.forall_mem_singleton.2 h, List.forall_mem_singleton.2 hj⟩
  cases h with
  | compare k left right => exact hself (by simp [junction?])
  | truthy x => exact hself (by simp [junction?])
  | not hc => exact hself (by simp [junction?])
  | @joined k conditions hlength hflat hkind =>
    rw [Condition.members]
    split
    · rename_i hk
      subst hk
      exact ⟨by omega, hflat, hkind⟩
    · rename_i hk
      exact hself (by simpa [junction?] using hk)

theorem IsFlat.join {c d : Condition} (hc : c.IsFlat) (hd : d.IsFlat) (j : Junction) :
    (c.join j d).IsFlat := by
  obtain ⟨hclength, hcflat, hckind⟩ := hc.members j
  obtain ⟨hdlength, hdflat, hdkind⟩ := hd.members j
  refine .joined ?_ (List.forall_mem_append.2 ⟨hcflat, hdflat⟩)
    (List.forall_mem_append.2 ⟨hckind, hdkind⟩)
  rw [List.length_append]
  omega

end Condition

namespace Interpretation

variable {α : Type} (I : Interpretation α)

theorem holdsAll_append (cs ds : List Condition) :
    I.holdsAll (cs ++ ds) = (I.holdsAll cs && I.holdsAll ds) := by
  induction cs with
  | nil => simp [holdsAll]
  | cons c cs ih => simp [holdsAll, ih, Bool.and_assoc]

theorem holdsAny_append (cs ds : List Condition) :
    I.holdsAny (cs ++ ds) = (I.holdsAny cs || I.holdsAny ds) := by
  induction cs with
  | nil => simp [holdsAny]
  | cons c cs ih => simp [holdsAny, ih, Bool.or_assoc]

theorem holdsAll_members (c : Condition) : I.holdsAll (c.members .and) = I.holds c := by
  unfold Condition.members
  split
  · rename_i k conditions
    cases k <;> simp [holdsAll, holds]
  · simp [holdsAll]

theorem holdsAny_members (c : Condition) : I.holdsAny (c.members .or) = I.holds c := by
  unfold Condition.members
  split
  · rename_i k conditions
    cases k <;> simp [holdsAny, holds]
  · simp [holdsAny]

theorem holds_join_and (c d : Condition) : I.holds (c.join .and d) = (I.holds c && I.holds d) := by
  rw [Condition.join, holds, holdsAll_append, holdsAll_members, holdsAll_members]

theorem holds_join_or (c d : Condition) : I.holds (c.join .or d) = (I.holds c || I.holds d) := by
  rw [Condition.join, holds, holdsAny_append, holdsAny_members, holdsAny_members]

theorem operator?_eq (operator : String) :
    I.operator? operator = (Comparison.ofOperator? operator).map I.comparison := by
  unfold operator? Comparison.ofOperator?
  split <;> simp_all [comparison]

theorem method?_eq (method : String) :
    I.method? method = (Comparison.ofMethod? method).map I.comparison := by
  unfold method? Comparison.ofMethod?
  split <;> simp_all [comparison]

theorem value_of_operand {t : TestContext} {n : Node} {x : Operand} (h : t.operand n = .ok x) :
    I.value t n = I.operand x := by
  rw [value, h]

end Interpretation

/-- What is read with two steps is read with each of them. -/
theorem Reading.of_bind_ok {α β : Type} {x : Reading α} {f : α → Reading β} {b : β}
    (h : x >>= f = .ok b) : ∃ a, x = .ok a ∧ f a = .ok b := by
  cases x with
  | error r => cases h
  | ok a => exact ⟨a, rfl, h⟩

theorem Junction.ofOperator?_eq_none_iff {operator : String} :
    ofOperator? operator = none ↔ ¬(operator = "&&" ∨ operator = "||") := by
  unfold ofOperator?
  split <;> simp_all

theorem Comparison.not_junction {operator : String} {k : Comparison}
    (h : ofOperator? operator = some k) : ¬(operator = "&&" ∨ operator = "||") := by
  rintro (rfl | rfl) <;> cases h

namespace TestContext

variable {t : TestContext}

/-- A condition that means what its test means and is built like it. -/
structure Keeps (t : TestContext) (n : Node) (c : Condition) : Prop where
  holds {α : Type} (I : Interpretation α) : I.holds c = I.test t n
  leaves : List.Forall₂ (fun m d => t.condition m = .ok d) n.testLeaves c.leaves
  flat : c.IsFlat

theorem exists_of_compare {k : Comparison} {left right : Node} {c : Condition}
    (h : t.compare k left right = .ok c) :
    ∃ x y, t.operand left = .ok x ∧ t.operand right = .ok y ∧ c = .compare k x y := by
  obtain ⟨x, hx, h⟩ := Reading.of_bind_ok h
  obtain ⟨y, hy, h⟩ := Reading.of_bind_ok h
  cases h
  exact ⟨x, y, hx, hy, rfl⟩

theorem exists_of_truthy {n : Node} {c : Condition} (h : t.truthy n = .ok c) :
    ∃ x, t.operand n = .ok x ∧ c = .truthy x := by
  obtain ⟨x, hx, h⟩ := Reading.of_bind_ok h
  cases h
  exact ⟨x, hx, rfl⟩

/-- A comparison is one leaf. -/
theorem keeps_compare {n left right : Node} {k : Comparison} {c : Condition}
    (heq : t.condition n = t.compare k left right) (hn : n.testLeaves = [n])
    (htest : ∀ {α : Type} (I : Interpretation α),
      I.test t n = I.comparison k (I.value t left) (I.value t right))
    (h : t.compare k left right = .ok c) : t.Keeps n c := by
  have hself : t.condition n = .ok c := heq.trans h
  obtain ⟨x, y, hx, hy, rfl⟩ := exists_of_compare h
  refine ⟨fun I => ?_, ?_, .compare k x y⟩
  · rw [htest, I.value_of_operand hx, I.value_of_operand hy]
    rfl
  · rw [hn, Condition.leaves]
    exact .cons hself .nil

/-- So is an operand. -/
theorem keeps_truthy {n : Node} {c : Condition} (heq : t.condition n = t.truthy n)
    (hn : n.testLeaves = [n])
    (htest : ∀ {α : Type} (I : Interpretation α), I.test t n = I.truthy (I.value t n))
    (h : t.truthy n = .ok c) : t.Keeps n c := by
  have hself : t.condition n = .ok c := heq.trans h
  obtain ⟨x, hx, rfl⟩ := exists_of_truthy h
  refine ⟨fun I => ?_, ?_, .truthy x⟩
  · rw [htest, I.value_of_operand hx]
    rfl
  · rw [hn, Condition.leaves]
    exact .cons hself .nil

theorem testLeaves_binary {operator : String} (left right : Node)
    (h : ¬(operator = "&&" ∨ operator = "||")) :
    (Node.binary operator left right).testLeaves = [.binary operator left right] := by
  rw [Node.testLeaves, if_neg h]

theorem test_binary {α : Type} (I : Interpretation α) {operator : String} (left right : Node)
    (h : ¬(operator = "&&" ∨ operator = "||")) :
    I.test t (.binary operator left right) = I.leaf t (.binary operator left right) := by
  obtain ⟨hand, hor⟩ := not_or.1 h
  rw [Interpretation.test, if_neg hand, if_neg hor]

section

attribute [local simp] condition

theorem keeps_binary_compare {operator : String} {left right : Node} {k : Comparison}
    {c : Condition} (hk : Comparison.ofOperator? operator = some k)
    (h : t.compare k left right = .ok c) :
    t.Keeps (.binary operator left right) c := by
  have hop := Comparison.not_junction hk
  refine keeps_compare ?_ (testLeaves_binary left right hop) (fun I => ?_) h
  · simp [hk]
  · rw [test_binary I left right hop, Interpretation.leaf, I.operator?_eq, hk]
    rfl

end

theorem keeps_binary_truthy {operator : String} {left right : Node} {c : Condition}
    (hk : Comparison.ofOperator? operator = none) (hj : Junction.ofOperator? operator = none)
    (h : t.truthy (.binary operator left right) = .ok c) :
    t.Keeps (.binary operator left right) c := by
  have hop := Junction.ofOperator?_eq_none_iff.1 hj
  refine keeps_truthy ?_ (testLeaves_binary left right hop) (fun I => ?_) h
  · rw [condition, hk, hj]
  · rw [test_binary I left right hop, Interpretation.leaf, I.operator?_eq, hk]
    rfl

theorem eq_of_onlyArgument? {arguments : List Node} {a : Node}
    (h : onlyArgument? arguments = some a) :
    arguments = [a] := by
  unfold onlyArgument? at h
  split at h
  · split at h
    · cases h
    · cases h
      rfl
  · cases h

theorem keeps_membership {callee receiver a : Node} {arguments : List Node} {line : Nat}
    {k : Comparison} {method : String} {c : Condition}
    (hm : membership? callee = some (k, method, receiver)) (ha : onlyArgument? arguments = some a)
    (h : t.compare k receiver a = .ok c) : t.Keeps (.call callee arguments line) c := by
  have heq : t.condition (.call callee arguments line) = t.compare k receiver a := by
    simp only [condition, hm, ha]
  obtain rfl := eq_of_onlyArgument? ha
  refine keeps_compare heq rfl (fun I => ?_) h
  unfold membership? at hm
  split at hm
  · rename_i other name hmethod
    obtain ⟨l, hl, hm⟩ := Option.map_eq_some_iff.1 hm
    cases hm
    simp only [Interpretation.test, Interpretation.leaf, hmethod, I.method?_eq, hl, Option.map_some]
  · cases hm

theorem keeps_call_truthy {callee : Node} {arguments : List Node} {line : Nat} {c : Condition}
    (hm : membership? callee = none) (h : t.truthy (.call callee arguments line) = .ok c) :
    t.Keeps (.call callee arguments line) c := by
  refine keeps_truthy ?_ rfl (fun I => ?_) h
  · simp only [condition, hm]
  · change I.leaf t (.call callee arguments line) = _
    unfold Interpretation.leaf
    split
    · rename_i heq
      cases heq
    · rename_i heq
      cases heq
      split
      · rename_i receiver method hmethod
        have hnone : Comparison.ofMethod? method = none := by simpa [membership?, hmethod] using hm
        rw [I.method?_eq, hnone]
        rfl
      · rfl
    · rfl

theorem Keeps.join {left right : Node} {c d : Condition} {operator : String} {j : Junction}
    (hc : t.Keeps left c) (hd : t.Keeps right d) (hj : Junction.ofOperator? operator = some j) :
    t.Keeps (.binary operator left right) (c.join j d) := by
  have hleaves : List.Forall₂ (fun m e => t.condition m = .ok e)
      (left.testLeaves ++ right.testLeaves) (c.join j d).leaves := by
    rw [Condition.leaves_join]
    exact List.rel_append hc.leaves hd.leaves
  have hflat := hc.flat.join hd.flat j
  unfold Junction.ofOperator? at hj
  split at hj
  · cases hj
    exact ⟨fun I => by simp [Interpretation.test, I.holds_join_and, hc.holds I, hd.holds I],
      by simpa [Node.testLeaves] using hleaves, hflat⟩
  · cases hj
    exact ⟨fun I => by simp [Interpretation.test, I.holds_join_or, hc.holds I, hd.holds I],
      by simpa [Node.testLeaves] using hleaves, hflat⟩
  · cases hj

theorem Keeps.not {n : Node} {c : Condition} (h : t.Keeps n c) :
    t.Keeps (.unary "!" n) (.not c) where
  holds I := by simp [Interpretation.holds, Interpretation.test, h.holds I]
  leaves := by simpa [Node.testLeaves, Condition.leaves] using h.leaves
  flat := .not h.flat

/-- What a test is read as means what the test means and is built like it. -/
theorem keeps_of_condition {n : Node} {c : Condition} (h : t.condition n = .ok c) :
    t.Keeps n c := by
  induction n using condition.induct generalizing c with
  | case1 e ih =>
    rw [condition] at h
    exact ⟨(ih h).holds, (ih h).leaves, (ih h).flat⟩
  | case2 e ih =>
    rw [condition] at h
    exact ⟨(ih h).holds, (ih h).leaves, (ih h).flat⟩
  | case3 e ih =>
    rw [condition] at h
    exact ⟨(ih h).holds, (ih h).leaves, (ih h).flat⟩
  | case4 operator left right k hk =>
    rw [condition, hk] at h
    exact keeps_binary_compare hk h
  | case5 operator left right j hj hk ihl ihr =>
    rw [condition, hk, hj] at h
    obtain ⟨l, hl, h⟩ := Reading.of_bind_ok h
    obtain ⟨r, hr, h⟩ := Reading.of_bind_ok h
    cases h
    exact (ihl hl).join (ihr hr) hj
  | case6 operator left right hj hk =>
    rw [condition, hk, hj] at h
    exact keeps_binary_truthy hk hj h
  | case7 argument ih =>
    rw [condition, if_pos rfl] at h
    obtain ⟨c, hc, h⟩ := Reading.of_bind_ok h
    cases h
    exact (ih hc).not
  | case8 operator argument hop =>
    rw [condition, if_neg hop] at h
    refine keeps_truthy ?_ ?_ (fun I => ?_) h
    · rw [condition, if_neg hop]
    · rw [Node.testLeaves, if_neg hop]
    · rw [Interpretation.test, if_neg hop, Interpretation.leaf] <;> simp
  | case9 callee arguments line k method receiver hm a ha =>
    simp only [condition, hm, ha] at h
    exact keeps_membership hm ha h
  | case10 callee arguments line k method receiver hm ha =>
    simp only [condition, hm, ha] at h
    cases h
  | case11 callee arguments line hm =>
    simp only [condition, hm] at h
    exact keeps_call_truthy hm h
  | case12 n h1 h2 h3 h4 h5 h6 =>
    have hcondition : t.condition n = t.truthy n := by rw [condition] <;> assumption
    refine keeps_truthy hcondition ?_ (fun I => ?_) (hcondition.symm.trans h)
    · rw [Node.testLeaves] <;> assumption
    · have htest : I.test t n = I.leaf t n := by rw [Interpretation.test] <;> assumption
      rw [htest, Interpretation.leaf]
      · exact h4
      · exact fun callee a line hn => h6 callee [a] line hn

theorem condition_binary {operator : String} {j : Junction} (left right : Node)
    (hj : Junction.ofOperator? operator = some j) :
    t.condition (.binary operator left right) = (do
      let left ← t.condition left
      let right ← t.condition right
      return left.join j right) := by
  have hk : Comparison.ofOperator? operator = none := by
    cases hk : Comparison.ofOperator? operator with
    | none => rfl
    | some k =>
      rw [Junction.ofOperator?_eq_none_iff.2 (Comparison.not_junction hk)] at hj
      cases hj
  rw [condition, hk, hj]

theorem exists_junction {operator : String} (h : operator = "&&" ∨ operator = "||") :
    ∃ j, Junction.ofOperator? operator = some j := by
  rcases h with rfl | rfl
  · exact ⟨.and, rfl⟩
  · exact ⟨.or, rfl⟩

/-- Tests that differ in the grouping of their chains are read as the same, or refused for the same
reason. -/
theorem condition_of_regrouped {m n : Node} (h : Regrouped m n) :
    t.condition m = t.condition n := by
  induction h with
  | refl n => rfl
  | symm _ ih => exact ih.symm
  | trans _ _ ihl ihr => exact ihl.trans ihr
  | parenthesized n => rw [condition]
  | assoc l m n hop =>
    obtain ⟨j, hj⟩ := exists_junction hop
    simp only [condition_binary _ _ hj, bind_assoc, pure_bind, Condition.join_assoc]
  | junction hop _ _ ihl ihr =>
    obtain ⟨j, hj⟩ := exists_junction hop
    rw [condition_binary _ _ hj, condition_binary _ _ hj, ihl, ihr]
  | not _ ih => simp only [condition, if_true, ih]

/-- A condition that is read off a test holds where the `&&`, `||` and `!` of the test say so,
whatever its operands and their predicates mean. Its leaves are those of the test in their order,
each of its junctions has two members or more, of which none is a junction of the same kind, and any
other grouping of the test is read as the same condition. -/
theorem holds_of_condition {n : Node} {c : Condition} (h : t.condition n = .ok c) :
    (∀ (α : Type) (I : Interpretation α), I.holds c = I.test t n) ∧
      List.Forall₂ (fun m d => t.condition m = .ok d) n.testLeaves c.leaves ∧ c.IsFlat ∧
      ∀ m, Regrouped n m → t.condition m = .ok c := by
  have hkeeps := keeps_of_condition h
  refine ⟨fun α I => hkeeps.holds I, hkeeps.leaves, hkeeps.flat, fun m hm => ?_⟩
  rw [← condition_of_regrouped hm]
  exact h

/-- A chain in parentheses is read as one without. -/
theorem holds_of_condition_chain :
    let t : TestContext := { props := ["a", "b"], store? := fun _ => none }
    let a : Node := .identifier "a"
    let b : Node := .unary "!" (.identifier "b")
    let one : Node := .binary "===" a (.number (.int 1))
    let read (name : String) : Operand := .value (.propRef name)
    let c : Condition := .joined .and [.truthy (read "a"), .not (.truthy (read "b")),
      .compare .equals (read "a") (.value (.int 1))]
    (∀ (α : Type) (I : Interpretation α),
      I.holds c = I.test t (.binary "&&" a (.parenthesized (.binary "&&" b one)))) ∧
      c.IsFlat ∧ t.condition (.binary "&&" (.binary "&&" a b) one) = .ok c := by
  intro t a b one read c
  have hread : t.condition (.binary "&&" a (.parenthesized (.binary "&&" b one))) = .ok c := by rfl
  obtain ⟨hholds, -, hflat, hgroups⟩ := holds_of_condition hread
  refine ⟨hholds, hflat, hgroups _ ?_⟩
  have hinner : Regrouped (.binary "&&" a (.parenthesized (.binary "&&" b one)))
      (.binary "&&" a (.binary "&&" b one)) :=
    .junction (.inl rfl) (.refl a) (.parenthesized _)
  exact hinner.trans (.symm (.assoc a b one (.inl rfl)))

end TestContext

end Scenario

import Scenario.Proofs.Acceptance
import Scenario.Proofs.Runtime

namespace Scenario

open Syntax Analysis

/-- A function, or the statements of one. -/
def Syntax.Node.isCode : Node → Bool
  | .arrow .. | .function .. | .functionDeclaration .. | .block _ => true
  | _ => false

/-- No call that is an action and no function occurs under a node. -/
inductive Inert : Scope → Node → Prop where
  | mk {s : Scope} {n : Node} : s.isActionCall n = false → n.isCode = false →
    (∀ c ∈ n.fields, Inert (s.within n) c) → Inert s n

theorem mentionsAny_eq_false {s : Scope} {ns : List Node} :
    mentionsAny s ns = false ↔ ∀ n ∈ ns, mentions s n = false := by
  induction ns with
  | nil => simp [mentionsAny]
  | cons n more ih => simp [mentionsAny, ih]

theorem mentions_absent (s : Scope) : mentions s .absent = false := by
  rw [mentions]
  simp [Scope.isActionCall, Node.children, Node.fields, mentionsAny]

/-- Where nothing is mentioned, nothing is mentioned in the parts. -/
theorem mentions_of_mem_fields {s : Scope} {n c : Node} (h : mentions s n = false)
    (hc : c ∈ n.fields) : mentions (s.within n) c = false := by
  rw [mentions, Bool.or_eq_false_iff] at h
  cases ha : c.isAbsent with
  | true =>
    obtain rfl : c = .absent := by cases c <;> simp_all [Node.isAbsent]
    exact mentions_absent _
  | false => exact mentionsAny_eq_false.1 h.2 c (List.mem_filter.2 ⟨hc, by simp [ha]⟩)

theorem isActionCall_of_mentions {s : Scope} {n : Node} (h : mentions s n = false) :
    s.isActionCall n = false := by
  rw [mentions, Bool.or_eq_false_iff] at h
  exact h.1

namespace Inert

variable {s : Scope} {n : Node}

theorem of_mem_fields (h : Inert s n) {c : Node} (hc : c ∈ n.fields) : Inert (s.within n) c := by
  obtain ⟨-, -, hall⟩ := h
  exact hall c hc

theorem mentions_eq_false (h : Inert s n) : mentions s n = false := by
  induction h with
  | mk ha _ _ ih =>
    rw [mentions, Bool.or_eq_false_iff]
    exact ⟨ha, mentionsAny_eq_false.2 fun c hc => ih c (List.mem_filter.1 hc).1⟩

theorem unwrap (h : Inert s n) : Inert s n.unwrap := by
  fun_induction Node.unwrap n with
  | case1 e ih => exact ih (h.of_mem_fields (c := e) (by simp [Node.fields]))
  | case2 e ih => exact ih (h.of_mem_fields (c := e) (by simp [Node.fields]))
  | case3 e ih => exact ih (h.of_mem_fields (c := e) (by simp [Node.fields]))
  | case4 => exact h

theorem handler?_eq_none (h : Inert s n) : handler? n = none := by
  unfold handler?
  split
  · rename_i name value
    have hv : Inert s value.unwrap := (h.of_mem_fields (c := value) (by simp [Node.fields])).unwrap
    split
    · split <;> rename_i hu <;> try rfl
      all_goals
        rw [hu] at hv
        obtain ⟨-, hcode, -⟩ := hv
        simp [Node.isCode] at hcode
    · rfl
  · rfl

theorem firstNestedFunction?_eq_none {ns : List Node}
    (h : ∀ n ∈ ns, nestedFunction? s n = none) : firstNestedFunction? s ns = none := by
  induction ns with
  | nil => rw [firstNestedFunction?]
  | cons n more ih =>
    rw [firstNestedFunction?, h n List.mem_cons_self]
    exact ih fun m hm => h m (List.mem_cons_of_mem n hm)

theorem nestedFunction?_eq_none (h : Inert s n) : nestedFunction? s n = none := by
  induction h with
  | mk ha hcode _ ih =>
    unfold nestedFunction?
    rw [if_neg (by simp [ha])]
    split
    · simp [Node.isCode] at hcode
    · simp [Node.isCode] at hcode
    · exact firstNestedFunction?_eq_none fun c hc => ih c (List.mem_filter.1 hc).1

theorem walkAll_eq_nil {ns : List Node} (h : ∀ n ∈ ns, walk s n = pure []) :
    walkAll s ns = pure [] := by
  induction ns with
  | nil => rw [walkAll]
  | cons n more ih =>
    rw [walkAll, h n List.mem_cons_self, ih fun m hm => h m (List.mem_cons_of_mem n hm)]
    rfl

theorem walkAttributes_eq_nil {ns : List Node} (h : ∀ n ∈ ns, Inert s n)
    (hw : ∀ n ∈ ns, walk s n = pure []) : walkAttributes s ns = pure [] := by
  induction ns with
  | nil => rw [walkAttributes]
  | cons n more ih =>
    have hn := (h n List.mem_cons_self).handler?_eq_none
    rw [walkAttributes, walkAttribute_of_none hn, hw n List.mem_cons_self,
      ih (fun m hm => h m (List.mem_cons_of_mem n hm))
        fun m hm => hw m (List.mem_cons_of_mem n hm)]
    rfl

end Inert

/-- A call that means nothing declares no store. -/
theorem Scope.within_of_classify_eq_none {s : Scope} {callee : Node} {arguments : List Node}
    {line : Nat} (h : s.classify callee = none) : s.within (.call callee arguments line) = s := by
  unfold Scope.classify at h
  split at h
  · cases h
  · rename_i hfactory
    simp [Scope.within, hfactory]

namespace Inert

variable {s : Scope} {n : Node}

/-- The walk through an expression without actions finds none. -/
theorem walk_eq_nil (h : Inert s n) : walk s n = pure [] := by
  induction h with
  | @mk s n ha hcode hall ih =>
    have hn : Inert s n := .mk ha hcode hall
    have hchildren : walkAll (s.within n) n.children = pure [] :=
      walkAll_eq_nil fun c hc => ih c (List.mem_filter.1 hc).1
    unfold walk
    split
    · simp [Node.isCode] at hcode
    · simp [Node.isCode] at hcode
    · simp [Node.isCode] at hcode
    · simp [Node.isCode] at hcode
    · rename_i attributes children _
      have hattributes : walkAttributes s attributes = pure [] :=
        walkAttributes_eq_nil (fun c hc => hn.of_mem_fields (by simp [Node.fields, hc]))
          fun c hc => ih c (by simp [Node.fields, hc])
      have hrest : walkAll s children = pure [] :=
        walkAll_eq_nil fun c hc => ih c (by simp [Node.fields, hc])
      rw [hattributes, hrest]
      rfl
    · rename_i callee arguments line
      split
      · rename_i call hc
        have hno : call.isAction = false := by simpa [Scope.isActionCall, hc] using ha
        rw [callActions_of_isAction_eq_false hno]
        rfl
      · rename_i hc
        rwa [Scope.within_of_classify_eq_none hc] at hchildren
    · rename_i hcall
      have hs : s.within n = s := by
        cases n <;> first | rfl | exact (hcall _ _ _ rfl).elim
      rwa [hs] at hchildren

theorem plainActions_eq_nil (h : Inert s n) : plainActions s n = pure [] := by
  rw [plainActions, h.nestedFunction?_eq_none, h.walk_eq_nil]
  rfl

/-- An expression without actions gives none, whatever tests are in it. -/
theorem expression_eq_nil (h : Inert s n) : expression s n = pure [] := by
  induction h with
  | @mk s n ha hcode hall ih =>
    have hn : Inert s n := .mk ha hcode hall
    unfold expression
    split
    · exact ih _ (by simp [Node.fields])
    · exact ih _ (by simp [Node.fields])
    · exact ih _ (by simp [Node.fields])
    · exact ih _ (by simp [Node.fields])
    · rename_i operator left right
      split
      · rw [show expression s right = pure [] from ih right (by simp [Node.fields])]
        rfl
      · exact hn.plainActions_eq_nil
    · rename_i test consequent alternate line
      split
      · exact hn.plainActions_eq_nil
      · rw [show expression s consequent = pure [] from ih consequent (by simp [Node.fields]),
          show expression s alternate = pure [] from ih alternate (by simp [Node.fields])]
        rfl
    · exact hn.plainActions_eq_nil

end Inert

theorem Call.action?_of_isAction_eq_false {s : Scope} {call : Call} (h : call.isAction = false)
    (arguments : List Node) (line : Nat) : call.action? s arguments line = none := by
  cases call with
  | declaration => rfl
  | read store => rfl
  | mutation store method => simp [Call.isAction] at h
  | effect space method => simp [Call.isAction] at h

/-- Where no action is mentioned, none is done. -/
theorem Runtime.eval_of_mentions_eq_false {σ : Type} (r : Runtime σ) {s : Scope} {n : Node}
    (h : mentions s n = false) (x : σ) : r.eval s n x = x := by
  fun_induction Runtime.eval r s n x with
  | case1 e _ ih => exact ih (mentions_of_mem_fields h (c := e) (by simp [Node.fields]))
  | case2 e _ ih => exact ih (mentions_of_mem_fields h (c := e) (by simp [Node.fields]))
  | case3 e _ ih => exact ih (mentions_of_mem_fields h (c := e) (by simp [Node.fields]))
  | case4 e _ ih => exact ih (mentions_of_mem_fields h (c := e) (by simp [Node.fields]))
  | case5 left right _ _ ih =>
    exact ih (mentions_of_mem_fields h (c := right) (by simp [Node.fields]))
  | case8 left right _ _ _ ih =>
    exact ih (mentions_of_mem_fields h (c := right) (by simp [Node.fields]))
  | case10 test consequent alternate _ _ _ ih =>
    exact ih (mentions_of_mem_fields h (c := consequent) (by simp [Node.fields]))
  | case11 test consequent alternate _ _ _ ih =>
    exact ih (mentions_of_mem_fields h (c := alternate) (by simp [Node.fields]))
  | case12 callee arguments line _ a ha =>
    have hno := isActionCall_of_mentions h
    obtain ⟨call, hc, ha⟩ := Option.bind_eq_some_iff.1 ha
    have hcall : call.isAction = false := by simpa [Scope.isActionCall, hc] using hno
    rw [Call.action?_of_isAction_eq_false hcall] at ha
    cases ha
  | _ => rfl

end Scenario

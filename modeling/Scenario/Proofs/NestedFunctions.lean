import Scenario.Proofs.Lexical

namespace Scenario

open Syntax Analysis

namespace Scope

/-- The scope is the other one but for names that it hides. -/
structure Hides (s t : Scope) : Prop where
  declares : s.declares = t.declares
  meaning : ∀ name, s.meaning name = t.meaning name ∨ s.meaning name = some none

theorem meaning_bind (s : Scope) (name other : String) (store : Option Store) :
    (s.bind name store).meaning other = if other == name then some store else s.meaning other := by
  unfold meaning bind
  rw [List.lookup_cons]
  cases other == name <;> rfl

theorem meaning_bindAll (names : List String) (s : Scope) (name : String) :
    (s.bindAll names).meaning name = s.meaning name ∨ (s.bindAll names).meaning name = some none := by
  induction names generalizing s with
  | nil => exact .inl rfl
  | cons other names ih =>
    obtain h | h := ih (s.bind other none)
    · change (s.bindAll (other :: names)).meaning name = _ at h
      rw [h, meaning_bind]
      split
      · exact .inr rfl
      · exact .inl rfl
    · exact .inr h

theorem hides_function (s : Scope) (params : List Node) : (s.function params).Hides s where
  declares := declares_function s params
  meaning := meaning_bindAll _ _

theorem Hides.within {s t : Scope} (h : s.Hides t) (n : Node) : (s.within n).Hides (t.within n) where
  declares := declares_within h.declares n
  meaning := by
    have hmeaning (s : Scope) : (s.within n).meaning = s.meaning := by
      unfold Scope.within
      split
      · split <;> rfl
      · rfl
    rw [hmeaning, hmeaning]
    exact h.meaning

/-- A call on a hidden name means nothing, unless it declares a store. -/
theorem classify_of_hidden {s : Scope} {callee : Node} {arguments : List Node} {line : Nat}
    {name : String} (hn : (Node.call callee arguments line).subject? = some name)
    (h : s.meaning name = some none) (hf : Callee.isStoreFactory callee = false) :
    s.classify callee = none := by
  have hbound : s.isBound name = true := by rw [isBound_eq, h]; rfl
  have hresolve : s.resolve name = none := congrArg Option.join h
  unfold Node.subject? at hn
  unfold classify
  rw [if_neg (by simp [hf])]
  dsimp only at hn
  split at hn
  · rename_i hi
    cases hn
    simp [hi, hbound]
  · rename_i hi hm
    cases hn
    simp [hi, hm, classifyMethod, store?, Node.unwrap, hresolve, hbound]
  · cases hn

theorem isActionCall_of_hidden {s : Scope} {n : Node} {name : String} (hn : n.subject? = some name)
    (h : s.meaning name = some none) : s.isActionCall n = false := by
  cases n with
  | call callee arguments line =>
    cases hf : Callee.isStoreFactory callee with
    | true => simp [isActionCall, classify, hf, Call.isAction]
    | false => simp [isActionCall, classify_of_hidden hn h hf]
  | _ => cases hn

theorem Hides.isActionCall {s t : Scope} (h : s.Hides t) {n : Node} (hn : s.isActionCall n = true) :
    t.isActionCall n = true := by
  rw [← hn]
  refine (isActionCall_congr h.declares fun name hname => ?_).symm
  obtain heq | hnone := h.meaning name
  · exact heq
  · rw [isActionCall_of_hidden hname hnone] at hn
    cases hn

end Scope

theorem mentions_of_hides {s t : Scope} (h : s.Hides t) (n : Node) (hn : mentions s n = true) :
    mentions t n = true := by
  rw [mentions_iff_children] at hn ⊢
  rcases hn with ha | ⟨m, hm, hn⟩
  · exact .inl (h.isActionCall ha)
  · exact .inr ⟨m, hm, mentions_of_hides (h.within n) m hn⟩
termination_by sizeOf n
decreasing_by exact Node.sizeOf_lt_of_mem_children hm

/-- The parameters of a function hide names and bring in none, so what is found in the function is
found around it. -/
theorem mentions_of_nests (s : Scope) (n : Node) (h : nests s n = true) : mentions s n = true := by
  rw [mentions_iff_children, Spot.exists_mem_children mentions_absent]
  cases hf : n.isFunctionExpression with
  | false =>
    obtain ⟨-, m, hm, hn⟩ := (nests_iff_children hf).1 h
    exact .inr ⟨m, (List.mem_filter.1 hm).1, mentions_of_nests _ m hn⟩
  | true =>
    unfold Node.isFunctionExpression at hf
    split at hf
    · rename_i params body line
      rw [nests_arrow] at h
      exact .inr ⟨body, by simp [Node.fields], mentions_of_hides (s.hides_function params) body h⟩
    · rename_i name params body line
      rw [nests_function] at h
      exact .inr ⟨body, by simp [Node.fields], mentions_of_hides (s.hides_function params) body h⟩
    · cases hf
termination_by sizeOf n
decreasing_by exact Node.sizeOf_lt_of_mem_children hm

/-- Where a node is no function and no call, a nested function is one of its parts. -/
theorem nests_iff_fields {s : Scope} {n : Node} (hf : n.isFunctionExpression = false)
    (ha : s.isActionCall n = false) (hw : s.within n = s) :
    nests s n = true ↔ ∃ m ∈ n.fields, nests s m = true := by
  rw [nests_iff_children hf, hw, Spot.exists_mem_children nests_absent]
  simp [ha]

theorem nests_eq_false_of_mentions {s : Scope} {n : Node} (h : mentions s n = false) :
    nests s n = false := by
  rw [← Bool.not_eq_true]
  intro hn
  rw [mentions_of_nests s n hn] at h
  cases h

theorem nests_binary {s : Scope} {operator : String} {left right : Node}
    (hl : mentions s left = false) :
    nests s (.binary operator left right) = nests s right := by
  have hleft := nests_eq_false_of_mentions hl
  rw [Bool.eq_iff_iff, nests_iff_fields rfl rfl rfl]
  simp [Node.fields, hleft]

theorem nests_ternary {s : Scope} {test consequent alternate : Node} {line : Nat}
    (ht : mentions s test = false) :
    nests s (.unsupported "ternary_expression" [test, consequent, alternate] line) =
      (nests s consequent || nests s alternate) := by
  have htest := nests_eq_false_of_mentions ht
  rw [Bool.eq_iff_iff, nests_iff_fields rfl rfl rfl]
  simp [Node.fields, htest]

theorem nests_wrapped {s : Scope} {n e : Node} (hf : n.isFunctionExpression = false)
    (ha : s.isActionCall n = false) (hw : s.within n = s) (he : n.fields = [e]) :
    nests s n = nests s e := by
  rw [Bool.eq_iff_iff, nests_iff_fields hf ha hw, he]
  simp

/-- An expression with a function in it that has actions is refused. -/
theorem refused_of_nests {s : Scope} {n : Node} (h : nests s n = true) (p : Progress) :
    ∃ r q, (expression s n).outcome p = (.error r, q) := by
  have hplain (h : nests s n = true) : ∃ r q, (plainActions s n).outcome p = (.error r, q) := by
    obtain ⟨line, hline⟩ := Option.isSome_iff_exists.1 h
    rw [plainActions, hline]
    exact ⟨_, _, rfl⟩
  unfold expression
  split
  · rw [nests_wrapped rfl rfl rfl rfl] at h
    exact refused_of_nests h p
  · rw [nests_wrapped rfl rfl rfl rfl] at h
    exact refused_of_nests h p
  · rw [nests_wrapped rfl rfl rfl rfl] at h
    exact refused_of_nests h p
  · rw [nests_wrapped rfl rfl rfl rfl] at h
    exact refused_of_nests h p
  · rename_i operator left right
    split
    · rename_i hop
      rw [nests_binary (by simpa using hop.2)] at h
      obtain ⟨r, q, ho⟩ := refused_of_nests h p
      exact ⟨r, q, by rw [outcome_bind, ho]⟩
    · exact hplain h
  · rename_i test consequent alternate line
    split
    · exact hplain h
    · rename_i hm
      rw [nests_ternary (by simpa using hm), Bool.or_eq_true] at h
      rw [outcome_bind]
      -- The first branch may be refused for a reason of its own before the second is looked at.
      rcases hc : (expression s consequent).outcome p with ⟨r | as, t⟩
      · exact ⟨r, t, rfl⟩
      · rcases h with h | h
        · obtain ⟨r, q, ho⟩ := refused_of_nests h p
          rw [hc] at ho
          cases ho
        · obtain ⟨r, q, ho⟩ := refused_of_nests h t
          refine ⟨r, q, ?_⟩
          dsimp only
          rw [outcome_bind, ho]
  · exact hplain h
termination_by sizeOf n

variable {α β : Type}

/-- The reading is not refused for a nested function. -/
def Reading.Spares (x : Reading α) : Prop :=
  ∀ r, x = .error r → r.cause ≠ .actionsInNestedFunction

theorem Reading.Spares.bind {x : Reading α} {f : α → Reading β} (hx : Reading.Spares x)
    (hf : ∀ a, Reading.Spares (f a)) : Reading.Spares (x >>= f) := by
  intro r h
  cases x with
  | error e => exact hx r (by cases h; rfl)
  | ok a => exact hf a r h

theorem Reading.spares_ok (a : α) : Reading.Spares (.ok a : Reading α) := by
  intro r h
  cases h

theorem Reading.spares_error {r : Refused} (h : r.cause ≠ .actionsInNestedFunction) :
    Reading.Spares (.error r : Reading α) := by
  rintro r' ⟨⟩
  exact h

namespace TestContext

variable (t : TestContext)

theorem spares_read (s : Store) (arguments : List Node) (line : Nat) :
    Reading.Spares (read s arguments line) := by
  unfold read
  split
  · exact Reading.spares_error (by simp)
  · split
    · exact Reading.spares_ok _
    · exact Reading.spares_error (by simp)

theorem spares_operand (n : Node) : Reading.Spares (t.operand n) := by
  unfold operand
  split
  · exact spares_read _ _ _
  · split
    · exact Reading.spares_ok _
    · exact Reading.spares_error (by simp)

theorem spares_truthy (n : Node) : Reading.Spares (t.truthy n) :=
  (t.spares_operand n).bind fun _ => Reading.spares_ok _

theorem spares_compare (c : Comparison) (left right : Node) :
    Reading.Spares (t.compare c left right) :=
  (t.spares_operand left).bind fun _ => (t.spares_operand right).bind fun _ => Reading.spares_ok _

theorem spares_condition (n : Node) : Reading.Spares (t.condition n) := by
  fun_induction condition t n with
  | case1 e ih => exact ih
  | case2 e ih => exact ih
  | case3 e ih => exact ih
  | case4 operator left right c => exact t.spares_compare c left right
  | case5 operator left right j hj hc ihl ihr =>
    exact ihl.bind fun _ => ihr.bind fun _ => Reading.spares_ok _
  | case6 operator left right => exact t.spares_truthy _
  | case7 argument ih => exact ih.bind fun _ => Reading.spares_ok _
  | case8 operator argument => exact t.spares_truthy _
  | case9 callee arguments line c method receiver hm a => exact t.spares_compare c receiver a
  | case10 callee arguments line c method receiver => exact Reading.spares_error (by simp)
  | case11 callee arguments line => exact t.spares_truthy _
  | case12 n => exact t.spares_truthy n

end TestContext

/-- The analysis is not refused for a nested function. -/
def Analysis.Spares (m : Analysis α) : Prop :=
  ∀ p r q, m.outcome p = (.error r, q) → r.cause ≠ .actionsInNestedFunction

theorem Analysis.Spares.bind {m : Analysis α} {f : α → Analysis β} (hm : m.Spares)
    (hf : ∀ a, (f a).Spares) : (m >>= f).Spares := by
  intro p r q h
  rw [outcome_bind] at h
  rcases ho : m.outcome p with ⟨e | a, t⟩ <;> rw [ho] at h
  · cases h
    exact hm p r q ho
  · exact hf a t r q h

theorem Analysis.spares_pure (a : α) : (pure a : Analysis α).Spares := by
  intro p r q h
  cases h

theorem spares_conditionalAct (s : Scope) (test : Node) (as bs : List Act) :
    (conditionalAct s test as bs).Spares := by
  intro p r q h
  rw [outcome_conditionalAct] at h
  cases hc : s.tests.condition test with
  | ok c => simp [hc] at h
  | error e =>
    simp only [hc, Prod.mk.injEq, Except.error.injEq] at h
    obtain ⟨rfl, -⟩ := h
    exact s.tests.spares_condition test e hc

theorem spares_plainActions {s : Scope} {n : Node} (h : nests s n = false) :
    (plainActions s n).Spares := by
  have hnone : nestedFunction? s n = none := by simpa [nests] using h
  intro p r q ho
  rw [plainActions, hnone] at ho
  cases ho

/-- An expression without such a function is not refused for one. -/
theorem spares_expression {s : Scope} {n : Node} (h : nests s n = false) :
    (expression s n).Spares := by
  have hconditional (test : Node) (as bs : List Act) :
      (do return [← conditionalAct s test as bs] : Analysis (List Act)).Spares :=
    (spares_conditionalAct s test as bs).bind fun _ => spares_pure _
  unfold expression
  split
  · rw [nests_wrapped rfl rfl rfl rfl] at h
    exact spares_expression h
  · rw [nests_wrapped rfl rfl rfl rfl] at h
    exact spares_expression h
  · rw [nests_wrapped rfl rfl rfl rfl] at h
    exact spares_expression h
  · rw [nests_wrapped rfl rfl rfl rfl] at h
    exact spares_expression h
  · rename_i operator left right
    split
    · rename_i hop
      rw [nests_binary (by simpa using hop.2)] at h
      refine (spares_expression h).bind fun as => ?_
      split
      · exact spares_pure []
      · split
        · exact hconditional left [] as
        · exact hconditional left as []
    · exact spares_plainActions h
  · rename_i test consequent alternate line
    split
    · exact spares_plainActions h
    · rename_i hm
      rw [nests_ternary (by simpa using hm), Bool.or_eq_false_iff] at h
      refine (spares_expression h.1).bind fun as => (spares_expression h.2).bind fun bs => ?_
      split
      · exact spares_pure []
      · exact hconditional test as bs
  · exact spares_plainActions h
termination_by sizeOf n

/-- A search for a mention finds the calls that are actions in the scope that it starts with, and an
expression is refused for a nested function if the body of one has calls that are actions in the scope
of its parameters. Where the names that are called mean the same in the scopes that hold at the calls,
these are the calls that are actions there, and so the ones that a walk would come to. -/
theorem mentions_iff_acts (s : Scope) (n : Node) :
    let x : Spot := ⟨s, s, n⟩
    (mentions s n = true ↔ ∃ y ∈ x.all, y.seen = true) ∧
      (x.Nests Spot.seen → ∀ p, ∃ r q, (expression s n).outcome p = (.error r, q)) ∧
      (∀ p line q, (expression s n).outcome p = (.error ⟨.actionsInNestedFunction, line⟩, q) →
        x.Nests Spot.seen) ∧
      ((∀ y ∈ x.all, y.Unshadowed) → (mentions s n = true ↔ ∃ y ∈ x.all, y.acts = true)) ∧
      ((∀ y ∈ x.examined, y.Unshadowed) → (x.Nests Spot.seen ↔ x.Nests Spot.acts)) ∧
      ∀ t c arguments line, .call t c arguments line ∈ (Place.node s n).sites →
        ∃ y ∈ x.all, ∃ callee, y.inner = t ∧ y.node = .call callee arguments line ∧
          y.acts = true := by
  intro x
  have hx : x.Aligned := rfl
  have hmentions : mentions s n = true ↔ ∃ y ∈ x.all, y.seen = true := mentions_iff_seen x
  have hnests : nests s n = true ↔ x.Nests Spot.seen := nests_iff_seen x
  refine ⟨hmentions, fun h p => refused_of_nests (hnests.2 h) p, fun p line q h => ?_, fun h => ?_,
    fun h => ?_, fun t c arguments line h => exists_acts_of_mem_sites h⟩
  · rw [← hnests]
    by_contra hn
    exact spares_expression (by simpa using hn) p _ q h rfl
  · rw [hmentions]
    refine exists_congr fun y => and_congr_right fun hy => ?_
    rw [Spot.seen_eq_acts (hx.of_mem_all hy) (h y hy)]
  · have heq : ∀ y ∈ x.examined, y.seen = y.acts := fun y hy =>
      Spot.seen_eq_acts (hx.of_mem_examined hy) (h y hy)
    exact ⟨fun hs => hs.congr heq, fun ha => ha.congr fun y hy => (heq y hy).symm⟩

/-- A function that goes back is seen where it is nested. One that changes a store by a name of its own
is not, because only there the name means the store. -/
theorem mentions_iff_acts_alias :
    let s : Scope := { bindings := [("s", some { scope := .scenario, storage := .memory })] }
    let nested (body : Node) : Node :=
      .call (.member (.identifier "items") (.identifier "forEach") false) [.arrow [] body 2] 2
    let pop := nested (.call (.identifier "pop") [] 2)
    let change := nested (.block
      [.variableDeclaration "const" [.declarator (.identifier "t") (some (.identifier "s"))],
        .expressionStatement (.call (.member (.identifier "t") (.identifier "set") false)
          [.string "k", .boolean true] 2)])
    (∀ y ∈ (Spot.mk s s pop).examined, y.Unshadowed) ∧
      (∃ r q, (expression s pop).outcome {} = (.error r, q)) ∧
      (Spot.mk s s change).Nests Spot.acts ∧
      (∃ out q, (expression s change).outcome {} = (.ok out, q)) ∧
      ¬∀ y ∈ (Spot.mk s s change).examined, y.Unshadowed := by
  intro s nested pop change
  have hnests {body : Node} {y z : Spot}
      (hy : y ∈ ((s.function []).bodyParts body).map fun y => ⟨s.function [], y.1, y.2⟩)
      (hz : z ∈ y.all) (ha : z.acts = true) : (Spot.mk s s (nested body)).Nests Spot.acts := by
    have hpart : Spot.mk s s (.arrow [] body 2) ∈ (Spot.mk s s (nested body)).parts := by
      simp [Spot.parts, Scope.parts, nested, Node.fields, Scope.within, Callee.isStoreFactory,
        Callee.identifier?, Node.unwrap]
    exact .part rfl rfl hpart (.function rfl hy hz ha)
  have hpop : ∀ y ∈ (Spot.mk s s pop).examined, y.Unshadowed := by
    intro y hy
    simp only [Spot.examined_eq, Spot.body?, Spot.parts, Spot.all_eq, Scope.parts, Scope.bodyParts,
      pop, nested, Node.fields, List.map_cons, List.map_nil, List.flatMap_cons, List.flatMap_nil,
      List.append_nil, List.cons_append, List.nil_append, List.mem_cons, List.not_mem_nil,
      or_false] at hy
    rcases hy with rfl | rfl | rfl | rfl | rfl | rfl | rfl <;> exact fun name _ => rfl
  have hback : (Spot.mk s s pop).Nests Spot.acts :=
    hnests (List.mem_singleton_self _) (Spot.mem_all_self _) rfl
  have hchange : (Spot.mk s s change).Nests Spot.acts :=
    hnests (List.mem_cons_of_mem _ (List.mem_singleton_self _))
      (Spot.mem_all_of_mem_parts (List.mem_singleton_self _) (Spot.mem_all_self _)) rfl
  have haccepted : ∃ out q, (expression s change).outcome {} = (.ok out, q) := by
    have hforEach : s.classify (.member (.identifier "items") (.identifier "forEach") false) = none :=
      rfl
    have hset : (s.function []).classify (.member (.identifier "t") (.identifier "set") false) = none :=
      rfl
    have hnone : nestedFunction? s change = none := by
      simp [change, nested, nestedFunction?, firstNestedFunction?, mentions, mentionsAny,
        Scope.isActionCall, Node.children, Node.fields, Node.isAbsent, Scope.within,
        Callee.isStoreFactory, Callee.identifier?, Node.unwrap, hforEach, hset]
    rw [expression, plainActions, hnone]
    · exact ⟨_, _, rfl⟩
    all_goals simp [change, nested]
  obtain ⟨-, hrefused, -, -, hsame, -⟩ := mentions_iff_acts s pop
  refine ⟨hpop, hrefused ((hsame hpop).2 hback) {}, hchange, haccepted, fun hall => ?_⟩
  obtain ⟨-, hrefused, -, -, hsame, -⟩ := mentions_iff_acts s change
  obtain ⟨out, q, hout⟩ := haccepted
  obtain ⟨r, q', hr⟩ := hrefused ((hsame hall).2 hchange) {}
  rw [hout] at hr
  cases hr

end Scenario

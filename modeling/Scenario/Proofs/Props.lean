import Scenario.Proofs.Compiling
import Scenario.Proofs.Origins
import Scenario.Proofs.WrappedReadings

namespace Scenario

open Syntax

namespace Syntax.Node

mutual

/-- The identifiers that the value of an expression depends on. -/
def readNames : Node → List String
  | .identifier name => [name]
  | .container e => e.readNames
  | .parenthesized e => e.readNames
  | .assertion e => e.readNames
  | .object members => memberNames members
  | .array elements => elementNames elements
  | _ => []

def memberNames : List Node → List String
  | [] => []
  | .property _ value :: more => value.readNames ++ memberNames more
  | _ :: more => memberNames more

def elementNames : List Node → List String
  | [] => []
  | .spread _ :: more => elementNames more
  | e :: more => e.readNames ++ elementNames more

end

theorem readNames_unwrap (n : Node) : n.unwrap.readNames = n.readNames := by
  fun_induction unwrap n <;> simp_all [readNames]

/-- The identifiers that the condition of a test depends on. -/
def testNames : Node → List String
  | .parenthesized e => e.testNames
  | .assertion e => e.testNames
  | .container e => e.testNames
  | .binary operator left right =>
    match Comparison.ofOperator? operator with
    | some _ => left.readNames ++ right.readNames
    | none => left.testNames ++ right.testNames
  | .unary _ argument => argument.testNames
  | .call callee arguments _ =>
    match TestContext.membership? callee with
    | some (_, _, receiver) => receiver.readNames ++ arguments.flatMap readNames
    | none => []
  | n => n.readNames

end Syntax.Node

/-- Two lists of props have the same of the given names. -/
def AgreeOn (names props props' : List String) : Prop := ∀ k ∈ names, k ∈ props ↔ k ∈ props'

namespace AgreeOn

variable {names more props props' : List String}

theorem mono (h : AgreeOn names props props') (hsub : more ⊆ names) : AgreeOn more props props' :=
  fun k hk => h k (hsub hk)

theorem left (h : AgreeOn (names ++ more) props props') : AgreeOn names props props' :=
  h.mono (List.subset_append_left names more)

theorem right (h : AgreeOn (names ++ more) props props') : AgreeOn more props props' :=
  h.mono (List.subset_append_right names more)

theorem of_mem {ns : List Node} {n : Node} (h : AgreeOn (ns.flatMap Node.readNames) props props')
    (hn : n ∈ ns) : AgreeOn n.readNames props props' :=
  fun k hk => h k (List.mem_flatMap.2 ⟨n, hn, hk⟩)

end AgreeOn

section Congruence

variable {props props' : List String}

theorem static_congr (props props' : List String) :
    (∀ n, AgreeOn n.readNames props props' → staticValue props n = staticValue props' n) ∧
      (∀ ns, AgreeOn (Node.elementNames ns) props props' →
        staticElements props ns = staticElements props' ns) ∧
      ∀ ns acc, AgreeOn (Node.memberNames ns) props props' →
        staticMembers props ns acc = staticMembers props' ns acc := by
  refine staticValue.mutual_induct props
    (fun n => AgreeOn n.readNames props props' → staticValue props n = staticValue props' n)
    (fun ns => AgreeOn (Node.elementNames ns) props props' →
      staticElements props ns = staticElements props' ns)
    (fun ns acc => AgreeOn (Node.memberNames ns) props props' →
      staticMembers props ns acc = staticMembers props' ns acc)
    ?_ ?_ ?_ ?_ ?_ ?_ ?_ ?_ ?_ ?_ ?_ ?_ ?_ ?_ ?_ ?_ ?_
  · intro s _
    rfl
  · intro n _
    rfl
  · intro b _
    rfl
  · intro name hname h
    have hiff := h name (List.mem_singleton_self name)
    simp only [staticValue, hiff]
  · intro name hname h
    have hiff := h name (List.mem_singleton_self name)
    simp only [staticValue, hiff]
  · intro e ih h
    rw [staticValue, staticValue, ih h]
  · intro e ih h
    rw [staticValue, staticValue, ih h]
  · intro e ih h
    rw [staticValue, staticValue, ih h]
  · intro members ih h
    rw [staticValue, staticValue, ih h]
  · intro elements ih h
    rw [staticValue, staticValue, ih h]
  · intro n _ _ _ _ _ _ _ _ _ _
    rw [staticValue, staticValue] <;> assumption
  · intro _
    rfl
  · intro argument rest ih h
    rw [staticElements, staticElements, ih h]
  · intro e rest he ihe ihr h
    rw [Node.elementNames] at h
    · rw [staticElements, staticElements, ihe h.left, ihr h.right]
      · exact he
      · exact he
    · exact he
  · intro acc _
    rfl
  · intro key value rest acc ihv ihr h
    rw [Node.memberNames] at h
    rw [staticMembers, staticMembers, ← ihv h.left, ihr h.right]
  · intro head rest acc hh ihr h
    rw [Node.memberNames] at h
    · rw [staticMembers, staticMembers, ihr h]
      · exact hh
      · exact hh
    · exact hh

theorem staticValue_congr {n : Node} (h : AgreeOn n.readNames props props') :
    staticValue props n = staticValue props' n :=
  (static_congr props props').1 n h

theorem argumentValue_congr {argument : Node} (call : String) (line : Nat) (name : String)
    (h : AgreeOn argument.readNames props props') :
    argumentValue call line props name argument = argumentValue call line props' name argument := by
  simp only [argumentValue, staticValue_congr h]

theorem positionalValues_congr (call : String) (line : Nat) (names : List String)
    {arguments : List Node} (acc : Fields Value)
    (h : AgreeOn (arguments.flatMap Node.readNames) props props') :
    positionalValues call line props (names.zip arguments) acc =
      positionalValues call line props' (names.zip arguments) acc := by
  induction names generalizing arguments acc with
  | nil => rfl
  | cons name more ih =>
    cases arguments with
    | nil => rfl
    | cons a rest =>
      rw [List.flatMap_cons] at h
      simp only [List.zip_cons_cons, positionalValues, argumentValue_congr call line name h.left,
        ih _ h.right]

/-- The members of an object literal depend on names of the literal. -/
theorem readNames_of_plainMembers {call : String} {line : Nat} {ms : List Node}
    {acc fs : Fields Node} {key : String} {n : Node} (h : plainMembers call line ms acc = .ok fs)
    (hn : (key, n) ∈ fs) : (key, n) ∈ acc ∨ n.readNames ⊆ Node.memberNames ms := by
  induction ms generalizing acc with
  | nil =>
    cases h
    exact .inl hn
  | cons m more ih =>
    cases m with
    | property k value =>
      rw [plainMembers] at h
      rw [Node.memberNames]
      rcases ih h with hput | hmore
      · rcases Fields.mem_put hput with heq | hacc
        · cases heq
          exact .inr (List.subset_append_left _ _)
        · exact .inl hacc
      · exact .inr (List.Subset.trans hmore (List.subset_append_right _ _))
    | _ => cases h

theorem readNames_of_objectMembers? {n : Node} {ms : List Node} (h : objectMembers? n = some ms) :
    n.readNames = Node.memberNames ms := by
  rw [← n.readNames_unwrap]
  unfold objectMembers? at h
  split at h
  · rename_i hu
    cases h
    rw [hu, Node.readNames]
  · cases h

theorem Reading.bind_congr {α β : Type} {x : Reading α} {f g : α → Reading β}
    (h : ∀ a, x = .ok a → f a = g a) : x >>= f = x >>= g := by
  cases x with
  | error r => rfl
  | ok a => exact h a rfl

theorem eq_of_plainArguments {call : String} {arguments as : List Node} {line : Nat}
    (h : plainArguments call arguments line = .ok as) : as = arguments := by
  unfold plainArguments at h
  split at h <;> cases h
  rfl

theorem withOptions_congr (shape : EffectShape) (call : String) (line : Nat) {arguments : List Node}
    (payload : Fields Value) (h : AgreeOn (arguments.flatMap Node.readNames) props props') :
    withOptions shape call line props arguments payload =
      withOptions shape call line props' arguments payload := by
  unfold withOptions
  cases shape.options with
  | none => rfl
  | some name =>
    cases hlast : arguments.getLast? with
    | none => rfl
    | some last =>
      dsimp only
      split
      · cases hm : objectMembers? last with
        | none => rfl
        | some members =>
          refine Reading.bind_congr fun options hoptions => ?_
          have hmembers : AgreeOn (Node.memberNames members) props props' := by
            rw [← readNames_of_objectMembers? hm]
            exact h.of_mem (List.mem_of_getLast? hlast)
          have hvalues : (options.map fun f => (f.1, staticValue props f.2)) =
              options.map fun f => (f.1, staticValue props' f.2) := by
            refine List.map_congr_left fun f hf => ?_
            rcases readNames_of_plainMembers hoptions hf with hnil | hsub
            · cases hnil
            · exact congrArg (Prod.mk f.1) (staticValue_congr (hmembers.mono hsub))
          rw [hvalues]
      · rfl

theorem effectPayload_congr (shape : EffectShape) (call : String) {arguments : List Node}
    (line : Nat) (h : AgreeOn (arguments.flatMap Node.readNames) props props') :
    effectPayload shape call arguments line props =
      effectPayload shape call arguments line props' := by
  rw [effectPayload_eq, effectPayload_eq]
  refine Reading.bind_congr fun as has => ?_
  obtain rfl := eq_of_plainArguments has
  simp only [positionalValues_congr call line shape.positional _ h,
    withOptions_congr shape call line _ h]

theorem request_congr {arguments : List Node} (line : Nat)
    (h : AgreeOn (arguments.flatMap Node.readNames) props props') :
    Request.ofArguments arguments line props = Request.ofArguments arguments line props' := by
  unfold Request.ofArguments
  refine Reading.bind_congr fun as has => ?_
  obtain rfl := eq_of_plainArguments has
  match as with
  | [] => rfl
  | _ :: _ :: _ => rfl
  | [config] =>
    dsimp only
    cases hm : objectMembers? config with
    | none => rfl
    | some members =>
      refine Reading.bind_congr fun fields hfields => ?_
      have hvalue (name : String) : (fields.get? name).map (staticValue props) =
          (fields.get? name).map (staticValue props') := by
        cases hn : fields.get? name with
        | none => rfl
        | some n =>
          rcases readNames_of_plainMembers hfields (Fields.mem_of_get? hn) with hnil | hsub
          · cases hnil
          · refine congrArg some (staticValue_congr (h.mono ?_))
            rw [List.flatMap_singleton, readNames_of_objectMembers? hm]
            exact hsub
      have hendpoint : Request.endpoint line props (fields.get? "endpoint") =
          Request.endpoint line props' (fields.get? "endpoint") := by
        have he := hvalue "endpoint"
        cases hn : fields.get? "endpoint" with
        | none => rfl
        | some n =>
          rw [hn] at he
          simp only [Request.endpoint, Option.some.inj he]
      simp only [hvalue, hendpoint]

theorem operand_congr (store? : Node → Option Store) {n : Node}
    (h : AgreeOn n.readNames props props') :
    TestContext.operand { props, store? } n =
      TestContext.operand { props := props', store? } n := by
  have hliteral : TestContext.literal? { props, store? } n.unwrap =
      TestContext.literal? { props := props', store? } n.unwrap := by
    rw [← n.readNames_unwrap] at h
    have hvalue := staticValue_congr h
    cases hn : n.unwrap with
    | identifier name =>
      rw [hn] at h hvalue
      have hiff := h name (List.mem_singleton_self name)
      simp only [TestContext.literal?, hiff, hvalue]
    | object members =>
      rw [hn] at hvalue
      exact congrArg some hvalue
    | array elements =>
      rw [hn] at hvalue
      exact congrArg some hvalue
    | _ => rfl
  unfold TestContext.operand
  rw [hliteral]
  rfl

theorem mem_of_onlyArgument? {arguments : List Node} {a : Node}
    (h : onlyArgument? arguments = some a) : a ∈ arguments := by
  unfold onlyArgument? at h
  split at h
  · split at h <;> cases h
    exact List.mem_singleton_self a
  · cases h

theorem condition_congr (store? : Node → Option Store) {n : Node}
    (h : AgreeOn n.testNames props props') :
    TestContext.condition { props, store? } n =
      TestContext.condition { props := props', store? } n := by
  have hcompare (c : Comparison) {left right : Node}
      (h : AgreeOn (left.readNames ++ right.readNames) props props') :
      TestContext.compare { props, store? } c left right =
        TestContext.compare { props := props', store? } c left right := by
    simp only [TestContext.compare, operand_congr store? h.left, operand_congr store? h.right]
  have htruthy {n : Node} (h : AgreeOn n.readNames props props') :
      TestContext.truthy { props, store? } n =
        TestContext.truthy { props := props', store? } n := by
    simp only [TestContext.truthy, operand_congr store? h]
  induction n using TestContext.condition.induct with
  | case1 e ih =>
    simp only [TestContext.condition, ih h]
  | case2 e ih =>
    simp only [TestContext.condition, ih h]
  | case3 e ih =>
    simp only [TestContext.condition, ih h]
  | case4 operator left right c hc =>
    simp only [Node.testNames, hc] at h
    simp only [TestContext.condition, hc, hcompare c h]
  | case5 operator left right j hj hc ihl ihr =>
    simp only [Node.testNames, hc] at h
    simp only [TestContext.condition, hc, hj, ihl h.left, ihr h.right]
  | case6 operator left right hj hc =>
    simp only [TestContext.condition, hc, hj]
    exact htruthy fun k hk => (List.not_mem_nil hk).elim
  | case7 argument ih =>
    simp only [TestContext.condition, if_true, ih h]
  | case8 operator argument ho =>
    simp only [TestContext.condition, if_neg ho]
    exact htruthy fun k hk => (List.not_mem_nil hk).elim
  | case9 callee arguments line c method receiver hm a ha =>
    simp only [Node.testNames, hm] at h
    have hmem : a ∈ arguments := mem_of_onlyArgument? ha
    have hreceiver : AgreeOn (receiver.readNames ++ a.readNames) props props' := by
      intro k hk
      rcases List.mem_append.1 hk with hk | hk
      · exact h.left k hk
      · exact h.right.of_mem hmem k hk
    simp only [TestContext.condition, hm, ha, hcompare c hreceiver]
  | case10 callee arguments line c method receiver hm ha =>
    simp only [TestContext.condition, hm, ha]
  | case11 callee arguments line hm =>
    simp only [TestContext.condition, hm]
    exact htruthy fun k hk => (List.not_mem_nil hk).elim
  | case12 n hp ha hc hb hu hcall =>
    rw [TestContext.condition, TestContext.condition] <;> try assumption
    refine htruthy ?_
    rwa [Node.testNames] at h <;> assumption

theorem choiceValue?_congr (store? : Node → Option Store) {test : Node}
    (h : AgreeOn test.testNames props props') :
    TestContext.choiceValue? { props, store? } test =
      TestContext.choiceValue? { props := props', store? } test := by
  rw [TestContext.choiceValue?, TestContext.choiceValue?, condition_congr store? h]

/-- The identifiers that the test of a clause depends on. -/
def caseNames (c : Node) : List String := (caseTest c).toList.flatMap Node.readNames

theorem caseValue_congr (store? : Node → Option Store) {c : Node}
    (h : AgreeOn (caseNames c) props props') :
    TestContext.caseValue { props, store? } c =
      TestContext.caseValue { props := props', store? } c := by
  unfold TestContext.caseValue
  cases hc : caseTest c with
  | none => rfl
  | some test =>
    have htest : AgreeOn test.readNames props props' :=
      h.of_mem (by rw [hc]; exact List.mem_singleton_self test)
    simp only [TestContext.operandValue, operand_congr store? htest]

theorem caseValues_congr (store? : Node → Option Store) {cases : List Node}
    (h : AgreeOn (cases.flatMap caseNames) props props') :
    cases.mapM (TestContext.caseValue { props, store? }) =
      cases.mapM (TestContext.caseValue { props := props', store? }) := by
  induction cases with
  | nil => rfl
  | cons c more ih =>
    rw [List.flatMap_cons] at h
    rw [List.mapM_cons, List.mapM_cons, caseValue_congr store? h.left, ih h.right]

theorem selectionValue?_congr (store? : Node → Option Store) {d : Node} {cases : List Node}
    (h : AgreeOn (d.readNames ++ cases.flatMap caseNames) props props') :
    TestContext.selectionValue? { props, store? } d cases =
      TestContext.selectionValue? { props := props', store? } d cases := by
  rw [TestContext.selectionValue?, TestContext.selectionValue?, TestContext.operandValue,
    TestContext.operandValue, operand_congr store? h.left, caseValues_congr store? h.right]

end Congruence

namespace Place

/-- The identifiers that the value of a place depends on. -/
def names : Place → List String
  | .call _ _ arguments _ => arguments.flatMap Node.readNames
  | .statement _ (.ifStatement test _ _) => test.testNames
  | .statement _ (.switchStatement d cases) =>
    d.readNames ++ cases.flatMap caseNames
  | .expression _ (.binary _ left _) => left.testNames
  | .expression _ (.unsupported "ternary_expression" [test, _, _] _) => test.testNames
  | _ => []

theorem callValue?_congr {props props' : List String} {arguments : List Node} (c : Call) (line : Nat)
    (h : AgreeOn (arguments.flatMap Node.readNames) props props') :
    c.value? props arguments line = c.value? props' arguments line := by
  cases c with
  | declaration => rfl
  | read store => rfl
  | mutation store method =>
    match arguments with
    | [] | [_] | _ :: _ :: _ :: _ => rfl
    | [path, e] =>
      have he : AgreeOn e.readNames props props' := h.of_mem (by simp)
      exact congrArg some (staticValue_congr he)
  | effect space method =>
    by_cases hs : space = .api
    · subst hs
      rw [Call.value?, Call.value?, request_congr line h]
    · rw [Call.value?, Call.value?]
      · simp only [effectPayload_congr _ _ line h]
      · exact hs
      · exact hs

/-- The value of a place depends on the props that it names. -/
theorem value?_congr {props props' : List String} {p : Place} (h : AgreeOn p.names props props') :
    p.value? props = p.value? props' := by
  cases p with
  | call s c arguments line => exact callValue?_congr c line h
  | statement s n =>
    cases n with
    | ifStatement test consequent alternate => exact choiceValue?_congr _ h
    | switchStatement d cases => exact selectionValue?_congr _ h
    | _ => rfl
  | expression s n =>
    cases n with
    | binary operator left right => exact choiceValue?_congr _ h
    | unsupported kind parts line =>
      by_cases hk : kind = "ternary_expression"
      · subst hk
        match parts with
        | [] | [_] | [_, _] | _ :: _ :: _ :: _ :: _ => rfl
        | [test, consequent, alternate] => exact choiceValue?_congr _ h
      · simp [value?, hk]
    | _ => rfl
  | _ => rfl

end Place

namespace Scope

variable {s : Scope}

theorem props_function (s : Scope) (params : List Node) :
    (s.function params).props =
      if s.isModule then params.flatMap Node.patternNames else s.props :=
  (extends_bindAll _ _).props

theorem bindings_function (s : Scope) (params : List Node) :
    s.bindings <:+ (s.function params).bindings := by
  unfold function
  dsimp only
  exact (extends_bindAll { s.child with props := _ } _).bindings

theorem extends_function (h : s.isModule = false) (params : List Node) :
    s.Extends (s.function params) where
  bindings := s.bindings_function params
  props := by rw [props_function, if_neg (by simp [h])]
  isModule := by rw [isModule_function, h]

/-- The names that are bound in a scope and not yet in another one around it. -/
def boundSince (s t : Scope) : List String :=
  (t.bindings.take (t.bindings.length - s.bindings.length)).map Prod.fst

end Scope

namespace Place

/-- Whether a place is in a function that is run. -/
def isRun : Place → Bool
  | .statement .. | .expression .. => true
  | _ => false

/-- The parameters of the function that a place opens. -/
def params? : Place → Option (List Node)
  | .node _ n => n.function?.map (·.1)
  | .function _ params _ => some params
  | .call _ (.mutation _ (some "transaction")) arguments line =>
    (Transaction.ofArguments arguments line).toOption.map (·.params)
  | _ => none

/-- The scope of a place inside another one: the same, or one that a block, a declaration or a
function makes of it. -/
inductive Opens (p q : Place) : Prop where
  | same : q.scope = p.scope → (q.isRun = true → p.isRun = true) → Opens p q
  | block : p.scope.child.Extends q.scope → Opens p q
  | declaration : p.isRun = true → p.scope.Extends q.scope → Opens p q
  | function (params : List Node) : p.params? = some params →
    (p.scope.function params).Extends q.scope → Opens p q

section Opens

variable {s : Scope} {q : Place}

theorem scope_of_mem_map {ns : List Node} (h : q ∈ ns.map (.node s)) :
    q.scope = s ∧ q.isRun = false := by
  obtain ⟨n, -, rfl⟩ := List.mem_map.1 h
  exact ⟨rfl, rfl⟩

theorem extends_of_mem_inOrder {ns : List Node} (h : q ∈ inOrder s ns) : s.Extends q.scope := by
  induction ns generalizing s with
  | nil => cases h
  | cons n more ih =>
    rcases List.mem_cons.1 h with rfl | h
    · exact .refl s
    · exact (s.extends_behind n).trans (ih h)

theorem extends_of_mem_ofBody {n : Node} (h : q ∈ ofBody s n) : s.Extends q.scope := by
  unfold ofBody at h
  split at h
  · rw [(scope_of_mem_map h).1]
    exact s.extends_hoist _
  · rw [List.mem_singleton.1 h]
    exact .refl s

theorem extends_of_mem_insideFunction {n : Node} (h : q ∈ insideFunction s n) :
    s.Extends q.scope := by
  unfold insideFunction at h
  split at h
  · exact (s.extends_hoist _).trans (extends_of_mem_inOrder h)
  · rw [List.mem_singleton.1 h]
    exact .refl s

theorem opens_of_mem_map {p : Place} {ns : List Node} (h : q ∈ ns.map (.node p.scope)) :
    p.Opens q := by
  obtain ⟨hscope, hrun⟩ := scope_of_mem_map h
  exact .same hscope fun hq => by simp [hrun] at hq

theorem opens_of_mem_insideNode {n : Node} (h : q ∈ insideNode s n) : (Place.node s n).Opens q := by
  unfold insideNode at h
  split at h
  · exact .function _ rfl (extends_of_mem_ofBody h)
  · exact .function _ rfl (extends_of_mem_ofBody h)
  · exact .function _ rfl (extends_of_mem_ofBody h)
  · refine .block ?_
    rw [(scope_of_mem_map h).1]
    exact Scope.extends_hoist _ _
  · rcases List.mem_append.1 h with h | h
    · obtain ⟨a, -, rfl⟩ := List.mem_map.1 h
      unfold ofAttribute
      split <;> exact .same rfl fun hq => hq
    · exact opens_of_mem_map h
  · split at h
    · rw [List.mem_singleton.1 h]
      exact .same rfl fun hq => hq
    · exact opens_of_mem_map h
  · exact opens_of_mem_map h

theorem opens_of_mem_insideStatement {n : Node} (h : q ∈ insideStatement s n) :
    (Place.statement s n).Opens q := by
  unfold insideStatement at h
  split at h
  · rw [List.mem_singleton.1 h]
    exact .same rfl fun _ => rfl
  · rw [List.mem_singleton.1 h]
    exact .same rfl fun _ => rfl
  · rename_i kind declarators
    obtain ⟨e, -, rfl⟩ := List.mem_map.1 h
    exact .declaration rfl (s.extends_hoistStatement (.variableDeclaration kind declarators))
  · exact .block ((Scope.extends_hoist _ _).trans (extends_of_mem_inOrder h))
  · rcases List.mem_cons.1 h with rfl | h
    · exact .same rfl fun _ => rfl
    · obtain ⟨m, -, rfl⟩ := List.mem_map.1 h
      exact .declaration rfl (s.extends_behind _)
  · split at h
    · obtain ⟨run, -, h⟩ := List.mem_flatMap.1 h
      exact .block ((Scope.extends_hoist _ _).trans (extends_of_mem_inOrder h))
    · cases h
  · cases h

theorem opens_of_mem_insideExpression {n : Node} (h : q ∈ insideExpression s n) :
    (Place.expression s n).Opens q := by
  have hscope : q.scope = s := by
    unfold insideExpression at h
    grind [scope]
  exact .same hscope fun _ => rfl

theorem opens_of_mem_insideCall {c : Call} {arguments : List Node} {line : Nat}
    (h : q ∈ insideCall s arguments line c) : (Place.call s c arguments line).Opens q := by
  unfold insideCall at h
  split at h
  · split at h
    · obtain ⟨n, -, hn⟩ := List.mem_filterMap.1 h
      obtain ⟨f, -, rfl⟩ := Option.map_eq_some_iff.1 hn
      exact .same rfl fun hq => hq
    · cases h
  · split at h
    · rename_i t ht
      obtain ⟨c, -, rfl⟩ := List.mem_map.1 h
      refine .function t.params ?_ (Scope.extends_bind _ _ _)
      rw [params?, ht]
      rfl
    · cases h
  · cases h

theorem opens_of_mem_inner {p q : Place} (h : q ∈ p.inner) : p.Opens q := by
  cases p with
  | node s n => exact opens_of_mem_insideNode h
  | function s params body => exact .function params rfl (extends_of_mem_insideFunction h)
  | statement s n => exact opens_of_mem_insideStatement h
  | expression s n => exact opens_of_mem_insideExpression h
  | call s c arguments line => exact opens_of_mem_insideCall h

end Opens

/-- Below the program itself, scopes only grow. -/
theorem Opens.grows {p q : Place} (h : p.Opens q) (hp : p.scope.isModule = false) :
    p.scope.Extends q.scope := by
  cases h with
  | same hscope _ =>
    rw [hscope]
    exact .refl _
  | block hext => rwa [Scope.child_of_isModule_eq_false hp] at hext
  | declaration _ hext => exact hext
  | function params _ hext => exact (Scope.extends_function hp params).trans hext

/-- Where a place stands that is compiled by way of a node of the program itself: outside all
functions, in a block of the program, or in a function that is opened in the scope of the program. -/
inductive Stands (m : Scope) (start q : Place) : Prop where
  | outside : q.scope = m → q.isRun = false → Stands m start q
  | block : q.scope.isModule = false → q.scope.props = [] → Stands m start q
  | function (p : Place) (params : List Node) : start.Reaches p → p.scope = m →
    p.params? = some params → p.Reaches q → (m.function params).Extends q.scope → Stands m start q

/-- One step further inside. -/
theorem Stands.step {m : Scope} {start p q : Place} (hprops : m.props = []) (hp : start.Reaches p)
    (h : Stands m start p) (hq : q ∈ p.inner) : Stands m start q := by
  have hopens := opens_of_mem_inner hq
  cases h with
  | outside hscope hrun =>
    cases hopens with
    | same hsame hruns =>
      refine .outside (hsame.trans hscope) (Bool.eq_false_iff.2 fun hr => ?_)
      rw [hruns hr] at hrun
      cases hrun
    | block hext =>
      rw [hscope] at hext
      exact .block hext.isModule (hext.props.trans hprops)
    | declaration hr hext =>
      rw [hrun] at hr
      cases hr
    | function params hparams hext =>
      rw [hscope] at hext
      exact .function p params hp hscope hparams (.single hq) hext
  | block hmodule hnone =>
    have hgrows := hopens.grows hmodule
    exact .block (hgrows.isModule.trans hmodule) (hgrows.props.trans hnone)
  | function p' params hp' hscope hparams hreach hext =>
    have hmodule := hext.isModule.trans (isModule_function m params)
    have hgrows := hopens.grows hmodule
    exact .function p' params hp' hscope hparams (hreach.tail hq) (hext.trans hgrows)

theorem stands_of_reaches {m : Scope} {n : Node} {q : Place} (hprops : m.props = [])
    (h : (Place.node m n).Reaches q) : Stands m (.node m n) q := by
  induction h with
  | refl => exact .outside rfl rfl
  | tail hp hq ih => exact ih.step hprops hp hq

/-- The props that can be seen by name at a place in a function: the parameters that no name hides
that is bound since, if the function stands in the program as such, and none if it is run by an event,
a request or a transaction. -/
def visible (p : Place) (params : List Node) (q : Place) : List String :=
  match p with
  | .node s _ => (params.flatMap Node.patternNames).filter fun k =>
      k ∉ (s.function params).boundSince q.scope
  | _ => []

/-- The names that lexical scopes make props at a place. -/
inductive Sees (m : Scope) (start q : Place) : List String → Prop where
  | outside : q.scope.props = [] → Sees m start q []
  | function {p : Place} {params : List Node} : start.Reaches p → p.scope = m →
    p.params? = some params → p.Reaches q → (m.function params).Extends q.scope →
    q.scope.props = params.flatMap Node.patternNames → Sees m start q (visible p params q)

theorem Sees.subset {m : Scope} {start q : Place} {names : List String} (h : Sees m start q names) :
    names ⊆ q.scope.props := by
  cases h with
  | outside _ => exact List.nil_subset _
  | @function p params _ _ _ _ _ hprops =>
    rw [hprops]
    unfold visible
    split
    · exact List.filter_subset_self _
    · exact List.nil_subset _

theorem Stands.exists_sees {m : Scope} {start q : Place} (hm : m.isModule = true)
    (hprops : m.props = []) (h : Stands m start q) : ∃ names, Sees m start q names := by
  cases h with
  | outside hscope _ => exact ⟨[], .outside (by rw [hscope, hprops])⟩
  | block _ hnone => exact ⟨[], .outside hnone⟩
  | function p params hp hscope hparams hreach hext =>
    refine ⟨_, .function hp hscope hparams hreach hext ?_⟩
    rw [hext.props, Scope.props_function, if_pos hm]

end Place

open Place Scenario.Action

/-- Each value of an action is read at a place of the program, with the parameters of the outermost
function around that place as props. It is what the names that can be seen there make of it, if no
name that it is read off is among the parameters and cannot be seen. -/
theorem exists_place_of_mem_values (options : Options) (body : List Node) {v : Value}
    (h : v ∈ valuesAll (extract options body).parts.actions) :
    let top := Scope.module.hoist body
    ∃ n ∈ body, ∃ q names, (Place.node top n).Reaches q ∧ Sees top (.node top n) q names ∧
      q.value? q.scope.props = some v ∧
      ((∀ k ∈ q.names, k ∈ q.scope.props → k ∈ names) → q.value? names = some v) := by
  intro top
  have htop := Scope.module.extends_hoist body
  have hwalk := ensures_walkAll top body ((declareAllStores body).outcome {}).2
  obtain ⟨p, hp, q, hreach, hv⟩ := hwalk v h
  obtain ⟨n, hn, rfl⟩ := List.mem_map.1 hp
  have hstands := stands_of_reaches htop.props hreach
  obtain ⟨names, hnames⟩ := hstands.exists_sees htop.isModule htop.props
  refine ⟨n, hn, q, names, hreach, hnames, hv, fun hseen => ?_⟩
  rw [← hv]
  exact value?_congr fun k hk => ⟨fun hin => hnames.subset hin, hseen k hk⟩

/-- A component with a handler whose parameter has the name of a prop. -/
def shadowingHandler : List Node :=
  [.exportDefault (.functionDeclaration "Card" [.objectPattern ["item"]]
    (.block [.returnStatement (some (.element "Button"
      [.attribute "onPress" (some (.container (.arrow [.identifier "item"]
        (.call (.identifier "push") [.string "Details", .identifier "item"] 1) 1)))] [] 1))]) 1)]

/-- The parameter of the handler is taken for the prop. -/
theorem exists_place_of_mem_values_shadowed :
    let v := Value.object [("screenId", .string "Details"), ("params", .propRef "item")]
    let top := Scope.module.hoist shadowingHandler
    v ∈ valuesAll (extract {} shadowingHandler).parts.actions ∧
      ∃ n ∈ shadowingHandler, ∃ q names, (Place.node top n).Reaches q ∧
        Sees top (.node top n) q names ∧ q.value? q.scope.props = some v := by
  intro v top
  have hstores : declareAllStores shadowingHandler = pure () := by
    simp [shadowingHandler, declareAllStores, declareStores, Node.children, Node.fields,
      Node.isAbsent, Callee.isStoreFactory, Callee.identifier?, Node.unwrap]
  let body : Node := .call (.identifier "push") [.string "Details", .identifier "item"] 1
  have hattribute (s : Scope) : walkAttribute s (.attribute "onPress" (some (.container
      (.arrow [.identifier "item"] body 1)))) =
        (handlerActions s [.identifier "item"] body).orReport := walkAttribute_of_handler? rfl
  have hwalk : walkAll top shadowingHandler =
      (handlerActions (Scope.module.function [.objectPattern ["item"]]) [.identifier "item"]
        body).orReport := by
    simp [top, body, shadowingHandler, walkAll, walk, walkFunction, walkAttributes, hattribute,
      Node.children, Node.fields, Node.isAbsent, Scope.hoist, Scope.hoistStatement,
      Scope.hoistDeclaration]
  have hvalues : valuesAll ((collectActions shadowingHandler).outcome {}).1 = [v] := by
    rw [collectActions, hstores, hwalk, handlerActions, functionActions,
      expression_of_shortForm? (show shortForm? "push" = some (.navigate, "push") from rfl)
        (by decide) rfl]
    · rfl
    · simp
  have hv : v ∈ valuesAll (extract {} shadowingHandler).parts.actions := by
    change v ∈ valuesAll ((collectActions shadowingHandler).outcome {}).1
    rw [hvalues]
    exact List.mem_singleton_self v
  obtain ⟨n, hn, q, names, hreach, hsees, hread, -⟩ :=
    exists_place_of_mem_values {} shadowingHandler hv
  exact ⟨hv, n, hn, q, names, hreach, hsees, hread⟩

end Scenario

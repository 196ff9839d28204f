import Scenario.Proofs.Wrappers

namespace Scenario

open Syntax
open Syntax.Node (bare unwrap_bare propertyName?_bare staticString?_bare isSpread_bare)

theorem plainArguments_bare (call : String) (arguments : List Node) (line : Nat) :
    plainArguments call (arguments.map (bare true)) line =
      (List.map (bare true)) <$> plainArguments call arguments line := by
  have hany : (arguments.map (bare true)).any isSpread = arguments.any isSpread := by
    induction arguments with
    | nil => rfl
    | cons a more ih => simp [ih]
  unfold plainArguments
  rw [hany]
  split <;> rfl

theorem plainMembers_bare (call : String) (line : Nat) (ms : List Node) (acc : Fields Node) :
    plainMembers call line (ms.map (bare false)) (acc.mapValues (bare true)) =
      Fields.mapValues (bare true) <$> plainMembers call line ms acc := by
  fun_induction plainMembers call line ms acc with
  | case1 acc => rfl
  | case2 acc key value more ih =>
    rw [List.map_cons, bare, plainMembers, memberName_bare, Fields.put_mapValues, ih]
  | case3 m more acc hm =>
    rw [List.map_cons, plainMembers]
    · rfl
    · intro key value hk
      cases m with
      | property k v => exact hm k v rfl
      | _ => cases hk

@[simp] theorem objectMembers?_bare (v : Bool) (n : Node) :
    objectMembers? (n.bare v) = (objectMembers? n).map (List.map (bare false)) := by
  unfold objectMembers?
  rw [unwrap_bare]
  cases n.unwrap <;> simp [bare]

@[simp] theorem onlyArgument?_bare (arguments : List Node) :
    onlyArgument? (arguments.map (bare true)) = (onlyArgument? arguments).map (bare true) := by
  match arguments with
  | [] => rfl
  | [a] =>
    simp only [List.map_cons, List.map_nil, onlyArgument?, isSpread_bare]
    split <;> rfl
  | a :: b :: more => rfl

@[simp] theorem argumentValue_bare (call : String) (line : Nat) (props : List String) (name : String)
    (argument : Node) :
    argumentValue call line props name (argument.bare true) =
      argumentValue call line props name argument := by
  simp [argumentValue]

theorem positionalValues_bare (call : String) (line : Nat) (props names : List String)
    (arguments : List Node) (acc : Fields Value) :
    positionalValues call line props (names.zip (arguments.map (bare true))) acc =
      positionalValues call line props (names.zip arguments) acc := by
  induction names generalizing arguments acc with
  | nil => rfl
  | cons name more ih =>
    cases arguments with
    | nil => rfl
    | cons a rest =>
      simp only [List.map_cons, List.zip_cons_cons, positionalValues, argumentValue_bare, ih]

/-- The payload of an effect with the members of the options behind its arguments. -/
def withOptions (shape : EffectShape) (call : String) (line : Nat) (props : List String)
    (arguments : List Node) (payload : Fields Value) : Reading (Fields Value) :=
  match shape.options, arguments.getLast? with
  | some name, some last =>
    if arguments.length = shape.accepted then
      match objectMembers? last with
      | some members => do
        let options ← plainMembers call line members []
        return payload.overlay (options.map fun (key, value) => (key, staticValue props value))
      | none => refuse (.dynamicOptions call name) line
    else return payload
  | _, _ => return payload

theorem effectPayload_eq (shape : EffectShape) (call : String) (arguments : List Node) (line : Nat)
    (props : List String) :
    effectPayload shape call arguments line props = (do
      let arguments ← plainArguments call arguments line
      if arguments.length < shape.required then
        refuse (.missingArguments call (shape.positional.take shape.required)) line
      if shape.accepted < arguments.length then refuse (.excessArguments call shape.accepted) line
      let fixed := shape.fixed.map fun (name, text) => (name, Value.string text)
      let payload ← positionalValues call line props (shape.positional.zip arguments) fixed
      withOptions shape call line props arguments payload) := rfl

theorem withOptions_bare (shape : EffectShape) (call : String) (line : Nat) (props : List String)
    (arguments : List Node) (payload : Fields Value) :
    withOptions shape call line props (arguments.map (bare true)) payload =
      withOptions shape call line props arguments payload := by
  unfold withOptions
  rw [List.getLast?_map, List.length_map]
  cases shape.options with
  | none => rfl
  | some name =>
    cases arguments.getLast? with
    | none => rfl
    | some last =>
      simp only [Option.map_some, objectMembers?_bare]
      split
      · cases objectMembers? last with
        | none => rfl
        | some members =>
          change (plainMembers call line (members.map (bare false)) _ >>= _) = _
          rw [show ([] : Fields Node) = Fields.mapValues (bare true) [] from rfl, plainMembers_bare,
            bind_map_left]
          refine bind_congr fun options => ?_
          simp [Fields.mapValues, Function.comp_def]
      · rfl

theorem effectPayload_bare (shape : EffectShape) (call : String) (arguments : List Node) (line : Nat)
    (props : List String) :
    effectPayload shape call (arguments.map (bare true)) line props =
      effectPayload shape call arguments line props := by
  rw [effectPayload_eq, effectPayload_eq, plainArguments_bare, bind_map_left]
  simp only [List.length_map, positionalValues_bare, withOptions_bare]

namespace Callee

@[simp] theorem identifier?_bare (v : Bool) (callee : Node) :
    identifier? (callee.bare v) = identifier? callee := by
  unfold identifier?
  rw [unwrap_bare]
  cases callee.unwrap <;> simp [bare]

@[simp] theorem isStoreFactory_bare (v : Bool) (callee : Node) :
    isStoreFactory (callee.bare v) = isStoreFactory callee := by
  simp [isStoreFactory]

@[simp] theorem method?_bare (v : Bool) (callee : Node) :
    method? (callee.bare v) =
      (method? callee).map fun (receiver, method) => (receiver.bare false, method) := by
  unfold method?
  rw [unwrap_bare]
  cases callee.unwrap <;> simp [bare]

end Callee

@[simp] theorem settingText?_bare (type : String) (v : Bool) (n : Node) :
    settingText? type (n.bare v) = settingText? type n := by
  unfold settingText?
  rw [unwrap_bare, staticString?_bare]
  congr 1
  cases n.unwrap with
  | member base name computed =>
    simp only [bare, unwrap_bare, propertyName?_bare]
    cases base.unwrap <;> rfl
  | _ => rfl

@[simp] theorem settingValue_bare {α : Type} (setting type : String) (ofName? : String → Option α)
    (allowed : List String) (line : Nat) (v : Bool) (n : Node) :
    settingValue setting type ofName? allowed line (n.bare v) =
      settingValue setting type ofName? allowed line n := by
  simp only [settingValue, settingText?_bare]

@[simp] theorem initialFields_bare (props : List String) (line : Nat) (v : Bool) (n : Node) :
    initialFields props line (n.bare v) = initialFields props line n := by
  simp only [initialFields, staticValue_bare]

@[simp] theorem Store.ofArguments_bare (arguments : List Node) (line : Nat) (props : List String) :
    Store.ofArguments (arguments.map (bare true)) line props =
      Store.ofArguments arguments line props := by
  unfold Store.ofArguments
  rw [plainArguments_bare, bind_map_left]
  refine bind_congr fun arguments => ?_
  cases arguments with
  | nil => rfl
  | cons config more =>
    simp only [List.map_cons, objectMembers?_bare]
    cases objectMembers? config with
    | none => rfl
    | some members =>
      change (plainMembers "store()" line (members.map (bare false)) _ >>= _) = _
      rw [show ([] : Fields Node) = Fields.mapValues (bare true) [] from rfl, plainMembers_bare,
        bind_map_left]
      refine bind_congr fun fields => ?_
      simp only [Fields.get?_mapValues]
      cases fields.get? "scope" <;> cases fields.get? "storage" <;>
        cases fields.get? "initialValue" <;>
        simp only [Option.map_some, Option.map_none, settingValue_bare, initialFields_bare]

namespace Scope

variable (s : Scope)

@[simp] theorem store?_bare (v : Bool) (n : Node) : s.store? (n.bare v) = s.store? n := by
  unfold store?
  rw [unwrap_bare]
  cases n.unwrap <;> simp [bare]

theorem hoistDeclarators_bare (ns : List Node) :
    hoistDeclarators (ns.map (bare false)) s = hoistDeclarators ns s := by
  induction ns generalizing s with
  | nil => rfl
  | cons n more ih =>
    cases n with
    | declarator target init =>
      have hinit : (init.map (bare true)).bind s.store? = init.bind s.store? := by
        cases init <;> simp
      cases target <;> simp [bare, hoistDeclarators, hinit, ih, Node.patternNames]
    | _ => exact ih s

@[simp] theorem hoistDeclaration_bare (n : Node) :
    s.hoistDeclaration (n.bare false) = s.hoistDeclaration n := by
  cases n with
  | variableDeclaration kind ds => simp [bare, hoistDeclaration, hoistDeclarators_bare]
  | _ => rfl

@[simp] theorem hoistStatement_bare (n : Node) :
    s.hoistStatement (n.bare false) = s.hoistStatement n := by
  have hdeclaration := s.hoistDeclaration_bare n
  cases n with
  | exportNamed declaration specifiers =>
    cases declaration with
    | none => rfl
    | some d => exact s.hoistDeclaration_bare d
  | _ => exact hdeclaration

@[simp] theorem hoist_bare (ns : List Node) : s.hoist (ns.map (bare false)) = s.hoist ns := by
  simp [hoist, List.foldl_map]

@[simp] theorem function_bare (params : List Node) :
    s.function (params.map (bare false)) = s.function params := by
  have hnames : (params.map (bare false)).flatMap Node.patternNames =
      params.flatMap Node.patternNames := by
    simp [List.flatMap_map]
  simp only [function, hnames]

@[simp] theorem classifyMethod_bare (receiver : Node) (method : Option String) :
    s.classifyMethod (receiver.bare false) method = s.classifyMethod receiver method := by
  unfold classifyMethod
  rw [store?_bare]
  cases receiver <;> rfl

@[simp] theorem classify_bare (v : Bool) (callee : Node) :
    s.classify (callee.bare v) = s.classify callee := by
  unfold classify
  rw [Callee.isStoreFactory_bare, Callee.identifier?_bare, Callee.method?_bare]
  cases Callee.method? callee with
  | none => rfl
  | some m => simp only [Option.map_some, Option.bind_some, classifyMethod_bare]

@[simp] theorem within_bare_false (n : Node) : s.within (n.bare false) = s.within n := by
  cases n <;> simp [bare, within]

theorem isActionCall_bare_false (n : Node) : s.isActionCall (n.bare false) = s.isActionCall n := by
  cases n <;> simp [bare, isActionCall]

end Scope

@[simp] theorem functionOf?_bare (v : Bool) (n : Node) :
    functionOf? (n.bare v) =
      (functionOf? n).map fun (params, body) => (params.map (bare false), body.bare true) := by
  unfold functionOf?
  rw [unwrap_bare]
  cases n.unwrap <;> simp [bare]

theorem handler?_attribute (name : String) (value : Node) :
    handler? (.attribute name (some value)) = if isHandlerName name then functionOf? value else none :=
  rfl

@[simp] theorem handler?_bare (n : Node) :
    handler? (n.bare false) =
      (handler? n).map fun (params, body) => (params.map (bare false), body.bare true) := by
  by_cases hn : ∃ name value, n = .attribute name (some value)
  · obtain ⟨name, value, rfl⟩ := hn
    rw [bare, Node.bareOption, handler?_attribute, handler?_attribute, functionOf?_bare]
    split <;> rfl
  · have hnone : handler? n = none := by
      unfold handler?
      split
      · exact absurd ⟨_, _, rfl⟩ hn
      · rfl
    have hbare : handler? (n.bare false) = none := by
      cases n with
      | «attribute» name value =>
        cases value with
        | none => rfl
        | some value => exact absurd ⟨name, value, rfl⟩ hn
      | _ => rfl
    rw [hnone, hbare]
    rfl

/-- A request whose callbacks have no wrappers. -/
def Request.bare (r : Request) : Request :=
  { r with onSuccess := r.onSuccess.map (Node.bare true), onError := r.onError.map (Node.bare true) }

@[simp] theorem Request.endpoint_bare (line : Nat) (props : List String) (n : Option Node) :
    endpoint line props (n.map (Node.bare true)) = endpoint line props n := by
  cases n <;> simp [endpoint]

@[simp] theorem Request.method_bare (line : Nat) (n : Option Node) :
    method line (n.map (Node.bare true)) = method line n := by
  cases n <;> simp [method]

theorem Request.ofArguments_bare (arguments : List Node) (line : Nat) (props : List String) :
    Request.ofArguments (arguments.map (Node.bare true)) line props =
      Request.bare <$> Request.ofArguments arguments line props := by
  unfold Request.ofArguments
  rw [plainArguments_bare, bind_map_left, map_bind]
  refine bind_congr fun arguments => ?_
  match arguments with
  | [] => rfl
  | a :: b :: more => rfl
  | [config] =>
    simp only [List.map_cons, List.map_nil, objectMembers?_bare]
    cases objectMembers? config with
    | none => rfl
    | some members =>
      change (plainMembers "api.request()" line (members.map (Node.bare false)) _ >>= _) = _
      rw [show ([] : Fields Node) = Fields.mapValues (Node.bare true) [] from rfl, plainMembers_bare,
        bind_map_left, map_bind]
      refine bind_congr fun fields => ?_
      simp only [Fields.get?_mapValues, Fields.keys_mapValues, endpoint_bare, method_bare,
        Option.map_map, map_bind]
      refine bind_congr fun endpoint => bind_congr fun method => ?_
      have hvalue : staticValue props ∘ Node.bare true = staticValue props := by
        funext n
        simp
      split
      · rfl
      · simp only [hvalue]
        rfl

/-- A transaction whose parameters and statements have no wrappers. -/
def Transaction.bare (t : Transaction) : Transaction :=
  { t with params := t.params.map (Node.bare false), statements := t.statements.map (Node.bare false) }

theorem flatten_bare (ns : List Node) :
    flatten (ns.map (Node.bare false)) = (flatten ns).map (Node.bare false) := by
  fun_induction flatten ns with
  | case1 => simp [flatten]
  | case2 body more ihb ihm =>
    rw [List.map_cons, Node.bare, Node.bareAll_eq_map, flatten, ihb, ihm, List.map_append]
  | case3 n more hn ih =>
    rw [List.map_cons, flatten, ih, List.map_cons]
    intro body hb
    obtain ⟨b, rfl⟩ := Node.bare_eq_block hb
    exact hn b rfl

theorem bodyStatements_bare (body : Node) :
    bodyStatements (body.bare true) = (bodyStatements body).map (Node.bare false) := by
  by_cases hb : ∃ b, body = .block b
  · obtain ⟨b, rfl⟩ := hb
    simp [Node.bare, bodyStatements, flatten_bare]
  · rw [bodyStatements, bodyStatements]
    · rfl
    · exact fun b h => hb ⟨b, h⟩
    · exact fun b h => hb (Node.bare_eq_block h)

theorem Transaction.ofFunction_bare (line : Nat) (params : List Node) (body : Node) :
    ofFunction line (params.map (Node.bare false)) (body.bare true) =
      Transaction.bare <$> ofFunction line params body := by
  cases params with
  | nil => rfl
  | cons p more =>
    cases p with
    | identifier proxy =>
      have hproxy : (Node.identifier proxy).bare false = .identifier proxy := by simp [Node.bare]
      rw [List.map_cons, hproxy, ofFunction, ofFunction, bodyStatements_bare]
      change Except.ok _ = Except.ok (Transaction.bare _)
      rw [Transaction.bare, List.map_cons, hproxy]
    | _ => rfl

theorem Transaction.ofArguments_bare (arguments : List Node) (line : Nat) :
    ofArguments (arguments.map (Node.bare true)) line =
      Transaction.bare <$> ofArguments arguments line := by
  match arguments with
  | [] => rfl
  | a :: b :: more => rfl
  | [a] =>
    simp only [List.map_cons, List.map_nil, ofArguments, unwrap_bare]
    cases a.unwrap with
    | arrow params body line' => simp [Node.bare, ofFunction_bare]
    | function name params body line' => simp [Node.bare, ofFunction_bare]
    | _ => rfl

/-- A call of a method whose arguments have no wrappers. -/
def MethodCall.bare (c : MethodCall) : MethodCall :=
  { c with arguments := c.arguments.map (Node.bare true) }

theorem methodOn?_bare (proxy : String) (n : Node) :
    methodOn? proxy (n.bare false) = (methodOn? proxy n).map MethodCall.bare := by
  cases n with
  | call callee arguments line =>
    simp only [Node.bare, methodOn?, Callee.method?_bare, Node.bareAll_eq_map]
    cases Callee.method? callee with
    | none => rfl
    | some m =>
      obtain ⟨receiver, method⟩ := m
      cases receiver with
      | identifier name =>
        cases method with
        | none => rfl
        | some method =>
          simp only [Option.map_some, Node.bare]
          split <;> rfl
      | _ => rfl
  | _ => rfl

theorem mutationOn?_bare (proxy : String) (n : Node) :
    mutationOn? proxy (n.bare false) = (mutationOn? proxy n).map MethodCall.bare := by
  cases n with
  | expressionStatement e =>
    have hcall := methodOn?_bare proxy e.unwrap
    simp only [Node.bare, mutationOn?, unwrap_bare]
    cases he : e.unwrap with
    | await argument =>
      simp only [Node.bare, unwrap_bare]
      exact methodOn?_bare proxy argument.unwrap
    | _ =>
      rw [he] at hcall
      exact hcall
  | _ => rfl

namespace TestContext

variable {t : TestContext}

/-- A context that sees stores through wrappers. -/
def SeesThrough (t : TestContext) : Prop := ∀ v n, t.store? (n.bare v) = t.store? n

theorem seesThrough_tests (s : Scope) : s.tests.SeesThrough := fun v n => s.store?_bare v n

theorem literal?_bare (n : Node) : t.literal? (n.bare false) = t.literal? n := by
  cases n with
  | object members => exact congrArg some (staticValue_bare t.props false (.object members))
  | array elements => exact congrArg some (staticValue_bare t.props false (.array elements))
  | template quasis expressions =>
    exact congrArg (Option.map Value.string) (staticString?_bare false (.template quasis expressions))
  | _ => rfl

theorem read_bare (s : Store) (arguments : List Node) (line : Nat) :
    read s (arguments.map (bare true)) line = read s arguments line := by
  unfold read
  rw [onlyArgument?_bare]
  cases onlyArgument? arguments with
  | none => rfl
  | some a => simp only [Option.map_some, staticString?_bare]

theorem readStore?_bare (ht : t.SeesThrough) (n : Node) :
    t.readStore? (n.bare false) =
      (t.readStore? n).map fun (s, arguments, line) => (s, arguments.map (bare true), line) := by
  cases n with
  | call callee arguments line =>
    simp only [bare, readStore?, Callee.method?_bare, Node.bareAll_eq_map]
    cases Callee.method? callee with
    | none => rfl
    | some m =>
      obtain ⟨receiver, method⟩ := m
      by_cases hget : method = some "get"
      · subst hget
        simp only [Option.map_some, ht false receiver]
        cases t.store? receiver <;> rfl
      · simp [hget]
  | _ => rfl

theorem operand_bare (ht : t.SeesThrough) (v : Bool) (n : Node) :
    t.operand (n.bare v) = t.operand n := by
  unfold operand
  rw [unwrap_bare, readStore?_bare ht, literal?_bare]
  cases t.readStore? n.unwrap with
  | none => rfl
  | some r =>
    obtain ⟨s, arguments, line⟩ := r
    exact read_bare s arguments line

theorem compare_bare (ht : t.SeesThrough) (c : Comparison) (v w : Bool) (left right : Node) :
    t.compare c (left.bare v) (right.bare w) = t.compare c left right := by
  simp only [compare, operand_bare ht]

theorem truthy_bare (ht : t.SeesThrough) (v : Bool) (n : Node) :
    t.truthy (n.bare v) = t.truthy n := by
  simp only [truthy, operand_bare ht]

@[simp] theorem membership?_bare (v : Bool) (callee : Node) :
    membership? (callee.bare v) =
      (membership? callee).map fun (c, method, receiver) => (c, method, receiver.bare false) := by
  simp only [membership?, Callee.method?_bare]
  cases Callee.method? callee with
  | none => rfl
  | some m =>
    obtain ⟨receiver, method⟩ := m
    cases method with
    | none => rfl
    | some method =>
      simp only [Option.map_some]
      cases Comparison.ofMethod? method <;> rfl

theorem condition_bare (ht : t.SeesThrough) (n : Node) :
    ∀ v, t.condition (n.bare v) = t.condition n := by
  induction n using condition.induct with
  | case1 e ih =>
    intro v
    rw [bare]
    split <;> simp only [condition, ih]
  | case2 e ih =>
    intro v
    rw [bare]
    split <;> simp only [condition, ih]
  | case3 e ih =>
    intro v
    simp only [bare, condition, ih]
  | case4 operator left right c hc =>
    intro v
    simp only [bare, condition, hc, compare_bare ht]
  | case5 operator left right j hj hc ihl ihr =>
    intro v
    simp only [bare, condition, hc, hj, ihl, ihr]
  | case6 operator left right hj hc =>
    intro v
    have htruthy := truthy_bare ht v (.binary operator left right)
    simp only [bare] at htruthy
    simp only [bare, condition, hc, hj, htruthy]
  | case7 argument ih =>
    intro v
    simp only [bare, condition, if_true, ih]
  | case8 operator argument ho =>
    intro v
    have htruthy := truthy_bare ht v (.unary operator argument)
    simp only [bare] at htruthy
    simp only [bare, condition, if_neg ho, htruthy]
  | case9 callee arguments line c method receiver hm a ha =>
    intro v
    simp only [bare, condition, membership?_bare, hm, Option.map_some, Node.bareAll_eq_map,
      onlyArgument?_bare, ha, compare_bare ht]
  | case10 callee arguments line c method receiver hm ha =>
    intro v
    simp only [bare, condition, membership?_bare, hm, Option.map_some, Node.bareAll_eq_map,
      onlyArgument?_bare, ha, Option.map_none]
  | case11 callee arguments line hm =>
    intro v
    have htruthy := truthy_bare ht v (.call callee arguments line)
    simp only [bare] at htruthy
    simp only [bare, condition, membership?_bare, hm, Option.map_none, htruthy]
  | case12 n hp ha hc hb hu hcall =>
    intro v
    have htruthy := truthy_bare ht v n
    cases n <;> simp_all [bare, condition]

end TestContext

end Scenario

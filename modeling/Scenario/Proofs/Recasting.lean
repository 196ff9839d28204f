import Scenario.Proofs.WrappedReadings

namespace Scenario

open Syntax

/-- What becomes of a call: of its callee, and of its arguments by its callee. -/
structure Recall where
  callee : Node → Node := id
  arguments : Node → List Node → List Node := fun _ arguments => arguments

namespace Syntax.Node

mutual

/-- A node with all calls in it changed. -/
def recast (k : Recall) : Node → Node
  | .template quasis expressions => .template quasis (recastAll k expressions)
  | .property key value => .property (recast k key) (recast k value)
  | .spread argument => .spread (recast k argument)
  | .object properties => .object (recastAll k properties)
  | .array elements => .array (recastAll k elements)
  | .parenthesized e => .parenthesized (recast k e)
  | .assertion e => .assertion (recast k e)
  | .member base name computed => .member (recast k base) (recast k name) computed
  | .call callee arguments line =>
    .call (k.callee (recast k callee)) (k.arguments (recast k callee) (recastAll k arguments)) line
  | .unary operator argument => .unary operator (recast k argument)
  | .binary operator left right => .binary operator (recast k left) (recast k right)
  | .await argument => .await (recast k argument)
  | .arrow params body line => .arrow (recastAll k params) (recast k body) line
  | .function name params body line => .function name (recastAll k params) (recast k body) line
  | .attribute name value => .attribute name (recastOption k value)
  | .spreadAttribute argument => .spreadAttribute (recast k argument)
  | .container e => .container (recast k e)
  | .element name attributes children line =>
    .element name (recastAll k attributes) (recastAll k children) line
  | .fragment children line => .fragment (recastAll k children) line
  | .block body => .block (recastAll k body)
  | .expressionStatement e => .expressionStatement (recast k e)
  | .returnStatement argument => .returnStatement (recastOption k argument)
  | .ifStatement test consequent alternate =>
    .ifStatement (recast k test) (recast k consequent) (recastOption k alternate)
  | .switchCase test body => .switchCase (recastOption k test) (recastAll k body)
  | .switchStatement discriminant cases =>
    .switchStatement (recast k discriminant) (recastAll k cases)
  | .declarator target init => .declarator (recast k target) (recastOption k init)
  | .variableDeclaration kind declarations => .variableDeclaration kind (recastAll k declarations)
  | .functionDeclaration name params body line =>
    .functionDeclaration name (recastAll k params) (recast k body) line
  | .exportNamed declaration specifiers =>
    .exportNamed (recastOption k declaration) (recastAll k specifiers)
  | .exportDefault declaration => .exportDefault (recast k declaration)
  | .unsupported kind parts line => .unsupported kind (recastAll k parts) line
  | .program body => .program (recastAll k body)
  | n => n

def recastOption (k : Recall) : Option Node → Option Node
  | none => none
  | some n => some (recast k n)

def recastAll (k : Recall) : List Node → List Node
  | [] => []
  | n :: more => recast k n :: recastAll k more

end

variable (k : Recall)

@[simp] theorem recastOption_eq_map (n : Option Node) : recastOption k n = n.map (recast k) := by
  cases n <;> rfl

@[simp] theorem recastAll_eq_map (ns : List Node) : recastAll k ns = ns.map (recast k) := by
  induction ns with
  | nil => rfl
  | cons n more ih => rw [recastAll, ih, List.map_cons]

section

attribute [local simp] recast

/-- The parts of a node that is no call are changed one by one. -/
theorem fields_recast {n : Node} (h : ∀ callee arguments line, n ≠ .call callee arguments line) :
    (n.recast k).fields = n.fields.map (recast k) := by
  cases n with
  | call callee arguments line => exact absurd rfl (h callee arguments line)
  | _ => simp [fields, Option.toList_map]

end

theorem unwrap_recast (n : Node) : (n.recast k).unwrap = n.unwrap.recast k := by
  fun_induction unwrap n with
  | case1 e ih | case2 e ih | case3 e ih =>
    rw [recast, unwrap]
    exact ih
  | case4 n hp ha hc =>
    cases n with
    | parenthesized e => exact absurd rfl (hp e)
    | assertion e => exact absurd rfl (ha e)
    | container e => exact absurd rfl (hc e)
    | _ => rfl

@[simp] theorem isAbsent_recast (n : Node) : (n.recast k).isAbsent = n.isAbsent := by
  cases n <;> rfl

@[simp] theorem isSpread_recast (n : Node) : isSpread (n.recast k) = isSpread n := by
  cases n <;> rfl

@[simp] theorem patternNames_recast (n : Node) : (n.recast k).patternNames = n.patternNames := by
  cases n <;> rfl

@[simp] theorem staticString?_recast (n : Node) : (n.recast k).staticString? = n.staticString? := by
  unfold staticString?
  rw [unwrap_recast]
  cases n.unwrap with
  | template quasis expressions => cases expressions <;> rfl
  | _ => rfl

@[simp] theorem propertyName?_recast (base name : Node) (computed : Bool) :
    (Node.member (base.recast k) (name.recast k) computed).propertyName? =
      (Node.member base name computed).propertyName? := by
  cases computed with
  | true => simp [propertyName?]
  | false => cases name <;> rfl

theorem recast_eq_block {n : Node} {body : List Node} (h : n.recast k = .block body) :
    ∃ b, n = .block b := by
  cases n with
  | block b => exact ⟨b, rfl⟩
  | _ => cases h

theorem children_recast_of_fields {n : Node} (h : (n.recast k).fields = n.fields.map (recast k)) :
    (n.recast k).children = n.children.map (recast k) := by
  rw [children, h, List.filter_map, children]
  congr 2
  funext c
  simp

end Syntax.Node

open Syntax.Node (recast unwrap_recast staticString?_recast propertyName?_recast)

variable (k : Recall)

@[simp] theorem memberName_recast (key : Node) : memberName (key.recast k) = memberName key := by
  cases key <;> rfl

namespace Callee

@[simp] theorem identifier?_recast (c : Node) : identifier? (c.recast k) = identifier? c := by
  unfold identifier?
  rw [unwrap_recast]
  cases c.unwrap <;> rfl

@[simp] theorem isStoreFactory_recast (c : Node) : isStoreFactory (c.recast k) = isStoreFactory c := by
  rw [isStoreFactory, identifier?_recast, isStoreFactory]

@[simp] theorem method?_recast (c : Node) :
    method? (c.recast k) = (method? c).map fun (receiver, method) => (receiver.recast k, method) := by
  unfold method?
  rw [unwrap_recast]
  cases c.unwrap <;> simp [recast, unwrap_recast]

end Callee

/-- The three functions that read values. A call has none. -/
theorem static_recast (props : List String) :
    (∀ n, staticValue props (n.recast k) = staticValue props n) ∧
      (∀ ns, staticElements props (ns.map (recast k)) = staticElements props ns) ∧
      ∀ ns acc, staticMembers props (ns.map (recast k)) acc = staticMembers props ns acc := by
  refine staticValue.mutual_induct props
    (fun n => staticValue props (n.recast k) = staticValue props n)
    (fun ns => staticElements props (ns.map (recast k)) = staticElements props ns)
    (fun ns acc => staticMembers props (ns.map (recast k)) acc = staticMembers props ns acc)
    ?_ ?_ ?_ ?_ ?_ ?_ ?_ ?_ ?_ ?_ ?_ ?_ ?_ ?_ ?_ ?_ ?_
  · intro s
    rfl
  · intro n
    rfl
  · intro b
    rfl
  · intro name _
    rfl
  · intro name _
    rfl
  · intro e ih
    rw [recast, staticValue, staticValue, ih]
  · intro e ih
    rw [recast, staticValue, staticValue, ih]
  · intro e ih
    rw [recast, staticValue, staticValue, ih]
  · intro members ih
    rw [recast, Node.recastAll_eq_map, staticValue, staticValue, ih]
  · intro elements ih
    rw [recast, Node.recastAll_eq_map, staticValue, staticValue, ih]
  · intro n hs hn hb hi hc hp ha ho hl
    cases n with
    | string value => exact absurd rfl (hs value)
    | number value => exact absurd rfl (hn value)
    | boolean value => exact absurd rfl (hb value)
    | identifier name => exact absurd rfl (hi name)
    | container e => exact absurd rfl (hc e)
    | parenthesized e => exact absurd rfl (hp e)
    | assertion e => exact absurd rfl (ha e)
    | object members => exact absurd rfl (ho members)
    | array elements => exact absurd rfl (hl elements)
    | _ => rfl
  · rfl
  · intro argument rest ih
    simp [staticElements_cons, isSpread, recast, ih]
  · intro e rest he ihe ihr
    simp [staticElements_cons, ihe, ihr]
  · intro acc
    rfl
  · intro key value rest acc ihv ihr
    rw [List.map_cons, recast, staticMembers, memberName_recast, ihv, ihr, staticMembers]
  · intro head rest acc hh ihr
    rw [List.map_cons, staticMembers, staticMembers, ihr]
    · exact hh
    · intro key value hk
      cases head with
      | property k v => exact hh k v rfl
      | _ => cases hk

@[simp] theorem staticValue_recast (props : List String) (n : Node) :
    staticValue props (n.recast k) = staticValue props n :=
  (static_recast k props).1 n

theorem plainArguments_recast (call : String) (arguments : List Node) (line : Nat) :
    plainArguments call (arguments.map (recast k)) line =
      (List.map (recast k)) <$> plainArguments call arguments line := by
  have hany : (arguments.map (recast k)).any isSpread = arguments.any isSpread := by
    simp [List.any_map, Function.comp_def]
  unfold plainArguments
  rw [hany]
  split <;> rfl

theorem plainMembers_recast (call : String) (line : Nat) (ms : List Node) (acc : Fields Node) :
    plainMembers call line (ms.map (recast k)) (acc.mapValues (recast k)) =
      Fields.mapValues (recast k) <$> plainMembers call line ms acc := by
  fun_induction plainMembers call line ms acc with
  | case1 acc => rfl
  | case2 acc key value more ih =>
    rw [List.map_cons, recast, plainMembers, memberName_recast, Fields.put_mapValues, ih]
  | case3 m more acc hm =>
    rw [List.map_cons, plainMembers]
    · rfl
    · intro key value hk
      cases m with
      | property k v => exact hm k v rfl
      | _ => cases hk

/-- The members of a literal that is read into no others. -/
theorem plainMembers_nil_recast (call : String) (line : Nat) (ms : List Node) :
    plainMembers call line (ms.map (recast k)) [] =
      Fields.mapValues (recast k) <$> plainMembers call line ms [] :=
  plainMembers_recast k call line ms []

@[simp] theorem objectMembers?_recast (n : Node) :
    objectMembers? (n.recast k) = (objectMembers? n).map (List.map (recast k)) := by
  unfold objectMembers?
  rw [unwrap_recast]
  cases n.unwrap <;> simp [recast]

@[simp] theorem onlyArgument?_recast (arguments : List Node) :
    onlyArgument? (arguments.map (recast k)) = (onlyArgument? arguments).map (recast k) := by
  match arguments with
  | [] => rfl
  | [a] =>
    simp only [List.map_cons, List.map_nil, onlyArgument?, Node.isSpread_recast]
    split <;> rfl
  | a :: b :: more => rfl

@[simp] theorem argumentValue_recast (call : String) (line : Nat) (props : List String) (name : String)
    (argument : Node) :
    argumentValue call line props name (argument.recast k) =
      argumentValue call line props name argument := by
  simp [argumentValue]

theorem positionalValues_recast (call : String) (line : Nat) (props names : List String)
    (arguments : List Node) (acc : Fields Value) :
    positionalValues call line props (names.zip (arguments.map (recast k))) acc =
      positionalValues call line props (names.zip arguments) acc := by
  induction names generalizing arguments acc with
  | nil => rfl
  | cons name more ih =>
    cases arguments with
    | nil => rfl
    | cons a rest =>
      simp only [List.map_cons, List.zip_cons_cons, positionalValues, argumentValue_recast, ih]

theorem withOptions_recast (shape : EffectShape) (call : String) (line : Nat) (props : List String)
    (arguments : List Node) (payload : Fields Value) :
    withOptions shape call line props (arguments.map (recast k)) payload =
      withOptions shape call line props arguments payload := by
  unfold withOptions
  rw [List.getLast?_map, List.length_map]
  cases shape.options with
  | none => rfl
  | some name =>
    cases arguments.getLast? with
    | none => rfl
    | some last =>
      simp only [Option.map_some, objectMembers?_recast]
      split
      · cases objectMembers? last with
        | none => rfl
        | some members =>
          simp only [Option.map_some, plainMembers_nil_recast, bind_map_left]
          refine bind_congr fun options => ?_
          simp [Fields.mapValues, Function.comp_def]
      · rfl

theorem effectPayload_recast (shape : EffectShape) (call : String) (arguments : List Node) (line : Nat)
    (props : List String) :
    effectPayload shape call (arguments.map (recast k)) line props =
      effectPayload shape call arguments line props := by
  rw [effectPayload_eq, effectPayload_eq, plainArguments_recast, bind_map_left]
  simp only [List.length_map, positionalValues_recast, withOptions_recast]

@[simp] theorem settingText?_recast (type : String) (n : Node) :
    settingText? type (n.recast k) = settingText? type n := by
  unfold settingText?
  rw [unwrap_recast, staticString?_recast]
  congr 1
  cases n.unwrap with
  | member base name computed =>
    simp only [recast, unwrap_recast, propertyName?_recast]
    cases base.unwrap <;> rfl
  | _ => rfl

@[simp] theorem settingValue_recast {α : Type} (setting type : String) (ofName? : String → Option α)
    (allowed : List String) (line : Nat) (n : Node) :
    settingValue setting type ofName? allowed line (n.recast k) =
      settingValue setting type ofName? allowed line n := by
  simp only [settingValue, settingText?_recast]

@[simp] theorem initialFields_recast (props : List String) (line : Nat) (n : Node) :
    initialFields props line (n.recast k) = initialFields props line n := by
  simp only [initialFields, staticValue_recast]

@[simp] theorem Store.ofArguments_recast (arguments : List Node) (line : Nat) (props : List String) :
    Store.ofArguments (arguments.map (recast k)) line props = Store.ofArguments arguments line props := by
  unfold Store.ofArguments
  rw [plainArguments_recast, bind_map_left]
  refine bind_congr fun arguments => ?_
  cases arguments with
  | nil => rfl
  | cons config more =>
    simp only [List.map_cons, objectMembers?_recast]
    cases objectMembers? config with
    | none => rfl
    | some members =>
      simp only [Option.map_some, plainMembers_nil_recast, bind_map_left]
      refine bind_congr fun fields => ?_
      simp only [Fields.get?_mapValues]
      cases fields.get? "scope" <;> cases fields.get? "storage" <;>
        cases fields.get? "initialValue" <;>
        simp only [Option.map_some, Option.map_none, settingValue_recast, initialFields_recast]

@[simp] theorem functionOf?_recast (n : Node) :
    functionOf? (n.recast k) =
      (functionOf? n).map fun (params, body) => (params.map (recast k), body.recast k) := by
  unfold functionOf?
  rw [unwrap_recast]
  cases n.unwrap <;> simp [recast]

@[simp] theorem handler?_recast (n : Node) :
    handler? (n.recast k) =
      (handler? n).map fun (params, body) => (params.map (recast k), body.recast k) := by
  cases n with
  | «attribute» name value =>
    cases value with
    | none => rfl
    | some value =>
      rw [recast, Node.recastOption, handler?_attribute, handler?_attribute, functionOf?_recast]
      split <;> rfl
  | _ => rfl

/-- A request whose callbacks are changed. -/
def Request.recast (r : Request) : Request :=
  { r with onSuccess := r.onSuccess.map (Node.recast k), onError := r.onError.map (Node.recast k) }

@[simp] theorem Request.endpoint_recast (line : Nat) (props : List String) (n : Option Node) :
    endpoint line props (n.map (Node.recast k)) = endpoint line props n := by
  cases n <;> simp [endpoint]

@[simp] theorem Request.method_recast (line : Nat) (n : Option Node) :
    method line (n.map (Node.recast k)) = method line n := by
  cases n <;> simp [method]

theorem Request.ofArguments_recast (arguments : List Node) (line : Nat) (props : List String) :
    Request.ofArguments (arguments.map (Node.recast k)) line props =
      Request.recast k <$> Request.ofArguments arguments line props := by
  have hvalue : staticValue props ∘ Node.recast k = staticValue props := by
    funext n
    simp
  unfold Request.ofArguments
  rw [plainArguments_recast, bind_map_left, map_bind]
  refine bind_congr fun arguments => ?_
  match arguments with
  | [] => rfl
  | a :: b :: more => rfl
  | [config] =>
    simp only [List.map_cons, List.map_nil, objectMembers?_recast]
    cases objectMembers? config with
    | none => rfl
    | some members =>
      simp only [Option.map_some, plainMembers_nil_recast, bind_map_left, map_bind]
      refine bind_congr fun fields => ?_
      simp only [Fields.get?_mapValues, Fields.keys_mapValues, endpoint_recast, method_recast,
        Option.map_map]
      refine bind_congr fun endpoint => bind_congr fun method => ?_
      split
      · rfl
      · simp only [hvalue]
        rfl

/-- A transaction whose parameters and statements are changed. -/
def Transaction.recast (t : Transaction) : Transaction :=
  { t with params := t.params.map (Node.recast k), statements := t.statements.map (Node.recast k) }

theorem flatten_recast (ns : List Node) :
    flatten (ns.map (Node.recast k)) = (flatten ns).map (Node.recast k) := by
  fun_induction flatten ns with
  | case1 => simp [flatten]
  | case2 body more ihb ihm =>
    rw [List.map_cons, Node.recast, Node.recastAll_eq_map, flatten, ihb, ihm, List.map_append]
  | case3 n more hn ih =>
    rw [List.map_cons, flatten, ih, List.map_cons]
    intro body hb
    obtain ⟨b, rfl⟩ := Node.recast_eq_block k hb
    exact hn b rfl

theorem bodyStatements_recast (body : Node) :
    bodyStatements (body.recast k) = (bodyStatements body).map (Node.recast k) := by
  cases body with
  | block b => simp [Node.recast, bodyStatements, flatten_recast]
  | _ => rfl

theorem Transaction.ofFunction_recast (line : Nat) (params : List Node) (body : Node) :
    ofFunction line (params.map (Node.recast k)) (body.recast k) =
      Transaction.recast k <$> ofFunction line params body := by
  cases params with
  | nil => rfl
  | cons p more =>
    cases p with
    | identifier proxy =>
      have hproxy : (Node.identifier proxy).recast k = .identifier proxy := rfl
      rw [List.map_cons, hproxy, ofFunction, ofFunction, bodyStatements_recast]
      rfl
    | _ => rfl

theorem Transaction.ofArguments_recast (arguments : List Node) (line : Nat) :
    ofArguments (arguments.map (Node.recast k)) line =
      Transaction.recast k <$> ofArguments arguments line := by
  match arguments with
  | [] => rfl
  | a :: b :: more => rfl
  | [a] =>
    simp only [List.map_cons, List.map_nil, ofArguments, unwrap_recast]
    cases a.unwrap with
    | arrow params body line' => simp [Node.recast, ofFunction_recast]
    | function name params body line' => simp [Node.recast, ofFunction_recast]
    | _ => rfl

theorem exits_recast (n : Node) : exits (n.recast k) = exits n := by
  refine (exits.mutual_induct (fun n => exits (n.recast k) = exits n)
    (fun n => exitsOption (n.map (recast k)) = exitsOption n)
    (fun ns => exitsAny (ns.map (recast k)) = exitsAny ns) ?_ ?_ ?_ ?_ ?_ ?_ ?_ ?_ ?_).1 n
  · rfl
  · intro argument
    rfl
  · intro body ih
    simpa [recast, exits] using ih
  · intro test consequent alternate ihc iha
    simp only [recast, exits, Node.recastOption_eq_map, ihc, iha]
  · intro n hk hr hb hi
    cases n with
    | breakStatement => exact absurd rfl hk
    | returnStatement argument => exact absurd rfl (hr argument)
    | block body => exact absurd rfl (hb body)
    | ifStatement test consequent alternate => exact absurd rfl (hi test consequent alternate)
    | _ => rfl
  · rfl
  · intro n more ihn ihm
    simp only [List.map_cons, exitsAny, ihn, ihm]
  · rfl
  · intro n ih
    exact ih

theorem caseFlow?_recast (ns : List Node) :
    caseFlow? (ns.map (recast k)) =
      (caseFlow? ns).map fun (run, leaves) => (run.map (recast k), leaves) := by
  induction ns using caseFlow?.induct with
  | case1 => simp [caseFlow?]
  | case2 more => simp [recast, caseFlow?]
  | case3 e more => simp [recast, caseFlow?]
  | case4 body more hb ih => simp [recast, caseFlow?, ih, hb]
  | case5 body more run hb ih => simp [recast, caseFlow?, ih, hb]
  | case6 body more run hb ihb ihm =>
    simp only [List.map_cons, recast, Node.recastAll_eq_map, caseFlow?, ihb, hb, Option.map_some, ihm]
    cases caseFlow? more <;> simp [recast]
  | case7 test consequent alternate more he =>
    have he' := (exits_recast k (.ifStatement test consequent alternate)).trans he
    simp only [recast] at he'
    simp only [List.map_cons, recast, caseFlow?, he, he', if_true, Option.map_none]
  | case8 test consequent alternate more he ih =>
    have he' := (exits_recast k (.ifStatement test consequent alternate)).trans (by simpa using he)
    simp only [recast] at he'
    simp only [List.map_cons, recast, caseFlow?, he, he', Bool.false_eq_true, if_false, ih]
    cases caseFlow? more <;> simp [recast]
  | case9 n more hb hr hk hi ih =>
    have hflow : caseFlow? (n.recast k :: more.map (recast k)) =
        (caseFlow? (more.map (recast k))).map fun (run, leaves) => (n.recast k :: run, leaves) := by
      rw [caseFlow?]
      · intro h
        cases n with
        | breakStatement => exact hb rfl
        | _ => cases h
      · intro e h
        cases n with
        | returnStatement argument => exact hr argument rfl
        | _ => cases h
      · intro body h
        obtain ⟨b, rfl⟩ := Node.recast_eq_block k h
        exact hk b rfl
      · intro test consequent alternate h
        cases n with
        | ifStatement test consequent alternate => exact hi test consequent alternate rfl
        | _ => cases h
    rw [List.map_cons, hflow, ih, caseFlow?]
    · cases caseFlow? more <;> rfl
    · exact hb
    · exact hr
    · exact hk
    · exact hi

theorem caseBody_recast (c : Node) : caseBody (c.recast k) = (caseBody c).map (recast k) := by
  cases c with
  | switchCase test body => simp [recast, caseBody]
  | _ => rfl

theorem caseTest_recast (c : Node) : caseTest (c.recast k) = (caseTest c).map (recast k) := by
  cases c with
  | switchCase test body => simp [recast, caseTest]
  | _ => rfl

theorem caseRun?_recast (cs : List Node) :
    caseRun? (cs.map (recast k)) = (caseRun? cs).map (List.map (recast k)) := by
  induction cs with
  | nil => rfl
  | cons c more ih =>
    simp only [List.map_cons, caseRun?, caseBody_recast, caseFlow?_recast, ih]
    cases caseFlow? (caseBody c) with
    | none => rfl
    | some flow =>
      obtain ⟨run, leaves⟩ := flow
      cases leaves with
      | true => rfl
      | false => cases caseRun? more <;> simp

/-- The methods that stores are read and tests are made by. -/
def isReadingMethod (method : String) : Bool :=
  method == "get" || (Comparison.ofMethod? method).isSome

namespace Callee

/-- The receiver and the method of a callee by which a store is read or a test is made. -/
def reading? (c : Node) : Option (Node × String) :=
  (method? c).bind fun (receiver, method) => (method.filter isReadingMethod).map (receiver, ·)

theorem reading?_eq_some_iff {c receiver : Node} {method : String} :
    reading? c = some (receiver, method) ↔
      isReadingMethod method = true ∧ method? c = some (receiver, some method) := by
  rcases h : method? c with _ | ⟨receiver', _ | method'⟩
  · simp [reading?, h]
  · simp [reading?, h]
  · simp only [reading?, h, Option.bind_some, Option.filter, Option.some.injEq, Prod.mk.injEq]
    cases hr : isReadingMethod method' <;> simp
    · rintro hm - rfl
      rw [hr] at hm
      cases hm
    · rintro - rfl
      exact hr

theorem membership?_eq (c : Node) :
    TestContext.membership? c = (reading? c).bind fun (receiver, method) =>
      (Comparison.ofMethod? method).map fun c => (c, method, receiver) := by
  unfold TestContext.membership?
  rcases h : method? c with _ | ⟨receiver, _ | method⟩
  · simp [reading?, h]
  · simp [reading?, h]
  · cases hc : Comparison.ofMethod? method with
    | none => cases hr : isReadingMethod method <;> simp [reading?, h, Option.filter, hr, hc]
    | some c =>
      have hr : isReadingMethod method = true := by simp [isReadingMethod, hc]
      simp [reading?, h, Option.filter, hr, hc]

end Callee

theorem TestContext.readStore?_call (t : TestContext) (callee : Node) (arguments : List Node)
    (line : Nat) :
    t.readStore? (.call callee arguments line) = (Callee.reading? callee).bind fun (receiver, method) =>
      if method = "get" then (t.store? receiver).map fun s => (s, arguments, line) else none := by
  unfold TestContext.readStore?
  rcases h : Callee.method? callee with _ | ⟨receiver, _ | method⟩
  · simp [Callee.reading?, h]
  · simp [Callee.reading?, h]
  · by_cases hget : method = "get"
    · subst hget
      have hr : isReadingMethod "get" = true := rfl
      simp [Callee.reading?, h, Option.filter, hr]
    · cases hr : isReadingMethod method <;> simp [Callee.reading?, h, Option.filter, hr, hget]

namespace Recall

/-- Calls that declare a store, read one or make a test stay as they are, and there are no others in the
end. -/
structure Lawful (k : Recall) : Prop where
  isStoreFactory (c : Node) : Callee.isStoreFactory (k.callee c) = Callee.isStoreFactory c
  declaration {c : Node} (arguments : List Node) : Callee.isStoreFactory c = true →
    k.arguments c arguments = arguments
  method {c receiver : Node} {method : String} : isReadingMethod method = true →
    (Callee.method? (k.callee c) = some (receiver, some method) ↔
      Callee.method? c = some (receiver, some method))
  reading {c receiver : Node} {method : String} (arguments : List Node) :
    isReadingMethod method = true → Callee.method? c = some (receiver, some method) →
    k.arguments c arguments = arguments

end Recall

variable {k} (hk : k.Lawful)
include hk

theorem Callee.reading?_recast (c : Node) :
    reading? (k.callee (c.recast k)) =
      (reading? c).map fun (receiver, method) => (receiver.recast k, method) := by
  refine Option.ext fun x => ?_
  obtain ⟨receiver, method⟩ := x
  rw [reading?_eq_some_iff, and_congr_right fun hr => hk.method hr, method?_recast,
    Option.map_eq_some_iff, Option.map_eq_some_iff]
  constructor
  · rintro ⟨hr, ⟨receiver', method'⟩, hc, heq⟩
    cases heq
    exact ⟨(receiver', method), reading?_eq_some_iff.2 ⟨hr, hc⟩, rfl⟩
  · rintro ⟨⟨receiver', method'⟩, hc, heq⟩
    cases heq
    obtain ⟨hr, hc⟩ := reading?_eq_some_iff.1 hc
    exact ⟨hr, (receiver', some method), hc, rfl⟩

theorem Callee.arguments_of_reading? {c : Node} {r : Node × String} (h : reading? c = some r)
    (arguments : List Node) : k.arguments (c.recast k) arguments = arguments := by
  obtain ⟨receiver, method⟩ := r
  obtain ⟨hr, hc⟩ := reading?_eq_some_iff.1 h
  exact hk.reading arguments hr (by rw [method?_recast, hc]; rfl)

namespace Scope

variable (s : Scope)

theorem store?_recast (n : Node) : s.store? (n.recast k) = s.store? n := by
  unfold store?
  rw [unwrap_recast]
  cases n.unwrap with
  | call callee arguments line =>
    simp only [recast, hk.isStoreFactory, Callee.isStoreFactory_recast]
    cases hf : Callee.isStoreFactory callee with
    | false => simp
    | true =>
      have hf' : Callee.isStoreFactory (callee.recast k) = true := by simpa using hf
      simp [hk.declaration _ hf']
  | _ => rfl

theorem hoistDeclarators_recast (ns : List Node) :
    hoistDeclarators (ns.map (recast k)) s = hoistDeclarators ns s := by
  induction ns generalizing s with
  | nil => rfl
  | cons n more ih =>
    cases n with
    | declarator target init =>
      have hinit : (init.map (recast k)).bind s.store? = init.bind s.store? := by
        cases init <;> simp [s.store?_recast hk]
      cases target <;> simp [recast, hoistDeclarators, hinit, ih, Node.patternNames]
    | _ => exact ih s

theorem hoistDeclaration_recast (n : Node) :
    s.hoistDeclaration (n.recast k) = s.hoistDeclaration n := by
  cases n with
  | variableDeclaration kind ds => simp [recast, hoistDeclaration, hoistDeclarators_recast hk]
  | _ => rfl

theorem hoistStatement_recast (n : Node) :
    s.hoistStatement (n.recast k) = s.hoistStatement n := by
  have hdeclaration := s.hoistDeclaration_recast hk n
  cases n with
  | exportNamed declaration specifiers =>
    cases declaration with
    | none => rfl
    | some d => exact s.hoistDeclaration_recast hk d
  | _ => exact hdeclaration

theorem hoist_recast (ns : List Node) : s.hoist (ns.map (recast k)) = s.hoist ns := by
  simp [hoist, List.foldl_map, hoistStatement_recast hk]

omit hk in
@[simp] theorem function_recast (params : List Node) :
    s.function (params.map (recast k)) = s.function params := by
  have hnames : (params.map (recast k)).flatMap Node.patternNames =
      params.flatMap Node.patternNames := by
    simp [List.flatMap_map]
  simp only [function, hnames]

theorem within_recast (n : Node) : s.within (n.recast k) = s.within n := by
  cases n with
  | call callee arguments line => simp [recast, within, hk.isStoreFactory]
  | _ => rfl

theorem classifyMethod_recast (receiver : Node) (method : Option String) :
    s.classifyMethod (receiver.recast k) method = s.classifyMethod receiver method := by
  unfold classifyMethod
  rw [store?_recast hk]
  cases receiver <;> rfl

end Scope

namespace TestContext

variable {t : TestContext}

omit hk in
theorem literal?_recast (n : Node) : t.literal? (n.recast k) = t.literal? n := by
  cases n with
  | object members => exact congrArg some (staticValue_recast k t.props (.object members))
  | array elements => exact congrArg some (staticValue_recast k t.props (.array elements))
  | template quasis expressions =>
    exact congrArg (Option.map Value.string) (staticString?_recast k (.template quasis expressions))
  | _ => rfl

omit hk in
theorem read_recast (s : Store) (arguments : List Node) (line : Nat) :
    read s (arguments.map (recast k)) line = read s arguments line := by
  unfold read
  rw [onlyArgument?_recast]
  cases onlyArgument? arguments with
  | none => rfl
  | some a => simp only [Option.map_some, staticString?_recast]

/-- A context that sees the same stores. -/
def Sees (k : Recall) (t : TestContext) : Prop := ∀ n : Node, t.store? (n.recast k) = t.store? n

theorem sees_tests (s : Scope) : s.tests.Sees k := s.store?_recast hk

theorem readStore?_recast (ht : t.Sees k) (n : Node) :
    t.readStore? (n.recast k) =
      (t.readStore? n).map fun (s, arguments, line) => (s, arguments.map (recast k), line) := by
  cases n with
  | call callee arguments line =>
    rw [recast, Node.recastAll_eq_map, readStore?_call, readStore?_call, Callee.reading?_recast hk]
    cases h : Callee.reading? callee with
    | none => rfl
    | some r =>
      simp only [Option.map_some, Option.bind_some, Callee.arguments_of_reading? hk h, ht r.1]
      split
      · cases t.store? r.1 <;> rfl
      · rfl
  | _ => rfl

theorem operand_recast (ht : t.Sees k) (n : Node) : t.operand (n.recast k) = t.operand n := by
  unfold operand
  rw [unwrap_recast, readStore?_recast hk ht, literal?_recast]
  cases t.readStore? n.unwrap with
  | none => rfl
  | some r =>
    obtain ⟨s, arguments, line⟩ := r
    exact read_recast s arguments line

theorem compare_recast (ht : t.Sees k) (c : Comparison) (left right : Node) :
    t.compare c (left.recast k) (right.recast k) = t.compare c left right := by
  simp only [compare, operand_recast hk ht]

theorem truthy_recast (ht : t.Sees k) (n : Node) : t.truthy (n.recast k) = t.truthy n := by
  simp only [truthy, operand_recast hk ht]

theorem membership?_recast (callee : Node) :
    membership? (k.callee (callee.recast k)) =
      (membership? callee).map fun (c, method, receiver) => (c, method, receiver.recast k) := by
  rw [Callee.membership?_eq, Callee.membership?_eq, Callee.reading?_recast hk]
  cases Callee.reading? callee with
  | none => rfl
  | some r =>
    obtain ⟨receiver, method⟩ := r
    simp only [Option.map_some, Option.bind_some]
    cases Comparison.ofMethod? method <;> rfl

theorem arguments_of_membership? {callee : Node} {m : Comparison × String × Node}
    (h : membership? callee = some m) (arguments : List Node) :
    k.arguments (callee.recast k) arguments = arguments := by
  rw [Callee.membership?_eq] at h
  obtain ⟨r, hr, -⟩ := Option.bind_eq_some_iff.1 h
  exact Callee.arguments_of_reading? hk hr arguments

theorem condition_recast (ht : t.Sees k) (n : Node) :
    t.condition (n.recast k) = t.condition n := by
  induction n using condition.induct with
  | case1 e ih | case2 e ih | case3 e ih => simp only [recast, condition, ih]
  | case4 operator left right c hc => simp only [recast, condition, hc, compare_recast hk ht]
  | case5 operator left right j hj hc ihl ihr => simp only [recast, condition, hc, hj, ihl, ihr]
  | case6 operator left right hj hc =>
    have htruthy := truthy_recast hk ht (.binary operator left right)
    simp only [recast] at htruthy
    simp only [recast, condition, hc, hj, htruthy]
  | case7 argument ih => simp only [recast, condition, if_true, ih]
  | case8 operator argument ho =>
    have htruthy := truthy_recast hk ht (.unary operator argument)
    simp only [recast] at htruthy
    simp only [recast, condition, if_neg ho, htruthy]
  | case9 callee arguments line c method receiver hm a ha =>
    simp only [recast, condition, membership?_recast hk, hm, Option.map_some, Node.recastAll_eq_map,
      arguments_of_membership? hk hm, onlyArgument?_recast, ha, compare_recast hk ht]
  | case10 callee arguments line c method receiver hm ha =>
    simp only [recast, condition, membership?_recast hk, hm, Option.map_some, Node.recastAll_eq_map,
      arguments_of_membership? hk hm, onlyArgument?_recast, ha, Option.map_none]
  | case11 callee arguments line hm =>
    have htruthy := truthy_recast hk ht (.call callee arguments line)
    simp only [recast] at htruthy
    simp only [recast, condition, membership?_recast hk, hm, Option.map_none, htruthy]
  | case12 n hp ha hc hb hu hcall =>
    have htruthy := truthy_recast hk ht n
    cases n <;> simp_all [recast, condition]

end TestContext

section Acts

variable {s : Scope}

theorem conditionalAct_recast (test : Node) (as bs : List Act) :
    conditionalAct s (test.recast k) as bs = conditionalAct s test as bs := by
  simp only [conditionalAct, TestContext.condition_recast hk (TestContext.sees_tests hk s)]

theorem switchAct_recast (discriminant : Node) (cases : List Node) (branches : List (List Act)) :
    switchAct s (discriminant.recast k) (cases.map (recast k)) branches =
      switchAct s discriminant cases branches := by
  have hoperand := TestContext.operand_recast hk (TestContext.sees_tests hk s)
  simp only [switchAct, List.mapM_map, hoperand]
  refine bind_congr fun d => ?_
  congr 2
  funext c
  simp only [Function.comp, caseTest_recast]
  cases caseTest c with
  | none => rfl
  | some test => simp only [Option.map_some, hoperand]

omit hk in
theorem effectAct_recast (space : Namespace) (method : Option String) (arguments : List Node)
    (line : Nat) :
    effectAct s space method (arguments.map (recast k)) line = effectAct s space method arguments line := by
  simp only [effectAct, effectPayload_recast]

omit hk in
theorem keyPath_recast (call : String) (line : Nat) (arguments : List Node) :
    keyPath call line (arguments.map (recast k)) = keyPath call line arguments := by
  cases arguments <;> simp [keyPath]

omit hk in
theorem mutationAct_recast (kind : ActionKind) (store : Store) (call : String) (arguments : List Node)
    (line : Nat) :
    mutationAct s kind store call (arguments.map (recast k)) line =
      mutationAct s kind store call arguments line := by
  unfold mutationAct
  rw [keyPath_recast]
  refine bind_congr fun path => ?_
  match arguments with
  | [] => rfl
  | [a] => rfl
  | [a, value] => simp
  | a :: b :: c :: more => rfl

end Acts

end Scenario

import Scenario.Proofs.ActionsInFull
import Scenario.Proofs.Inert
import Scenario.Proofs.Recasting

namespace Scenario

open Syntax
open Syntax.Node (recast)

namespace Syntax.Node

/-- A call, a function or markup. -/
def isActive : Node → Bool
  | .call .. | .arrow .. | .function .. | .functionDeclaration .. | .element .. | .fragment .. => true
  | _ => false

/-- No call, no function and no markup occurs in a node. -/
def isPassive (n : Node) : Bool := !n.isActive && n.fields.attach.all fun c => isPassive c.1
termination_by sizeOf n
decreasing_by exact sizeOf_lt_of_mem_fields c.2

theorem isPassive_iff {n : Node} :
    n.isPassive = true ↔ n.isActive = false ∧ ∀ c ∈ n.fields, c.isPassive = true := by
  rw [isPassive]
  simp

/-- An expression that can be the value of a mutation and can be replaced as one. -/
def isValue (n : Node) : Bool := n.isPassive && !isSpread n && !n.isAbsent

theorem isPassive_of_isValue {n : Node} (h : n.isValue = true) : n.isPassive = true := by
  simp_all [isValue]

theorem isSpread_of_isValue {n : Node} (h : n.isValue = true) : isSpread n = false := by
  simp_all [isValue]

theorem isAbsent_of_isValue {n : Node} (h : n.isValue = true) : n.isAbsent = false := by
  simp_all [isValue]

theorem ne_call_of_isPassive {n : Node} (h : n.isPassive = true) (callee : Node)
    (arguments : List Node) (line : Nat) : n ≠ .call callee arguments line := by
  rintro rfl
  cases (isPassive_iff.1 h).1

/-- There is nothing to change in a passive node. -/
theorem recast_of_isPassive (k : Recall) {n : Node} (h : n.isPassive = true) : n.recast k = n := by
  have ha := (isPassive_iff.1 h).1
  have ih : ∀ c ∈ n.fields, c.recast k = c := fun c hc =>
    recast_of_isPassive k ((isPassive_iff.1 h).2 c hc)
  have hall (ns : List Node) (hns : ∀ c ∈ ns, c.recast k = c) : ns.map (recast k) = ns :=
    (List.map_congr_left hns).trans (List.map_id ns)
  have hoption (o : Option Node) (ho : ∀ c ∈ o.toList, c.recast k = c) : o.map (recast k) = o := by
    cases o with
    | none => rfl
    | some c => exact congrArg some (ho c (by simp))
  cases n with
  | call | arrow | function | functionDeclaration | element | fragment => cases ha
  | spread e | parenthesized e | assertion e | unary _ e | await e | spreadAttribute e | container e
  | expressionStatement e | exportDefault e =>
    rw [recast, ih e List.mem_cons_self]
  | template _ es | object es | array es | block es | variableDeclaration _ es | unsupported _ es _
  | program es =>
    rw [recast, recastAll_eq_map, hall es ih]
  | «attribute» _ o | returnStatement o =>
    rw [recast, recastOption_eq_map, hoption o ih]
  | property a b | member a b _ | binary _ a b =>
    rw [recast, ih a (by simp [fields]), ih b (by simp [fields])]
  | switchStatement a es =>
    obtain ⟨hself, hmore⟩ := List.forall_mem_cons.1 ih
    rw [recast, recastAll_eq_map, hself, hall es hmore]
  | declarator a o =>
    obtain ⟨hself, hmore⟩ := List.forall_mem_cons.1 ih
    rw [recast, recastOption_eq_map, hself, hoption o hmore]
  | switchCase o es | exportNamed o es =>
    obtain ⟨ho, hes⟩ := List.forall_mem_append.1 ih
    rw [recast, recastOption_eq_map, recastAll_eq_map, hoption o ho, hall es hes]
  | ifStatement a b o =>
    obtain ⟨hself, hmore⟩ := List.forall_mem_cons.1 ih
    obtain ⟨hb, ho⟩ := List.forall_mem_cons.1 hmore
    rw [recast, recastOption_eq_map, hself, hb, hoption o ho]
  | _ => rfl
termination_by sizeOf n
decreasing_by exact sizeOf_lt_of_mem_fields hc

theorem isActive_recast (k : Recall) (n : Node) : (n.recast k).isActive = n.isActive := by
  cases n <;> rfl

theorem isPassive_recast (k : Recall) (n : Node) : (n.recast k).isPassive = n.isPassive := by
  cases ha : n.isActive with
  | true => rw [isPassive, isPassive, isActive_recast, ha, Bool.not_true, Bool.false_and, Bool.false_and]
  | false =>
    have hcall (callee : Node) (arguments : List Node) (line : Nat) :
        n ≠ .call callee arguments line := by
      rintro rfl
      cases ha
    rw [Bool.eq_iff_iff, isPassive_iff, isPassive_iff, isActive_recast, fields_recast k hcall]
    refine and_congr_right fun _ => ?_
    rw [List.forall_mem_map]
    exact forall₂_congr fun c hc => by rw [isPassive_recast k c]
termination_by sizeOf n
decreasing_by exact sizeOf_lt_of_mem_fields hc

theorem isValue_recast (k : Recall) (n : Node) : (n.recast k).isValue = n.isValue := by
  rw [isValue, isValue, isPassive_recast, isSpread_recast, isAbsent_recast]

/-- What a node itself adds to an outline. -/
def mark : Node → List String
  | .element name _ _ _ => [name]
  | .call _ _ _ => ["()"]
  | _ => []

theorem outline_eq (n : Node) : n.outline = n.mark ++ n.children.flatMap outline := by
  rw [outline.eq_def]
  cases n <;> simp [mark]

theorem mark_recast (k : Recall) (n : Node) : (n.recast k).mark = n.mark := by
  cases n <;> rfl

theorem outline_of_isPassive {n : Node} (h : n.isPassive = true) : n.outline = [] := by
  have hmark : n.mark = [] := by
    have ha := (isPassive_iff.1 h).1
    cases n <;> first | rfl | cases ha
  rw [outline_eq, hmark, List.nil_append, List.flatMap_eq_nil_iff]
  exact fun c hc => outline_of_isPassive ((isPassive_iff.1 h).2 c (List.mem_filter.1 hc).1)
termination_by sizeOf n
decreasing_by exact sizeOf_lt_of_mem_children hc

end Syntax.Node

section Passive

variable {s : Scope} {n : Node}

theorem isActionCall_of_isPassive (h : n.isPassive = true) : s.isActionCall n = false := by
  cases n with
  | call callee arguments line => exact absurd rfl (Node.ne_call_of_isPassive h callee arguments line)
  | _ => rfl

theorem isPassive_of_mem_children (h : n.isPassive = true) {c : Node} (hc : c ∈ n.children) :
    c.isPassive = true :=
  (Node.isPassive_iff.1 h).2 c (List.mem_filter.1 hc).1

theorem mentions_of_isPassive (s : Scope) {n : Node} (h : n.isPassive = true) :
    mentions s n = false := by
  rw [mentions, isActionCall_of_isPassive h, Bool.false_or, mentionsAny_eq_false]
  intro c hc
  exact mentions_of_isPassive _ (isPassive_of_mem_children h hc)
termination_by sizeOf n
decreasing_by exact Node.sizeOf_lt_of_mem_children hc

theorem nestedFunction?_of_isPassive (s : Scope) {n : Node} (h : n.isPassive = true) :
    nestedFunction? s n = none := by
  have hf : n.isFunctionExpression = false := by
    have ha := (Node.isPassive_iff.1 h).1
    cases n <;> first | rfl | cases ha
  rw [nestedFunction?_of_not_function hf, isActionCall_of_isPassive h, if_neg (by simp)]
  refine Inert.firstNestedFunction?_eq_none fun c hc => ?_
  exact nestedFunction?_of_isPassive _ (isPassive_of_mem_children h hc)
termination_by sizeOf n
decreasing_by exact Node.sizeOf_lt_of_mem_children hc

theorem walk_of_isPassive (s : Scope) {n : Node} (h : n.isPassive = true) : walk s n = pure [] := by
  have ha := (Node.isPassive_iff.1 h).1
  have ih (t : Scope) (c : Node) (hc : c ∈ n.fields) : walk t c = pure [] :=
    walk_of_isPassive t ((Node.isPassive_iff.1 h).2 c hc)
  cases hn : n.isPassed with
  | true =>
    rw [walk_of_isPassed hn]
    exact Inert.walkAll_eq_nil fun c hc => ih s c (List.mem_filter.1 hc).1
  | false =>
    cases n with
    | block body =>
      rw [walk]
      exact Inert.walkAll_eq_nil (ih _)
    | arrow | function | functionDeclaration | element | call => cases ha
    | _ => cases hn
termination_by sizeOf n
decreasing_by exact Node.sizeOf_lt_of_mem_fields hc

theorem declareStores_of_isPassive {n : Node} (h : n.isPassive = true) : declareStores n = pure () := by
  rw [declareStores_of_not_call (Node.ne_call_of_isPassive h)]
  have hall : ∀ c ∈ n.children, declareStores c = pure () := fun c hc =>
    declareStores_of_isPassive (isPassive_of_mem_children h hc)
  generalize n.children = cs at hall
  induction cs with
  | nil => rw [declareAllStores]
  | cons c cs ih =>
    obtain ⟨hc, hcs⟩ := List.forall_mem_cons.1 hall
    rw [declareAllStores, hc, ih hcs]
    rfl
termination_by sizeOf n
decreasing_by exact Node.sizeOf_lt_of_mem_children hc

end Passive

/-- What values are replaced by. -/
structure Replacement where
  apply : Node → Node
  isValue_apply {v : Node} : v.isValue = true → (apply v).isValue = true

/-- The methods whose calls have a key path and a value. -/
def isValueMethod (method : Option String) : Bool := method == some "set" || method == some "merge"

namespace Callee

theorem methodName?_of_isStoreFactory {c : Node} (h : isStoreFactory c = true) :
    methodName? c = none := by
  have hname : identifier? c = some "store" := by simpa [isStoreFactory] using h
  rw [methodName?, method?_of_identifier? hname]
  rfl

theorem methodName?_recast (k : Recall) (c : Node) : methodName? (c.recast k) = methodName? c := by
  rw [methodName?, method?_recast, methodName?]
  cases method? c <;> rfl

end Callee

namespace Replacement

variable (f : Replacement)

/-- The arguments of a method with the value replaced. -/
def put (method : Option String) : List Node → List Node
  | [key, value] => if isValueMethod method && value.isValue then [key, f.apply value] else [key, value]
  | arguments => arguments

/-- What becomes of calls when values are replaced. -/
def toRecall : Recall where
  arguments c := f.put (Callee.methodName? c)

theorem put_of_isValueMethod_eq_false {method : Option String} (h : isValueMethod method = false)
    (arguments : List Node) : f.put method arguments = arguments := by
  unfold put
  split
  · rw [h]
    rfl
  · rfl

theorem lawful_toRecall : f.toRecall.Lawful where
  isStoreFactory c := rfl
  declaration arguments h := by
    refine f.put_of_isValueMethod_eq_false ?_ arguments
    rw [Callee.methodName?_of_isStoreFactory h]
    rfl
  method h := Iff.rfl
  reading {c receiver method} arguments h hc := by
    refine f.put_of_isValueMethod_eq_false ?_ arguments
    rw [Callee.methodName?, hc]
    by_contra hm
    obtain rfl | rfl : method = "set" ∨ method = "merge" := by
      simpa [isValueMethod, or_iff_not_imp_left] using hm
    · cases h
    · cases h

/-- The arguments of a call in a program with its values replaced. -/
def arguments (method : Option String) (arguments : List Node) : List Node :=
  f.put method (arguments.map (recast f.toRecall))

/-- The value of a call is replaced, or there is none and its arguments are changed one by one. -/
theorem arguments_cases (method : Option String) (as : List Node) :
    (∀ f : Replacement, f.arguments method as = as.map (recast f.toRecall)) ∨
      ∃ key value, as = [key, value] ∧ isValueMethod method = true ∧ value.isValue = true ∧
        ∀ f : Replacement, f.arguments method as = [key.recast f.toRecall, f.apply value] := by
  match as with
  | [] | [_] | _ :: _ :: _ :: _ => exact .inl fun f => rfl
  | [key, value] =>
    cases hm : isValueMethod method with
    | false => exact .inl fun f => f.put_of_isValueMethod_eq_false hm _
    | true =>
      cases hv : value.isValue with
      | false =>
        refine .inl fun f => ?_
        simp [arguments, put, Node.isValue_recast, hv]
      | true =>
        refine .inr ⟨key, value, rfl, rfl, hv, fun f => ?_⟩
        have hself := Node.recast_of_isPassive f.toRecall (Node.isPassive_of_isValue hv)
        simp [arguments, put, hm, hself, hv]

theorem arguments_of_isValueMethod_eq_false {method : Option String}
    (h : isValueMethod method = false) (as : List Node) :
    f.arguments method as = as.map (recast f.toRecall) :=
  f.put_of_isValueMethod_eq_false h _

theorem recast_call (c : Node) (as : List Node) (line : Nat) :
    (Node.call c as line).recast f.toRecall =
      .call (c.recast f.toRecall) (f.arguments (Callee.methodName? c) as) line := by
  rw [recast, Node.recastAll_eq_map]
  change Node.call (c.recast f.toRecall) (f.put (Callee.methodName? (c.recast f.toRecall)) _) line = _
  rw [Callee.methodName?_recast]
  rfl

end Replacement

/-- A node in which the values of mutations are replaced. -/
def Syntax.Node.revalue (f : Replacement) : Node → Node := recast f.toRecall

section Searches

variable (f : Replacement) (s : Scope)

theorem Scope.classify_recall (c : Node) : s.classify (c.recast f.toRecall) = s.classify c := by
  unfold classify
  rw [Callee.isStoreFactory_recast, Callee.identifier?_recast, Callee.method?_recast]
  cases Callee.method? c with
  | none => rfl
  | some m =>
    simp only [Option.map_some, Option.bind_some, classifyMethod_recast f.lawful_toRecall]

theorem Scope.isActionCall_recall (n : Node) :
    s.isActionCall (n.recast f.toRecall) = s.isActionCall n := by
  cases n with
  | call c as line => rw [f.recast_call, isActionCall, isActionCall, classify_recall]
  | _ => rfl

/-- A part of a node in place of another: the same with its values replaced, or a value for a value. -/
def Replacement.Follows (n m : Node) : Prop :=
  m = n.recast f.toRecall ∨ n.isValue = true ∧ m.isValue = true

theorem Replacement.follows_fields (n : Node) :
    List.Forall₂ f.Follows n.fields (n.recast f.toRecall).fields := by
  have hmap (ns : List Node) : List.Forall₂ f.Follows ns (ns.map (recast f.toRecall)) :=
    List.forall₂_map_right_iff.2 (List.forall₂_same.2 fun _ _ => .inl rfl)
  by_cases hn : ∃ c as line, n = .call c as line
  · obtain ⟨c, as, line, rfl⟩ := hn
    rw [f.recast_call]
    obtain h | ⟨key, value, rfl, -, hv, h⟩ := arguments_cases (Callee.methodName? c) as
    · rw [h f]
      exact hmap (c :: as)
    · rw [h f]
      exact .cons (.inl rfl) (.cons (.inl rfl) (.cons (.inr ⟨hv, f.isValue_apply hv⟩) .nil))
  · rw [Node.fields_recast f.toRecall fun c as line h => hn ⟨c, as, line, h⟩]
    exact hmap n.fields

theorem Replacement.follows_children (n : Node) :
    List.Forall₂ f.Follows n.children (n.recast f.toRecall).children := by
  refine List.rel_filter (fun c d h => ?_) (f.follows_fields n)
  obtain rfl | ⟨hc, hd⟩ := h
  · simp
  · simp [Node.isAbsent_of_isValue hc, Node.isAbsent_of_isValue hd]

variable {f s}

theorem mentionsAny_of_follows {ns ms : List Node} (h : List.Forall₂ f.Follows ns ms)
    (ih : ∀ n ∈ ns, mentions s (n.recast f.toRecall) = mentions s n) :
    mentionsAny s ms = mentionsAny s ns := by
  induction h with
  | nil => rfl
  | cons hn _ ihm =>
    obtain ⟨hself, hmore⟩ := List.forall_mem_cons.1 ih
    rw [mentionsAny, mentionsAny, ihm hmore]
    obtain rfl | ⟨hv, hw⟩ := hn
    · rw [hself]
    · rw [mentions_of_isPassive s (Node.isPassive_of_isValue hv),
        mentions_of_isPassive s (Node.isPassive_of_isValue hw)]

theorem mentions_recall (s : Scope) (n : Node) : mentions s (n.recast f.toRecall) = mentions s n := by
  rw [mentions, mentions, s.isActionCall_recall, s.within_recast f.lawful_toRecall,
    mentionsAny_of_follows (f.follows_children n)]
  intro c hc
  exact mentions_recall _ c
termination_by sizeOf n
decreasing_by exact Node.sizeOf_lt_of_mem_children hc

theorem flatMap_outline_of_follows {ns ms : List Node} (h : List.Forall₂ f.Follows ns ms)
    (ih : ∀ n ∈ ns, (n.recast f.toRecall).outline = n.outline) :
    ms.flatMap Node.outline = ns.flatMap Node.outline := by
  induction h with
  | nil => rfl
  | cons hn _ ihm =>
    obtain ⟨hself, hmore⟩ := List.forall_mem_cons.1 ih
    rw [List.flatMap_cons, List.flatMap_cons, ihm hmore]
    obtain rfl | ⟨hv, hw⟩ := hn
    · rw [hself]
    · rw [Node.outline_of_isPassive (Node.isPassive_of_isValue hv),
        Node.outline_of_isPassive (Node.isPassive_of_isValue hw)]

/-- The same tags and the same calls are left, in the same order. -/
theorem outline_recall (n : Node) : (n.recast f.toRecall).outline = n.outline := by
  rw [Node.outline_eq, Node.outline_eq n, Node.mark_recast,
    flatMap_outline_of_follows (f.follows_children n)]
  intro c hc
  exact outline_recall c
termination_by sizeOf n
decreasing_by exact Node.sizeOf_lt_of_mem_children hc

theorem firstNestedFunction?_of_follows {ns ms : List Node} (h : List.Forall₂ f.Follows ns ms)
    (ih : ∀ n ∈ ns, nestedFunction? s (n.recast f.toRecall) = nestedFunction? s n) :
    firstNestedFunction? s ms = firstNestedFunction? s ns := by
  induction h with
  | nil => rfl
  | cons hn _ ihm =>
    obtain ⟨hself, hmore⟩ := List.forall_mem_cons.1 ih
    rw [firstNestedFunction?, firstNestedFunction?, ihm hmore]
    obtain rfl | ⟨hv, hw⟩ := hn
    · rw [hself]
    · rw [nestedFunction?_of_isPassive s (Node.isPassive_of_isValue hv),
        nestedFunction?_of_isPassive s (Node.isPassive_of_isValue hw)]

theorem nestedFunction?_recall (s : Scope) (n : Node) :
    nestedFunction? s (n.recast f.toRecall) = nestedFunction? s n := by
  cases hf : n.isFunctionExpression with
  | true =>
    cases n with
    | arrow params body line =>
      simp [recast, nestedFunction?, Scope.isActionCall, mentions_recall]
    | function name params body line =>
      simp [recast, nestedFunction?, Scope.isActionCall, mentions_recall]
    | _ => cases hf
  | false =>
    have hf' : (n.recast f.toRecall).isFunctionExpression = false := by
      cases n <;> first | rfl | cases hf
    rw [nestedFunction?_of_not_function hf, nestedFunction?_of_not_function hf',
      s.isActionCall_recall, s.within_recast f.lawful_toRecall,
      firstNestedFunction?_of_follows (f.follows_children n)]
    intro c hc
    exact nestedFunction?_recall _ c
termination_by sizeOf n
decreasing_by exact Node.sizeOf_lt_of_mem_children hc

theorem declareAllStores_of_follows {ns ms : List Node} (h : List.Forall₂ f.Follows ns ms)
    (ih : ∀ n ∈ ns, declareStores (n.recast f.toRecall) = declareStores n) :
    declareAllStores ms = declareAllStores ns := by
  induction h with
  | nil => rfl
  | cons hn _ ihm =>
    obtain ⟨hself, hmore⟩ := List.forall_mem_cons.1 ih
    rw [declareAllStores, declareAllStores, ihm hmore]
    obtain rfl | ⟨hv, hw⟩ := hn
    · rw [hself]
    · rw [declareStores_of_isPassive (Node.isPassive_of_isValue hv),
        declareStores_of_isPassive (Node.isPassive_of_isValue hw)]

theorem declareStores_recall (n : Node) : declareStores (n.recast f.toRecall) = declareStores n := by
  have hparts : declareAllStores (n.recast f.toRecall).children = declareAllStores n.children :=
    declareAllStores_of_follows (f.follows_children n) fun c hc => declareStores_recall c
  by_cases hn : ∃ c as line, n = .call c as line
  · obtain ⟨c, as, line, rfl⟩ := hn
    rw [f.recast_call] at hparts ⊢
    rw [declareStores, declareStores, hparts, Callee.isStoreFactory_recast]
    cases hc : Callee.isStoreFactory c with
    | false => rfl
    | true =>
      rw [Callee.methodName?_of_isStoreFactory hc, f.arguments_of_isValueMethod_eq_false rfl,
        Store.ofArguments_recast]
  · have hn (c : Node) (as : List Node) (line : Nat) : n ≠ .call c as line :=
      fun h => hn ⟨c, as, line, h⟩
    have hn' (c : Node) (as : List Node) (line : Nat) : n.recast f.toRecall ≠ .call c as line := by
      intro h
      cases n with
      | call c as line => exact hn c as line rfl
      | _ => cases h
    rw [declareStores_of_not_call hn', declareStores_of_not_call hn, hparts]
termination_by sizeOf n
decreasing_by exact Node.sizeOf_lt_of_mem_children hc

/-- A call of a method with its value replaced. -/
def MethodCall.revalue (f : Replacement) (c : MethodCall) : MethodCall :=
  { c with arguments := f.arguments c.method c.arguments }

theorem methodOn?_recall (proxy : String) (n : Node) :
    methodOn? proxy (n.recast f.toRecall) = (methodOn? proxy n).map (MethodCall.revalue f) := by
  cases n with
  | call c as line =>
    rw [f.recast_call, methodOn?, methodOn?, Callee.method?_recast, Callee.methodName?]
    cases hm : Callee.method? c with
    | none => rfl
    | some m =>
      obtain ⟨receiver, method⟩ := m
      cases receiver with
      | identifier name =>
        cases method with
        | none => rfl
        | some method =>
          simp only [Option.map_some, recast]
          split <;> rfl
      | _ => rfl
  | _ => rfl

theorem mutationOn?_recall (proxy : String) (n : Node) :
    mutationOn? proxy (n.recast f.toRecall) = (mutationOn? proxy n).map (MethodCall.revalue f) := by
  cases n with
  | expressionStatement e =>
    have hcall := methodOn?_recall (f := f) proxy e.unwrap
    simp only [recast, mutationOn?, Node.unwrap_recast]
    cases he : e.unwrap with
    | await argument =>
      simp only [recast, Node.unwrap_recast]
      exact methodOn?_recall proxy argument.unwrap
    | _ =>
      rw [he] at hcall
      exact hcall
  | _ => rfl

end Searches

end Scenario

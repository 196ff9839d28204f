import Mathlib.Data.List.Infix
import Mathlib.Logic.Relation
import Scenario.Proofs.Runtime

namespace Scenario

open Syntax

/-- The scope behind a statement of a handler. -/
def Scope.behind : Scope → Node → Scope
  | s, .variableDeclaration kind declarators =>
    s.hoistStatement (.variableDeclaration kind declarators)
  | s, .ifStatement _ consequent none => s.behind consequent
  | s, .ifStatement _ consequent (some alternate) => (s.behind consequent).behind alternate
  | s, _ => s

/-- A place of a program, by what is made of it there. -/
inductive Place where
  /-- A node that is searched for actions. -/
  | node (s : Scope) (n : Node)
  /-- A function that is run: a handler, or what follows a request. -/
  | function (s : Scope) (params : List Node) (body : Node)
  | statement (s : Scope) (n : Node)
  | expression (s : Scope) (n : Node)
  | call (s : Scope) (call : Call) (arguments : List Node) (line : Nat)

namespace Place

/-- Statements that are run one after the other. -/
def inOrder (s : Scope) : List Node → List Place
  | [] => []
  | n :: more => .statement s n :: inOrder (s.behind n) more

/-- The body of a function that is searched for actions. -/
def ofBody (s : Scope) : Node → List Place
  | .block body => body.map (.node (s.hoist body))
  | e => [.node s e]

/-- An attribute is searched for actions unless it is a handler. -/
def ofAttribute (s : Scope) (n : Node) : Place :=
  match handler? n with
  | some (params, body) => .function s params body
  | none => .node s n

def insideNode (s : Scope) (n : Node) : List Place :=
  match n with
  | .arrow params body _ => ofBody (s.function params) body
  | .function _ params body _ => ofBody (s.function params) body
  | .functionDeclaration _ params body _ => ofBody (s.function params) body
  | .block body => body.map (.node (s.child.hoist body))
  | .element _ attributes children _ => attributes.map (ofAttribute s) ++ children.map (.node s)
  | .call callee arguments line =>
    match s.classify callee with
    | some c => [.call s c arguments line]
    | none => (Node.call callee arguments line).children.map (.node s)
  | n => n.children.map (.node s)

def insideFunction (s : Scope) : Node → List Place
  | .block body => inOrder (s.hoist body) body
  | e => [.expression s e]

/-- A clause of a switch is run with those that it falls through to, so these have several
places. -/
def insideStatement (s : Scope) (n : Node) : List Place :=
  match n with
  | .expressionStatement e => [.expression s e]
  | .returnStatement (some e) => [.expression s e]
  | .variableDeclaration kind declarators =>
    (declarators.filterMap initialiser?).map
      (.expression (s.hoistStatement (.variableDeclaration kind declarators)))
  | .block body => inOrder (s.child.hoist body) body
  | .ifStatement _ consequent alternate =>
    .statement s consequent :: alternate.toList.map (.statement (s.behind consequent))
  | .switchStatement d cases =>
    if mentions s (.switchStatement d cases) then
      (cases.tails.filterMap caseRun?).flatMap fun run => inOrder (s.child.hoist run) run
    else []
  | _ => []

def insideExpression (s : Scope) (n : Node) : List Place :=
  match n with
  | .parenthesized e => [.expression s e]
  | .assertion e => [.expression s e]
  | .container e => [.expression s e]
  | .await e => [.expression s e]
  | .binary operator left right =>
    if (operator = "&&" ∨ operator = "||") ∧ !mentions s left then [.expression s right]
    else [.node s (.binary operator left right)]
  | .unsupported "ternary_expression" [test, consequent, alternate] line =>
    if mentions s test then
      [.node s (.unsupported "ternary_expression" [test, consequent, alternate] line)]
    else [.expression s consequent, .expression s alternate]
  | n => [.node s n]

/-- Of the arguments of a call, only the functions behind a request and the changes that a transaction
makes are compiled. -/
def insideCall (s : Scope) (arguments : List Node) (line : Nat) : Call → List Place
  | .effect .api (some "request") =>
    match Request.ofArguments arguments line s.props with
    | .ok r => (r.onSuccess.toList ++ r.onError.toList).filterMap fun n =>
      (functionOf? n).map fun (params, body) => .function s params body
    | .error _ => []
  | .mutation store (some "transaction") =>
    match Transaction.ofArguments arguments line with
    | .ok t => (t.statements.filterMap (mutationOn? t.proxy)).map fun c =>
      .call ((s.function t.params).bind t.proxy (some store)) (.mutation store c.method) c.arguments
        c.line
    | .error _ => []
  | _ => []

/-- The places by way of which a place is compiled. -/
def inner : Place → List Place
  | .node s n => insideNode s n
  | .function s params body => insideFunction (s.function params) body
  | .statement s n => insideStatement s n
  | .expression s n => insideExpression s n
  | .call s c arguments line => insideCall s arguments line c

/-- A place is compiled by way of another one. -/
def Reaches : Place → Place → Prop := Relation.ReflTransGen fun p q => q ∈ p.inner

section Inner

variable {s : Scope} {n : Node}

theorem ofBody_of_expression {e : Node} (h : ∀ body, e ≠ .block body) : ofBody s e = [.node s e] := by
  rw [ofBody]
  exact h

theorem inner_of_function? {params : List Node} {body : Node}
    (h : n.function? = some (params, body)) :
    (node s n).inner = ofBody (s.function params) body := by
  cases n with
  | arrow | function | functionDeclaration =>
    cases h
    rfl
  | _ => cases h

theorem inner_of_classify {callee : Node} {arguments : List Node} {line : Nat} {c : Call}
    (h : s.classify callee = some c) :
    (node s (.call callee arguments line)).inner = [.call s c arguments line] := by
  simp only [inner, insideNode, h]

theorem inner_of_classify_eq_none {callee : Node} {arguments : List Node} {line : Nat}
    (h : s.classify callee = none) :
    (node s (.call callee arguments line)).inner =
      (Node.call callee arguments line).children.map (.node s) := by
  simp only [inner, insideNode, h]

theorem inner_of_isPassed (h : n.isPassed = true) : (node s n).inner = n.children.map (.node s) := by
  rw [inner, insideNode]
  all_goals
    intros
    subst_vars
    cases h

theorem inner_function_of_expression {params : List Node} {e : Node}
    (h : ∀ body, e ≠ .block body) :
    (function s params e).inner = [.expression (s.function params) e] := by
  rw [inner, insideFunction]
  exact h

theorem inner_of_held? {e : Node} (h : n.held? = some e) :
    (expression s n).inner = [.expression s e] := by
  cases n with
  | parenthesized | assertion | container | await =>
    cases h
    rfl
  | _ => cases h

theorem inner_of_guarded {operator : String} {left right : Node}
    (h : (operator = "&&" ∨ operator = "||") ∧ (!mentions s left) = true) :
    (expression s (.binary operator left right)).inner = [.expression s right] := by
  rw [inner, insideExpression, if_pos h]

theorem inner_of_unguarded {operator : String} {left right : Node}
    (h : ¬((operator = "&&" ∨ operator = "||") ∧ (!mentions s left) = true)) :
    (expression s (.binary operator left right)).inner = [.node s (.binary operator left right)] := by
  rw [inner, insideExpression, if_neg h]

theorem inner_of_ternary {test consequent alternate : Node} {line : Nat}
    (h : ¬mentions s test = true) :
    (expression s (.unsupported "ternary_expression" [test, consequent, alternate] line)).inner =
      [.expression s consequent, .expression s alternate] := by
  simp only [inner, insideExpression, if_neg h]

theorem inner_of_active {test consequent alternate : Node} {line : Nat}
    (h : mentions s test = true) :
    (expression s (.unsupported "ternary_expression" [test, consequent, alternate] line)).inner =
      [.node s (.unsupported "ternary_expression" [test, consequent, alternate] line)] := by
  simp only [inner, insideExpression, if_pos h]

theorem inner_of_isSearched (h : n.isSearched = true) : (expression s n).inner = [.node s n] := by
  rw [inner, insideExpression]
  all_goals
    intros
    subst_vars
    cases h

theorem inner_of_switch {d : Node} {cases : List Node}
    (h : mentions s (.switchStatement d cases) = true) :
    (statement s (.switchStatement d cases)).inner =
      (cases.tails.filterMap caseRun?).flatMap fun run => inOrder (s.child.hoist run) run := by
  simp only [inner, insideStatement, if_pos h]

end Inner

/-- A measure that is smaller for the places inside a place. -/
noncomputable def size : Place → Nat
  | .node _ n => 3 * sizeOf n
  | .function _ _ body => 3 * sizeOf body + 2
  | .statement _ n => 3 * sizeOf n
  | .expression _ n => 3 * sizeOf n + 1
  | .call _ _ arguments _ => 3 * weight arguments

section Size

variable {s : Scope} {n : Node} {ns arguments : List Node} {q : Place}

theorem sizeOf_le_weight (h : n ∈ ns) : sizeOf n ≤ weight ns := by
  induction h with
  | head more => simp
  | tail m _ ih =>
    rw [weight_cons]
    omega

theorem size_le_of_mem_map (h : q ∈ ns.map (.node s)) : q.size ≤ 3 * weight ns := by
  obtain ⟨n, hn, rfl⟩ := List.mem_map.1 h
  have := sizeOf_le_weight hn
  rw [size]
  omega

theorem size_le_of_mem_inOrder (h : q ∈ inOrder s ns) : q.size ≤ 3 * weight ns := by
  induction ns generalizing s with
  | nil => cases h
  | cons n more ih =>
    rw [weight_cons]
    rcases List.mem_cons.1 h with rfl | h
    · rw [size]
      omega
    · have := ih h
      omega

theorem size_le_of_mem_ofBody (h : q ∈ ofBody s n) : q.size ≤ 3 * sizeOf n := by
  unfold ofBody at h
  split at h
  · rename_i body
    have := size_le_of_mem_map h
    have := weight_lt_sizeOf body
    rw [Node.block.sizeOf_spec]
    omega
  · obtain rfl := List.mem_singleton.1 h
    exact Nat.le_refl _

theorem size_ofAttribute_le (s : Scope) (n : Node) : (ofAttribute s n).size ≤ 3 * sizeOf n := by
  unfold ofAttribute
  split
  · rename_i params body hn
    have := sizeOf_handler?_lt hn
    rw [size]
    omega
  · exact Nat.le_refl _

theorem size_lt_of_mem_insideNode (h : q ∈ insideNode s n) : q.size < 3 * sizeOf n := by
  unfold insideNode at h
  split at h
  · have := size_le_of_mem_ofBody h
    rw [Node.arrow.sizeOf_spec]
    omega
  · have := size_le_of_mem_ofBody h
    rw [Node.function.sizeOf_spec]
    omega
  · have := size_le_of_mem_ofBody h
    rw [Node.functionDeclaration.sizeOf_spec]
    omega
  · rename_i body
    have := size_le_of_mem_map h
    have := weight_lt_sizeOf body
    rw [Node.block.sizeOf_spec]
    omega
  · rename_i name attributes children line
    have := weight_lt_sizeOf attributes
    have := weight_lt_sizeOf children
    rw [Node.element.sizeOf_spec]
    rcases List.mem_append.1 h with h | h
    · obtain ⟨a, ha, rfl⟩ := List.mem_map.1 h
      have := size_ofAttribute_le s a
      have := sizeOf_le_weight ha
      omega
    · have := size_le_of_mem_map h
      omega
  · rename_i callee arguments line
    split at h
    · obtain rfl := List.mem_singleton.1 h
      have := weight_lt_sizeOf arguments
      rw [size, Node.call.sizeOf_spec]
      omega
    · have := size_le_of_mem_map h
      have := (Node.call callee arguments line).weight_children_lt
      omega
  · have := size_le_of_mem_map h
    have := n.weight_children_lt
    omega

theorem size_lt_of_mem_insideFunction (h : q ∈ insideFunction s n) : q.size < 3 * sizeOf n + 2 := by
  unfold insideFunction at h
  split at h
  · rename_i body
    have := size_le_of_mem_inOrder h
    have := weight_lt_sizeOf body
    rw [Node.block.sizeOf_spec]
    omega
  · obtain rfl := List.mem_singleton.1 h
    rw [size]
    omega

theorem sizeOf_lt_of_initialiser? {e : Node} (h : initialiser? n = some e) : sizeOf e < sizeOf n := by
  unfold initialiser? at h
  split at h
  · cases h
    simp
    omega
  · cases h

theorem weight_le_of_isSuffix {ms : List Node} (h : ms <:+ ns) : weight ms ≤ weight ns := by
  obtain ⟨front, rfl⟩ := h
  rw [weight_append]
  omega

theorem size_lt_of_mem_insideStatement (h : q ∈ insideStatement s n) : q.size < 3 * sizeOf n := by
  unfold insideStatement at h
  split at h
  · obtain rfl := List.mem_singleton.1 h
    rw [size, Node.expressionStatement.sizeOf_spec]
    omega
  · obtain rfl := List.mem_singleton.1 h
    rw [size, Node.returnStatement.sizeOf_spec]
    simp only [Option.some.sizeOf_spec]
    omega
  · rename_i kind declarators
    obtain ⟨e, he, rfl⟩ := List.mem_map.1 h
    obtain ⟨d, hd, he⟩ := List.mem_filterMap.1 he
    have := sizeOf_lt_of_initialiser? he
    have := sizeOf_le_weight hd
    have := weight_lt_sizeOf declarators
    rw [size, Node.variableDeclaration.sizeOf_spec]
    omega
  · rename_i body
    have := size_le_of_mem_inOrder h
    have := weight_lt_sizeOf body
    rw [Node.block.sizeOf_spec]
    omega
  · rename_i test consequent alternate
    have := weight_toList_lt_sizeOf alternate
    rw [Node.ifStatement.sizeOf_spec]
    rcases List.mem_cons.1 h with rfl | h
    · rw [size]
      omega
    · obtain ⟨m, hm, rfl⟩ := List.mem_map.1 h
      have := sizeOf_le_weight hm
      rw [size]
      omega
  · rename_i d cases
    split at h
    · obtain ⟨run, hrun, hq⟩ := List.mem_flatMap.1 h
      obtain ⟨tail, htail, hrun⟩ := List.mem_filterMap.1 hrun
      have := size_le_of_mem_inOrder hq
      have := weight_caseRun?_le hrun
      have := weight_le_of_isSuffix ((List.mem_tails tail cases).1 htail)
      have := weight_lt_sizeOf cases
      rw [Node.switchStatement.sizeOf_spec]
      omega
    · cases h
  · cases h

theorem size_lt_of_mem_insideExpression (h : q ∈ insideExpression s n) :
    q.size < 3 * sizeOf n + 1 := by
  unfold insideExpression at h
  split at h
  · obtain rfl := List.mem_singleton.1 h
    rw [size, Node.parenthesized.sizeOf_spec]
    omega
  · obtain rfl := List.mem_singleton.1 h
    rw [size, Node.assertion.sizeOf_spec]
    omega
  · obtain rfl := List.mem_singleton.1 h
    rw [size, Node.container.sizeOf_spec]
    omega
  · obtain rfl := List.mem_singleton.1 h
    rw [size, Node.await.sizeOf_spec]
    omega
  · split at h
    · obtain rfl := List.mem_singleton.1 h
      rw [size, Node.binary.sizeOf_spec]
      omega
    · obtain rfl := List.mem_singleton.1 h
      rw [size]
      omega
  · split at h
    · obtain rfl := List.mem_singleton.1 h
      rw [size]
      omega
    · rw [Node.unsupported.sizeOf_spec]
      rcases List.mem_cons.1 h with rfl | h
      · rw [size]
        simp only [List.cons.sizeOf_spec]
        omega
      · obtain rfl := List.mem_singleton.1 h
        rw [size]
        simp only [List.cons.sizeOf_spec]
        omega
  · obtain rfl := List.mem_singleton.1 h
    rw [size]
    omega

theorem size_lt_of_mem_insideCall {c : Call} {line : Nat} (h : q ∈ insideCall s arguments line c) :
    q.size < 3 * weight arguments := by
  unfold insideCall at h
  split at h
  · split at h
    · rename_i r hr
      obtain ⟨n, hn, hq⟩ := List.mem_filterMap.1 h
      obtain ⟨⟨params, body⟩, hf, rfl⟩ := Option.map_eq_some_iff.1 hq
      have := sizeOf_functionOf?_lt hf
      have hle : sizeOf n ≤ weight arguments := by
        rcases List.mem_append.1 hn with hn | hn
        · exact Nat.le_trans (sizeOf_le_weight hn) (Request.weight_onSuccess_le hr)
        · exact Nat.le_trans (sizeOf_le_weight hn) (Request.weight_onError_le hr)
      rw [size]
      omega
    · cases h
  · split at h
    · rename_i t ht
      obtain ⟨c, hc, rfl⟩ := List.mem_map.1 h
      obtain ⟨n, hn, hc⟩ := List.mem_filterMap.1 hc
      have := weight_arguments_lt hc
      have := sizeOf_le_weight hn
      have := Transaction.weight_statements_lt ht
      rw [size]
      omega
    · cases h
  · cases h

theorem size_lt_of_mem_inner {p q : Place} (h : q ∈ p.inner) : q.size < p.size := by
  cases p with
  | node s n => exact size_lt_of_mem_insideNode h
  | function s params body => exact size_lt_of_mem_insideFunction h
  | statement s n => exact size_lt_of_mem_insideStatement h
  | expression s n => exact size_lt_of_mem_insideExpression h
  | call s c arguments line => exact size_lt_of_mem_insideCall h

end Size

/-- The action that a place is by itself. -/
def action? : Place → Option (Action Unit)
  | .call s c arguments line => c.action? s arguments line
  | _ => none

/-- Whether a place is a call that is an action. -/
def isAction : Place → Bool
  | .call _ c _ _ => c.isAction
  | _ => false

/-- The calls that are compiled at a place, in order: those that are actions. -/
noncomputable def calls (p : Place) : List Place :=
  (if p.isAction then [p] else []) ++ p.inner.attach.flatMap fun q => calls q.1
termination_by p.size
decreasing_by exact size_lt_of_mem_inner q.2

theorem calls_eq (p : Place) :
    p.calls = (if p.isAction then [p] else []) ++ p.inner.flatMap calls := by
  rw [calls, List.flatMap_subtype fun q _ => rfl, List.unattach_attach]

end Place

end Scenario

import Scenario.Proofs.Places

namespace Scenario

open Syntax

/-- The method that a callee names, if it is one. -/
def Callee.methodName? (c : Node) : Option String := (method? c).bind Prod.snd

theorem Scope.methodName?_of_classify {s : Scope} {c : Node} {store : Store} {method : Option String}
    (h : s.classify c = some (.mutation store method)) : Callee.methodName? c = method := by
  unfold classify at h
  split at h
  · cases h
  · split at h
    · split at h
      · cases h
      · obtain ⟨d, -, hd⟩ := Option.map_eq_some_iff.1 h
        cases hd
    · obtain ⟨⟨receiver, name⟩, hm, hc⟩ := Option.bind_eq_some_iff.1 h
      rw [Callee.methodName?, hm, Option.bind_some]
      unfold classifyMethod at hc
      cases hs : s.store? receiver with
      | some other =>
        simp only [hs, Option.some.injEq] at hc
        split at hc
        · cases hc
        · cases hc
          rfl
      | none =>
        simp only [hs] at hc
        split at hc
        · split at hc
          · cases hc
          · obtain ⟨space, -, hspace⟩ := Option.map_eq_some_iff.1 hc
            cases hspace
        · cases hc

theorem isAbsent_of_functionOf? {n body : Node} {params : List Node}
    (hf : functionOf? n = some (params, body)) : n.isAbsent = false := by
  cases n with
  | absent => cases hf
  | _ => rfl

theorem exists_call_of_methodOn? {proxy : String} {n : Node} {c : MethodCall} {Q : Node → Prop}
    (hn : Q n) (hc : methodOn? proxy n = some c) :
    ∃ callee, Q (.call callee c.arguments c.line) ∧ Callee.methodName? callee = c.method := by
  unfold Scenario.methodOn? at hc
  split at hc
  · rename_i callee arguments line
    split at hc
    · rename_i name method hm
      split at hc
      · cases hc
        refine ⟨callee, hn, ?_⟩
        rw [Callee.methodName?, hm]
        rfl
      · cases hc
    · cases hc
  · cases hc

theorem forall_mem_caseFlow? {ns run : List Node} {leaves : Bool} {Q : Node → Prop}
    (hns : ∀ n ∈ ns, Q n) (hr : caseFlow? ns = some (run, leaves)) : ∀ n ∈ run, Q n := by
  fun_induction Scenario.caseFlow? ns generalizing run leaves with
  | case1 => simp_all
  | case2 => simp_all
  | case3 e more =>
    cases hr
    simpa using hns _ List.mem_cons_self
  | case4 => cases hr
  | case5 body more =>
    cases hr
    simpa using hns _ List.mem_cons_self
  | case6 body more _ _ _ ih | case8 _ _ _ more _ ih | case9 n more _ _ _ _ ih =>
    obtain ⟨hn, hmore⟩ := List.forall_mem_cons.1 hns
    obtain ⟨⟨rest, leaves'⟩, hrest, heq⟩ := Option.map_eq_some_iff.1 hr
    cases heq
    exact List.forall_mem_cons.2 ⟨hn, ih hmore hrest⟩
  | case7 => cases hr

namespace Syntax.Node

/-- Whether a node may have an empty container in it: a tag, a fragment or an attribute. -/
def allowsEmpty : Node → Bool
  | .attribute .. | .element .. | .fragment .. => true
  | _ => false

/-- Whether something may be missing among the parts of a node: an element of a list, or the content of
a container in markup. -/
def isLoose : Node → Bool
  | .array _ => true
  | n => n.allowsEmpty

end Syntax.Node

/-- Properties that are inherited from a node to its parts: that of a node that is compiled, that of
a node that is searched, and that of a function by its parameters and its body. -/
structure Inherited (compiled searched : Node → Prop) (function : List Node → Node → Prop) : Prop where
  search {n : Node} : compiled n → searched n
  compile {n : Node} : searched n → (∀ e, n ≠ .container e) → compiled n
  fields {n c : Node} : compiled n → n.isLoose = false → c ∈ n.fields → compiled c
  children {n c : Node} : searched n → c ∈ n.children → searched c
  markup {name : String} {attributes children : List Node} {line : Nat} {c : Node} :
    compiled (.element name attributes children line) → c ∈ attributes ++ children → searched c
  enter {n body : Node} {params : List Node} :
    compiled n → n.function? = some (params, body) → function params body
  body {params : List Node} {body : Node} : function params body → compiled body
  statement {e : Node} : compiled e → compiled (.expressionStatement e)

namespace Inherited

variable {Q R : Node → Prop} {F : List Node → Node → Prop} (h : Inherited Q R F)

include h

theorem unwrap {n : Node} (hn : Q n) : Q n.unwrap := by
  fun_induction Node.unwrap n with
  | case1 e ih | case2 e ih | case3 e ih => exact ih (h.fields hn rfl (by simp [Node.fields]))
  | case4 => exact hn

theorem function {n body : Node} {params : List Node} (hn : R n)
    (hf : n.function? = some (params, body)) : F params body := by
  refine h.enter (h.compile hn ?_) hf
  rintro e rfl
  cases hf

theorem child {n c : Node} (hn : R n) (hc : c ∈ n.fields) (ha : c.isAbsent = false) : R c :=
  h.children hn (List.mem_filter.2 ⟨hc, by simp [ha]⟩)

theorem functionOf? {n body : Node} {params : List Node} (hn : R n)
    (hf : functionOf? n = some (params, body)) : F params body := by
  fun_induction Node.unwrap n with
  | case1 e ih | case2 e ih | case3 e ih =>
    have he : Scenario.functionOf? e = some (params, body) := hf
    exact ih (h.child hn (by simp [Node.fields]) (isAbsent_of_functionOf? he)) he
  | case4 n hparenthesized hassertion hcontainer =>
    have hself : n.unwrap = n := by
      rw [Node.unwrap] <;> assumption
    rw [Scenario.functionOf?, hself] at hf
    refine h.function hn ?_
    split at hf
    · exact hf
    · exact hf
    · cases hf

theorem handler? {n body : Node} {params : List Node} (hn : R n)
    (hf : handler? n = some (params, body)) : F params body := by
  cases n with
  | «attribute» name value =>
    cases value with
    | none => cases hf
    | some value =>
      have hvalue : Scenario.functionOf? value = some (params, body) := by
        change (if isHandlerName name then Scenario.functionOf? value else none) = _ at hf
        split at hf
        · exact hf
        · cases hf
      exact h.functionOf? (h.child hn (by simp [Node.fields]) (isAbsent_of_functionOf? hvalue))
        hvalue
  | _ => cases hf

theorem objectMembers? {n : Node} {ms : List Node} (hn : Q n) (hm : objectMembers? n = some ms) :
    ∀ m ∈ ms, Q m := by
  have hu := h.unwrap hn
  unfold Scenario.objectMembers? at hm
  split at hm
  · rename_i heq
    cases hm
    rw [heq] at hu
    exact fun m => h.fields hu rfl
  · cases hm

theorem plainMembers {call : String} {line : Nat} {ms : List Node} {acc fs : Fields Node}
    (hms : ∀ m ∈ ms, Q m) (hacc : ∀ f ∈ acc, Q f.2) (hfs : plainMembers call line ms acc = .ok fs) :
    ∀ f ∈ fs, Q f.2 := by
  fun_induction Scenario.plainMembers call line ms acc with
  | case1 acc =>
    cases hfs
    exact hacc
  | case2 key value more acc ih =>
    obtain ⟨hproperty, hmore⟩ := List.forall_mem_cons.1 hms
    refine ih hmore ?_ hfs
    intro f hf
    rcases Fields.mem_put hf with rfl | hf
    · exact h.fields hproperty rfl (by simp [Node.fields])
    · exact hacc f hf
  | case3 => cases hfs

/-- The callbacks of a request. -/
theorem request {arguments : List Node} {line : Nat} {props : List String} {r : Request}
    (ha : ∀ a ∈ arguments, Q a) (hr : Request.ofArguments arguments line props = .ok r) :
    (∀ n ∈ r.onSuccess, Q n) ∧ ∀ n ∈ r.onError, Q n := by
  unfold Request.ofArguments plainArguments at hr
  split at hr
  · cases hr
  · simp only [bind, Except.bind] at hr
    split at hr
    · rename_i config _
      split at hr
      · cases hr
      · rename_i ms hms
        split at hr
        · cases hr
        · rename_i fs hfs
          have hmembers := h.objectMembers? (ha config (by simp)) hms
          have hfields := h.plainMembers hmembers (by simp) hfs
          split at hr
          · cases hr
          · split at hr
            · cases hr
            · split at hr
              · cases hr
              · cases hr
                exact ⟨fun n hn => hfields _ (Fields.mem_of_get? hn),
                  fun n hn => hfields _ (Fields.mem_of_get? hn)⟩
    · cases hr

theorem flatten {ns : List Node} (hns : ∀ n ∈ ns, Q n) : ∀ n ∈ flatten ns, Q n := by
  fun_induction Scenario.flatten ns with
  | case1 => exact hns
  | case2 body more ihb ihm =>
    obtain ⟨hbody, hmore⟩ := List.forall_mem_cons.1 hns
    exact List.forall_mem_append.2 ⟨ihb fun n => h.fields hbody rfl, ihm hmore⟩
  | case3 n more _ ih =>
    obtain ⟨hn, hmore⟩ := List.forall_mem_cons.1 hns
    exact List.forall_mem_cons.2 ⟨hn, ih hmore⟩

theorem bodyStatements {body : Node} (hb : Q body) : ∀ n ∈ bodyStatements body, Q n := by
  unfold Scenario.bodyStatements
  split
  · exact h.flatten fun n => h.fields hb rfl
  · exact List.forall_mem_singleton.2 (h.statement hb)

/-- The function of a transaction, with its statements. -/
theorem transaction {arguments : List Node} {line : Nat} {t : Transaction}
    (ha : ∀ a ∈ arguments, Q a) (ht : Transaction.ofArguments arguments line = .ok t) :
    (∃ body, F t.params body) ∧ .identifier t.proxy ∈ t.params ∧ ∀ n ∈ t.statements, Q n := by
  have hfunction {params : List Node} {body : Node} (hf : F params body)
      (ht : Transaction.ofFunction line params body = .ok t) :
      (∃ body, F t.params body) ∧ .identifier t.proxy ∈ t.params ∧ ∀ n ∈ t.statements, Q n := by
    unfold Transaction.ofFunction at ht
    split at ht
    · cases ht
      exact ⟨⟨body, hf⟩, List.mem_cons_self, h.bodyStatements (h.body hf)⟩
    · cases ht
  unfold Transaction.ofArguments at ht
  split at ht
  · rename_i a
    have hu := h.unwrap (ha a (by simp))
    split at ht
    · rename_i heq
      rw [heq] at hu
      exact hfunction (h.enter hu rfl) ht
    · rename_i heq
      rw [heq] at hu
      exact hfunction (h.enter hu rfl) ht
    · cases ht
  · cases ht

/-- A call in a transaction. -/
theorem mutationOn? {proxy : String} {n : Node} {c : MethodCall} (hn : Q n)
    (hc : mutationOn? proxy n = some c) :
    ∃ callee, Q (.call callee c.arguments c.line) ∧ Callee.methodName? callee = c.method := by
  cases n with
  | expressionStatement e =>
    have hu := h.unwrap (h.fields hn rfl (List.mem_singleton_self e))
    simp only [Scenario.mutationOn?] at hc
    split at hc
    · rename_i argument heq
      rw [heq] at hu
      exact exists_call_of_methodOn? (h.unwrap (h.fields hu rfl (List.mem_singleton_self argument))) hc
    · exact exists_call_of_methodOn? hu hc
  | _ => cases hc

theorem caseBody {c : Node} (hc : Q c) : ∀ n ∈ caseBody c, Q n := by
  cases c with
  | switchCase test body => exact fun n hn => h.fields hc rfl (List.mem_append_right _ hn)
  | _ => simp [Scenario.caseBody]

theorem caseRun? {cs run : List Node} (hcs : ∀ c ∈ cs, Q c) (hr : caseRun? cs = some run) :
    ∀ n ∈ run, Q n := by
  fun_induction Scenario.caseRun? cs generalizing run with
  | case1 =>
    cases hr
    exact hcs
  | case2 => cases hr
  | case3 c more run' hf =>
    cases hr
    exact forall_mem_caseFlow? (h.caseBody (List.forall_mem_cons.1 hcs).1) hf
  | case4 c more run' hf ih =>
    obtain ⟨hc, hmore⟩ := List.forall_mem_cons.1 hcs
    obtain ⟨rest, hrest, rfl⟩ := Option.map_eq_some_iff.1 hr
    exact List.forall_mem_append.2 ⟨forall_mem_caseFlow? (h.caseBody hc) hf, ih hmore hrest⟩

theorem held? {n e : Node} (hn : Q n) (he : n.held? = some e) : Q e := by
  cases n with
  | parenthesized | assertion | container | await =>
    cases he
    exact h.fields hn rfl (by simp [Node.fields])
  | _ => cases he

theorem initialiser? {n e : Node} (hn : Q n) (he : initialiser? n = some e) : Q e := by
  unfold Scenario.initialiser? at he
  split at he
  · cases he
    exact h.fields hn rfl (by simp [Node.fields])
  · cases he

end Inherited

namespace Place

/-- What is inherited holds of what stands at a place. A call stands there with its callee. -/
def Has (Q R : Node → Prop) (F : List Node → Node → Prop) : Place → Prop
  | .node _ n => R n
  | .function _ params body => F params body
  | .statement _ n => Q n
  | .expression _ n => Q n
  | .call _ c arguments line => ∃ callee, Q (.call callee arguments line) ∧
      ∀ store method, c = .mutation store method → Callee.methodName? callee = method

variable {Q R : Node → Prop} {F : List Node → Node → Prop} {s : Scope} {n : Node} {p q : Place}

theorem has_of_mem_map {ns : List Node} (hns : ∀ n ∈ ns, R n) (hq : q ∈ ns.map (.node s)) :
    q.Has Q R F := by
  obtain ⟨n, hn, rfl⟩ := List.mem_map.1 hq
  exact hns n hn

theorem has_of_mem_inOrder {ns : List Node} (hns : ∀ n ∈ ns, Q n) (hq : q ∈ inOrder s ns) :
    q.Has Q R F := by
  induction ns generalizing s with
  | nil => cases hq
  | cons n more ih =>
    obtain ⟨hn, hmore⟩ := List.forall_mem_cons.1 hns
    rcases List.mem_cons.1 hq with rfl | hq
    · exact hn
    · exact ih hmore hq

section Inside

variable (h : Inherited Q R F)

include h

theorem has_of_mem_ofBody (hn : Q n) (hq : q ∈ ofBody s n) : q.Has Q R F := by
  unfold ofBody at hq
  split at hq
  · exact has_of_mem_map (fun c hc => h.search (h.fields hn rfl hc)) hq
  · obtain rfl := List.mem_singleton.1 hq
    exact h.search hn

theorem has_ofAttribute (hn : R n) : (ofAttribute s n).Has Q R F := by
  unfold ofAttribute
  split
  · rename_i params body hf
    exact h.handler? hn hf
  · exact hn

theorem has_of_mem_insideNode (hn : R n) (hq : q ∈ insideNode s n) : q.Has Q R F := by
  unfold insideNode at hq
  split at hq
  · exact has_of_mem_ofBody h (h.body (h.function hn rfl)) hq
  · exact has_of_mem_ofBody h (h.body (h.function hn rfl)) hq
  · exact has_of_mem_ofBody h (h.body (h.function hn rfl)) hq
  · have hblock := h.compile hn (by simp)
    exact has_of_mem_map (fun c hc => h.search (h.fields hblock rfl hc)) hq
  · have helement := h.compile hn (by simp)
    rcases List.mem_append.1 hq with hq | hq
    · obtain ⟨a, ha, rfl⟩ := List.mem_map.1 hq
      exact has_ofAttribute h (h.markup helement (List.mem_append_left _ ha))
    · exact has_of_mem_map (fun c hc => h.markup helement (List.mem_append_right _ hc)) hq
  · rename_i callee arguments line
    split at hq
    · rename_i c hc
      obtain rfl := List.mem_singleton.1 hq
      refine ⟨callee, h.compile hn (by simp), ?_⟩
      rintro store method rfl
      exact s.methodName?_of_classify hc
    · exact has_of_mem_map (fun c hc => h.children hn hc) hq
  · exact has_of_mem_map (fun c hc => h.children hn hc) hq

theorem has_of_mem_insideFunction {params : List Node} (hf : F params n)
    (hq : q ∈ insideFunction s n) : q.Has Q R F := by
  unfold insideFunction at hq
  split at hq
  · exact has_of_mem_inOrder (fun c hc => h.fields (h.body hf) rfl hc) hq
  · obtain rfl := List.mem_singleton.1 hq
    exact h.body hf

theorem has_of_mem_insideStatement (hn : Q n) (hq : q ∈ insideStatement s n) : q.Has Q R F := by
  unfold insideStatement at hq
  split at hq
  · obtain rfl := List.mem_singleton.1 hq
    exact h.fields hn rfl (by simp [Node.fields])
  · obtain rfl := List.mem_singleton.1 hq
    exact h.fields hn rfl (by simp [Node.fields])
  · obtain ⟨e, he, rfl⟩ := List.mem_map.1 hq
    obtain ⟨d, hd, he⟩ := List.mem_filterMap.1 he
    exact h.initialiser? (h.fields hn rfl hd) he
  · exact has_of_mem_inOrder (fun c hc => h.fields hn rfl hc) hq
  · rename_i test consequent alternate
    rcases List.mem_cons.1 hq with rfl | hq
    · exact h.fields hn rfl (by simp [Node.fields])
    · obtain ⟨m, hm, rfl⟩ := List.mem_map.1 hq
      exact h.fields hn rfl (by simp [Node.fields, Option.mem_toList.1 hm])
  · rename_i d cases
    split at hq
    · obtain ⟨run, hrun, hq⟩ := List.mem_flatMap.1 hq
      obtain ⟨tail, htail, hrun⟩ := List.mem_filterMap.1 hrun
      have hcases (c : Node) (hc : c ∈ tail) : Q c := by
        have hmem := ((List.mem_tails tail cases).1 htail).subset hc
        exact h.fields hn rfl (List.mem_cons_of_mem d hmem)
      exact has_of_mem_inOrder (h.caseRun? hcases hrun) hq
    · cases hq
  · cases hq

theorem has_of_mem_insideExpression (hn : Q n) (hq : q ∈ insideExpression s n) : q.Has Q R F := by
  unfold insideExpression at hq
  split at hq
  · obtain rfl := List.mem_singleton.1 hq
    exact h.fields hn rfl (by simp [Node.fields])
  · obtain rfl := List.mem_singleton.1 hq
    exact h.fields hn rfl (by simp [Node.fields])
  · obtain rfl := List.mem_singleton.1 hq
    exact h.fields hn rfl (by simp [Node.fields])
  · obtain rfl := List.mem_singleton.1 hq
    exact h.fields hn rfl (by simp [Node.fields])
  · split at hq
    · obtain rfl := List.mem_singleton.1 hq
      exact h.fields hn rfl (by simp [Node.fields])
    · obtain rfl := List.mem_singleton.1 hq
      exact h.search hn
  · split at hq
    · obtain rfl := List.mem_singleton.1 hq
      exact h.search hn
    · rcases List.mem_cons.1 hq with rfl | hq
      · exact h.fields hn rfl (by simp [Node.fields])
      · obtain rfl := List.mem_singleton.1 hq
        exact h.fields hn rfl (by simp [Node.fields])
  · obtain rfl := List.mem_singleton.1 hq
    exact h.search hn

theorem has_of_mem_insideCall {c : Call} {arguments : List Node} {line : Nat}
    (ha : ∀ a ∈ arguments, Q a) (hq : q ∈ insideCall s arguments line c) : q.Has Q R F := by
  unfold insideCall at hq
  split at hq
  · split at hq
    · rename_i r hr
      obtain ⟨hsuccess, herror⟩ := h.request ha hr
      obtain ⟨n, hn, hplace⟩ := List.mem_filterMap.1 hq
      obtain ⟨⟨params, body⟩, hf, rfl⟩ := Option.map_eq_some_iff.1 hplace
      have hcallback : Q n := by
        rcases List.mem_append.1 hn with hn | hn
        · exact hsuccess n (Option.mem_toList.1 hn)
        · exact herror n (Option.mem_toList.1 hn)
      exact h.functionOf? (h.search hcallback) hf
    · cases hq
  · split at hq
    · rename_i t ht
      obtain ⟨-, -, hstatements⟩ := h.transaction ha ht
      obtain ⟨c, hc, rfl⟩ := List.mem_map.1 hq
      obtain ⟨n, hn, hc⟩ := List.mem_filterMap.1 hc
      obtain ⟨callee, hcall, hname⟩ := h.mutationOn? (hstatements n hn) hc
      refine ⟨callee, hcall, ?_⟩
      rintro store method heq
      cases heq
      exact hname
    · cases hq
  · cases hq

/-- One step: what is inherited holds at the places inside a place. -/
theorem Has.inner (hp : p.Has Q R F) (hq : q ∈ p.inner) : q.Has Q R F := by
  cases p with
  | node s n => exact has_of_mem_insideNode h hp hq
  | function s params body => exact has_of_mem_insideFunction h hp hq
  | statement s n => exact has_of_mem_insideStatement h hp hq
  | expression s n => exact has_of_mem_insideExpression h hp hq
  | call s c arguments line =>
    obtain ⟨callee, hcall, -⟩ := hp
    have harguments (a : Node) (ha : a ∈ arguments) : Q a :=
      h.fields hcall rfl (List.mem_cons_of_mem callee ha)
    exact has_of_mem_insideCall h harguments hq

/-- What is inherited holds wherever a place is compiled by way of another one. -/
theorem Has.of_reaches (hp : p.Has Q R F) (hq : p.Reaches q) : q.Has Q R F := by
  induction hq with
  | refl => exact hp
  | tail _ hstep ih => exact ih.inner h hstep

end Inside

end Place

end Scenario

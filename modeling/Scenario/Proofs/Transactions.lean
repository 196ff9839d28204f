import Scenario.Proofs.Lexical

namespace Scenario

open Syntax Analysis

namespace Spot

/-- Statements with those of the blocks among them in their places. The scope that holds at a statement
of a block has what the block declares; all are looked at in one scope. -/
def spliced (outer : Scope) (s : Scope) : List Node → List Spot
  | [] => []
  | .block body :: more => spliced outer (s.child.hoist body) body ++ spliced outer s more
  | n :: more => ⟨outer, s, n⟩ :: spliced outer s more

/-- The statements of the body of a function that is entered in a scope, and looked at in it. -/
def ofBody (s : Scope) : Node → List Spot
  | .block body => spliced s (s.hoist body) body
  | e => [⟨s, s, .expressionStatement e⟩]

theorem map_node_spliced (outer s : Scope) (ns : List Node) :
    (spliced outer s ns).map node = flatten ns := by
  fun_induction spliced outer s ns with
  | case1 => rw [List.map_nil, flatten]
  | case2 s body more ih₁ ih₂ => rw [List.map_append, ih₁, ih₂, flatten]
  | case3 s n more hn ih =>
    rw [List.map_cons, ih, flatten]
    exact hn

theorem map_node_ofBody (s : Scope) (body : Node) :
    (ofBody s body).map node = bodyStatements body := by
  cases body with
  | block body => exact map_node_spliced s _ body
  | _ => rfl

theorem aligned_of_mem_spliced {outer s : Scope} {ns : List Node} {x : Spot}
    (hs : outer.declares = s.declares) (h : x ∈ spliced outer s ns) : x.Aligned ∧ x.outer = outer := by
  fun_induction spliced outer s ns with
  | case1 => cases h
  | case2 s body more ih₁ ih₂ =>
    rcases List.mem_append.1 h with h | h
    · exact ih₁ (hs.trans (Scope.declares_hoist body s.child).symm) h
    · exact ih₂ hs h
  | case3 s n more hn ih =>
    rcases List.mem_cons.1 h with rfl | h
    · exact ⟨hs, rfl⟩
    · exact ih hs h

theorem aligned_of_mem_ofBody {s : Scope} {body : Node} {x : Spot} (h : x ∈ ofBody s body) :
    x.Aligned ∧ x.outer = s := by
  unfold ofBody at h
  split at h
  · exact aligned_of_mem_spliced (Scope.declares_hoist _ s).symm h
  · obtain rfl := List.mem_singleton.1 h
    exact ⟨rfl, rfl⟩

end Spot

theorem Transaction.exists_of_ofFunction {line : Nat} {params : List Node} {body : Node}
    {t : Transaction} (h : ofFunction line params body = .ok t) :
    ∃ more, params = .identifier t.proxy :: more ∧ t.params = params ∧
      t.statements = bodyStatements body := by
  unfold ofFunction at h
  split at h
  · cases h
    exact ⟨_, rfl, rfl, rfl⟩
  · cases h

/-- The function that a transaction is read off. -/
theorem Transaction.exists_of_ofArguments {arguments : List Node} {line : Nat} {t : Transaction}
    (h : ofArguments arguments line = .ok t) :
    ∃ callback params body, arguments = [callback] ∧
      functionOf? callback = some (.identifier t.proxy :: params, body) ∧
      t.params = .identifier t.proxy :: params ∧ t.statements = bodyStatements body := by
  unfold ofArguments at h
  split at h
  · rename_i callback
    split at h
    · rename_i hu
      obtain ⟨more, rfl, hparams, hstatements⟩ := exists_of_ofFunction h
      exact ⟨callback, more, _, rfl, by rw [functionOf?, hu], hparams, hstatements⟩
    · rename_i hu
      obtain ⟨more, rfl, hparams, hstatements⟩ := exists_of_ofFunction h
      exact ⟨callback, more, _, rfl, by rw [functionOf?, hu], hparams, hstatements⟩
    · cases h
  · cases h

/-- An action is what a call of a method of a store is compiled to. -/
structure Accepted (s : Scope) (store : Store) (c : MethodCall) (a : Act) : Prop where
  kind : c.method.bind storeMethod? = some a.kind
  scope : a.scope = .set store.scope
  storage : a.storage = .set store.storage
  outcome : ∃ p q, (storeAction s store c.method c.arguments c.line).outcome p = (.ok a, q)

theorem outcome_storeAction_transaction {s : Scope} {store : Store} {method : String}
    {arguments : List Node} {line : Nat} {a : Act} {p q : Progress}
    (hk : storeMethod? method = some .storeTransaction)
    (h : (storeAction s store (some method) arguments line).outcome p = (.ok a, q)) :
    ∃ t as p' q', Transaction.ofArguments arguments line = .ok t ∧
      (transactionActions ((s.function t.params).bind t.proxy (some store)) store t.proxy line
        t.statements).outcome p = (.ok as, p') ∧
      as ≠ [] ∧ (Act.transaction store as).outcome q' = (a, q) := by
  rw [storeAction_of_transaction hk] at h
  obtain ⟨_, p₁, hplain, h⟩ := of_outcome_bind_ok h
  obtain ⟨t, p₂, ht, h⟩ := of_outcome_bind_ok h
  obtain ⟨as, p₃, has, h⟩ := of_outcome_bind_ok h
  rw [outcome_ofReading] at hplain ht
  obtain ⟨-, rfl⟩ := Prod.mk.inj hplain
  obtain ⟨hread, rfl⟩ := Prod.mk.inj ht
  cases as with
  | nil => cases h
  | cons b bs =>
    refine ⟨t, b :: bs, p₃, p₃, hread, has, List.cons_ne_nil b bs, ?_⟩
    have hlift : (liftM (Act.transaction store (b :: bs)) : Analysis Act).outcome p₃ = (.ok a, q) := h
    rw [outcome_lift] at hlift
    obtain ⟨ha, hq⟩ := Prod.mk.inj hlift
    exact Prod.ext (Except.ok.inj ha) hq

theorem accepted_of_outcome {s : Scope} {store : Store} {c : MethodCall} {a : Act} {p q : Progress}
    (h : (storeAction s store c.method c.arguments c.line).outcome p = (.ok a, q)) :
    Accepted s store c a := by
  obtain ⟨method, arguments, line⟩ := c
  cases method with
  | none =>
    rw [storeAction] at h
    cases h
  | some method =>
    cases hk : storeMethod? method with
    | none =>
      rw [storeAction] at h
      simp only [hk] at h
      cases h
    | some kind =>
      by_cases ht : kind = .storeTransaction
      · subst ht
        obtain ⟨t, as, p', q', -, -, -, ha⟩ := outcome_storeAction_transaction hk h
        obtain ⟨rfl, -⟩ := Prod.mk.inj ha
        exact ⟨hk, rfl, rfl, p, q, h⟩
      · have hout := h
        rw [storeAction_of_mutation hk ht] at h
        obtain ⟨_, p₁, -, h⟩ := of_outcome_bind_ok h
        obtain ⟨r, hr⟩ | ⟨path, value, -, hm⟩ :=
          outcome_mutationAct s store ("store." ++ method ++ "()") arguments line hk ht
        · rw [hr] at h
          cases h
        · rw [hm, outcome_lift] at h
          obtain ⟨ha, -⟩ := Prod.mk.inj h
          obtain rfl := Except.ok.inj ha
          exact ⟨hk, rfl, rfl, p, q, hout⟩

/-- The calls of the store are compiled in order, and the other statements mention no action. -/
theorem forall₂_accepted {s : Scope} {store : Store} {proxy : String} {line : Nat} {ns : List Node}
    {as : List Act} {p q : Progress}
    (h : (transactionActions s store proxy line ns).outcome p = (.ok as, q)) :
    List.Forall₂ (Accepted s store) (ns.filterMap (mutationOn? proxy)) as ∧
      ∀ n ∈ ns, mutationOn? proxy n = none → mentions s n = false := by
  induction ns generalizing as p with
  | nil =>
    rw [transactionActions] at h
    cases h
    exact ⟨.nil, by simp⟩
  | cons n ns ih =>
    cases hn : mutationOn? proxy n with
    | some c =>
      rw [transactionActions_of_mutation hn] at h
      obtain ⟨a, p₁, ha, h⟩ := of_outcome_bind_ok h
      obtain ⟨more, p₂, hmore, h⟩ := of_outcome_bind_ok h
      cases h
      obtain ⟨hall, hothers⟩ := ih hmore
      refine ⟨?_, List.forall_mem_cons.2 ⟨fun hnone => ?_, hothers⟩⟩
      · rw [List.filterMap_cons, hn]
        exact .cons (accepted_of_outcome ha) hall
      · rw [hn] at hnone
        cases hnone
    | none =>
      rw [transactionActions_of_none hn] at h
      cases hm : mentions s n with
      | true =>
        rw [hm] at h
        cases h
      | false =>
        rw [hm] at h
        obtain ⟨hall, hothers⟩ := ih h
        rw [List.filterMap_cons, hn]
        exact ⟨hall, List.forall_mem_cons.2 ⟨fun _ => hm, hothers⟩⟩

/-- In a transaction that is compiled, every statement that calls a method of the store by its name
there becomes one action on the store, in order. A statement that is passed over has no action in it as
seen from the scope of the parameters. So an action in it is by a name that means something else there
than where it stands, because the function declares it, or a function in it does: no action is lost
where there are no such names. -/
theorem changes_of_transaction {s : Scope} {store : Store} {arguments : List Node} {line : Nat}
    {a : Act} {p q : Progress}
    (h : (storeAction s store (some "transaction") arguments line).outcome p = (.ok a, q)) :
    ∃ callback proxy params body as, arguments = [callback] ∧
      functionOf? callback = some (.identifier proxy :: params, body) ∧
      a.kind = .storeTransaction ∧ a.scope = .set store.scope ∧ a.storage = .set store.storage ∧
      a.actions = .set as ∧ as ≠ [] ∧
      let inner := (s.function (.identifier proxy :: params)).bind proxy (some store)
      let spots := Spot.ofBody inner body
      spots.map Spot.node = bodyStatements body ∧
      List.Forall₂ (Accepted inner store) (spots.filterMap fun x => mutationOn? proxy x.node) as ∧
      ∀ x ∈ spots, mutationOn? proxy x.node = none →
        (∀ y ∈ x.all, y.seen = false) ∧
        (∀ y ∈ x.all, y.acts = true → ¬y.Unshadowed) ∧
        ((∀ y ∈ x.all, y.Unshadowed) → ∀ y ∈ x.all, y.acts = false) := by
  obtain ⟨t, as, p', q', ht, has, hne, ha⟩ := outcome_storeAction_transaction rfl h
  obtain ⟨callback, params, body, harguments, hfunction, hparams, hstatements⟩ :=
    Transaction.exists_of_ofArguments ht
  rw [hparams, hstatements, ← Spot.map_node_ofBody
    ((s.function (.identifier t.proxy :: params)).bind t.proxy (some store))] at has
  obtain ⟨hall, hothers⟩ := forall₂_accepted has
  cases ha
  refine ⟨callback, t.proxy, params, body, as, harguments, hfunction, rfl, rfl, rfl, rfl, hne,
    Spot.map_node_ofBody _ body, ?_, fun x hx hnone => ?_⟩
  · rwa [List.filterMap_map] at hall
  · obtain ⟨haligned, houter⟩ := Spot.aligned_of_mem_ofBody hx
    have hmentions := hothers x.node (List.mem_map_of_mem hx) hnone
    have hunseen : ∀ y ∈ x.all, y.seen = false := by
      intro y hy
      rw [← houter] at hmentions
      by_contra hseen
      rw [(mentions_iff_seen x).2 ⟨y, hy, by simpa using hseen⟩] at hmentions
      cases hmentions
    have hacts {y : Spot} (hy : y ∈ x.all) (hu : y.Unshadowed) : y.acts = false := by
      rw [← Spot.seen_eq_acts (haligned.of_mem_all hy) hu]
      exact hunseen y hy
    refine ⟨hunseen, fun y hy ht hu => ?_, fun hu y hy => hacts hy (hu y hy)⟩
    rw [hacts hy hu] at ht
    cases ht

/-- A change by an alias that the function declares is lost. -/
theorem changes_of_transaction_alias :
    let store : Store := { scope := .scenario, storage := .memory }
    let s : Scope := { bindings := [("s", some store)] }
    let set (name key : String) : Node := .expressionStatement
      (.call (.member (.identifier name) (.identifier "set") false) [.string key, .boolean true] 2)
    let other : Node :=
      .variableDeclaration "const" [.declarator (.identifier "t") (some (.identifier "tx"))]
    let body : Node := .block [other, set "t" "a", set "tx" "b"]
    let inner := (s.function [.identifier "tx"]).bind "tx" (some store)
    ∃ a b q, (storeAction s store (some "transaction") [.arrow [.identifier "tx"] body 2] 2).outcome {} =
        (.ok a, q) ∧ a.actions = .set [b] ∧ b.keyPath = .set "b" ∧
      ∃ x ∈ Spot.ofBody inner body, mutationOn? "tx" x.node = none ∧
        ∃ y ∈ x.all, y.acts = true ∧ ¬y.Unshadowed := by
  intro store s set other body inner
  have hbody : bodyStatements body = [other, set "t" "a", set "tx" "b"] := by
    simp [bodyStatements, flatten, body, other, set]
  have hspot : Spot.mk inner (inner.bind "t" (some store)) (set "t" "a") ∈ Spot.ofBody inner body := by
    have hhoist : inner.hoist [other, set "t" "a", set "tx" "b"] = inner.bind "t" (some store) := rfl
    simp [Spot.ofBody, Spot.spliced, body, hhoist, other, set]
  have hother : mentions inner other = false := by
    simp [other, mentions, mentionsAny, Scope.isActionCall, Node.children, Node.fields, Node.isAbsent,
      Scope.within]
  have hset : mentions inner (set "t" "a") = false := by
    have hnone : inner.classify (.member (.identifier "t") (.identifier "set") false) = none := rfl
    simp [set, mentions, mentionsAny, Node.children, Node.fields, Node.isAbsent, Scope.within, hnone,
      Scope.isActionCall, Callee.isStoreFactory, Callee.identifier?, Node.unwrap]
  have hout : ∃ a b q, (storeAction s store (some "transaction")
      [.arrow [.identifier "tx"] body 2] 2).outcome {} = (.ok a, q) ∧
      a.actions = .set [b] ∧ b.keyPath = .set "b" := by
    have hactions : transactionActions inner store "tx" 2 (bodyStatements body) = (do
        let first ← storeAction inner store (some "set") [.string "b", .boolean true] 2
        return [first]) := by
      rw [hbody, transactionActions_of_none rfl, hother, if_neg (by simp),
        transactionActions_of_none rfl, hset, if_neg (by simp), transactionActions_of_mutation rfl,
        transactionActions]
      rfl
    rw [storeAction_of_mutation rfl (by decide)] at hactions
    rw [storeAction_of_transaction rfl, outcome_bind, outcome_ofReading]
    change ∃ a b q, (ofReading (Transaction.ofArguments _ _) >>= _ : Analysis Act).outcome {} =
      (.ok a, q) ∧ _
    rw [outcome_bind, outcome_ofReading]
    change ∃ a b q, (transactionActions inner store "tx" 2 (bodyStatements body) >>= _ :
      Analysis Act).outcome {} = (.ok a, q) ∧ _
    rw [hactions]
    exact ⟨_, _, _, rfl, rfl, rfl⟩
  obtain ⟨a, b, q, ha, has, hb⟩ := hout
  obtain ⟨callback, proxy, params, body', as, hcallback, hfunction, -, -, -, -, -, -, -, hothers⟩ :=
    changes_of_transaction ha
  cases hcallback
  cases hfunction
  obtain ⟨-, hlost, -⟩ := hothers _ hspot rfl
  have hcall : Spot.mk inner (inner.bind "t" (some store))
      (.call (.member (.identifier "t") (.identifier "set") false) [.string "a", .boolean true] 2) ∈
      (Spot.mk inner (inner.bind "t" (some store)) (set "t" "a")).all :=
    Spot.mem_all_of_mem_parts (List.mem_singleton_self _) (Spot.mem_all_self _)
  exact ⟨a, b, q, ha, has, hb, _, hspot, rfl, _, hcall, rfl, hlost _ hcall rfl⟩

end Scenario

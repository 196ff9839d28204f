import Scenario.Proofs.Lexical

namespace Scenario

open Syntax Analysis

/-- Whether a node declares names. -/
def Syntax.Node.isDeclaration : Node → Bool
  | .variableDeclaration .. | .functionDeclaration .. => true
  | _ => false

namespace Spot

/-- A node in the scope that holds there. -/
def here (s : Scope) (n : Node) : Spot := ⟨s, s, n⟩

/-- An action stands under the node. -/
def HasAction (x : Spot) : Prop := ∃ y ∈ x.all, y.acts = true

/-- Under the node nothing is declared, no function stands, and no action stands in what is passed
to a call that means something. -/
def Flat (x : Spot) : Prop :=
  ∀ y ∈ x.all, y.node.isDeclaration = false ∧ y.node.isFunctionExpression = false ∧
    ∀ callee arguments line, y.node = .call callee arguments line →
      (y.inner.classify callee).isSome = true →
        ∀ a ∈ arguments, ¬(here (y.inner.within y.node) a).HasAction

variable {s : Scope} {n : Node}

theorem Flat.of_mem_parts {x y : Spot} (h : x.Flat) (hy : y ∈ x.parts) : y.Flat :=
  fun z hz => h z (mem_all_of_mem_parts hy hz)

theorem Flat.isFunctionExpression (h : (here s n).Flat) : n.isFunctionExpression = false :=
  (h (here s n) (mem_all_self _)).2.1

/-- A statement of flat code declares nothing. -/
theorem Flat.hoistStatement {x : Spot} (h : x.Flat) (t : Scope) : t.hoistStatement x.node = t := by
  have hself {y : Spot} (hy : y.Flat) : t.hoistDeclaration y.node = t := by
    have hnode := (hy y y.mem_all_self).1
    unfold Scope.hoistDeclaration
    split
    · rename_i hn
      rw [hn] at hnode
      cases hnode
    · rename_i hn
      rw [hn] at hnode
      cases hnode
    · rfl
  unfold Scope.hoistStatement
  split
  · rename_i declaration specifiers hn
    have hpart : ⟨x.outer.within x.node, x.inner.within x.node, declaration⟩ ∈ x.parts := by
      rw [parts, hn]
      exact List.mem_map.2 ⟨_, List.mem_map.2 ⟨declaration, by simp [Node.fields], rfl⟩, rfl⟩
    exact hself (h.of_mem_parts hpart)
  · exact hself h

theorem Flat.hoist_block (hs : s.isModule = false) {body : List Node}
    (h : (here s (.block body)).Flat) : s.child.hoist body = s := by
  rw [Scope.child_of_isModule_eq_false hs]
  refine hoist_eq_self fun m hm => ?_
  have hpart : ⟨s.within (.block body), s.child.hoist body, m⟩ ∈ (here s (.block body)).parts :=
    List.mem_map.2 ⟨_, List.mem_map.2 ⟨m, hm, rfl⟩, rfl⟩
  exact (h.of_mem_parts hpart).hoistStatement s

/-- The scope stays the same in flat code, but for the declarations of stores. -/
theorem Flat.parts_eq (hs : s.isModule = false) (h : (here s n).Flat) :
    (here s n).parts = n.fields.map (here (s.within n)) := by
  have hfunction := h.isFunctionExpression
  have hdeclaration := (h (here s n) (mem_all_self _)).1
  have hscope : s.parts n = n.fields.map fun m => (s.within n, m) := by
    unfold Scope.parts
    split
    · cases hfunction
    · cases hfunction
    · cases hdeclaration
    · rename_i body
      rw [h.hoist_block hs]
      rfl
    · rfl
  simp [parts, here, hscope, Function.comp_def]

theorem Flat.of_mem_fields (hs : s.isModule = false) (h : (here s n).Flat) {c : Node}
    (hc : c ∈ n.fields) : (here (s.within n) c).Flat := by
  refine h.of_mem_parts ?_
  rw [h.parts_eq hs]
  exact List.mem_map_of_mem hc

theorem Flat.of_mem_fields_of_within (hs : s.isModule = false) (h : (here s n).Flat)
    (hw : s.within n = s) {c : Node} (hc : c ∈ n.fields) : (here s c).Flat := by
  have hflat := h.of_mem_fields hs hc
  rwa [hw] at hflat

end Spot

theorem Scope.isModule_within (s : Scope) (n : Node) : (s.within n).isModule = s.isModule := by
  unfold within
  split
  · split <;> rfl
  · rfl

namespace Spot

variable {s : Scope} {n : Node}

theorem Flat.outer_eq_inner {s : Scope} {n : Node} (hs : s.isModule = false) (h : (here s n).Flat)
    {y : Spot} (hy : y ∈ (here s n).all) : y.outer = y.inner := by
  rw [all_eq, h.parts_eq hs] at hy
  rcases List.mem_cons.1 hy with rfl | hy
  · rfl
  · obtain ⟨x, hx, hy⟩ := List.mem_flatMap.1 hy
    obtain ⟨c, hc, rfl⟩ := List.mem_map.1 hx
    exact Flat.outer_eq_inner ((s.isModule_within n).trans hs) (h.of_mem_fields hs hc) hy
termination_by sizeOf n
decreasing_by exact Node.sizeOf_lt_of_mem_fields hc

/-- In flat code, a search for a mention finds just the actions. -/
theorem Flat.mentions_iff (hs : s.isModule = false) (h : (here s n).Flat) :
    mentions s n = true ↔ (here s n).HasAction := by
  have hsame : ∀ y ∈ (here s n).all, y.seen = y.acts := fun y hy => by
    rw [seen, acts, h.outer_eq_inner hs hy]
  rw [show mentions s n = mentions (here s n).outer (here s n).node from rfl, mentions_iff_seen]
  exact exists_congr fun y => and_congr_right fun hy => by rw [hsame y hy]

theorem Flat.mentions_eq_false_iff (hs : s.isModule = false) (h : (here s n).Flat) :
    mentions s n = false ↔ ¬(here s n).HasAction := by
  rw [← Bool.not_eq_true, h.mentions_iff hs]

theorem Flat.mentions_argument (hs : s.isModule = false) {callee a : Node} {arguments : List Node}
    {line : Nat} (h : (here s (.call callee arguments line)).Flat)
    (hc : (s.classify callee).isSome = true) (ha : a ∈ arguments) :
    mentions (s.within (.call callee arguments line)) a = false := by
  have hflat := h.of_mem_fields hs (c := a) (List.mem_cons_of_mem callee ha)
  rw [hflat.mentions_eq_false_iff ((s.isModule_within _).trans hs)]
  exact (h _ (mem_all_self _)).2.2 callee arguments line rfl hc a ha

end Spot

theorem mentions_iff_fields {s : Scope} {n : Node} (ha : s.isActionCall n = false)
    (hw : s.within n = s) : mentions s n = true ↔ ∃ m ∈ n.fields, mentions s m = true := by
  rw [mentions_iff_children, hw, Spot.exists_mem_children mentions_absent]
  simp [ha]

theorem mentions_wrapped {s : Scope} {n e : Node} (ha : s.isActionCall n = false)
    (hw : s.within n = s) (he : n.fields = [e]) : mentions s n = mentions s e := by
  rw [Bool.eq_iff_iff, mentions_iff_fields ha hw, he]
  simp

theorem mentions_of_fields_eq_nil {s : Scope} {n : Node} (ha : s.isActionCall n = false)
    (he : n.fields = []) : mentions s n = false := by
  rw [← Bool.not_eq_true, mentions_iff_children, Node.children, he]
  simp [ha]

theorem mentions_identifier (s : Scope) (name : String) : mentions s (.identifier name) = false :=
  mentions_of_fields_eq_nil rfl rfl

theorem mentions_unwrap (s : Scope) (n : Node) : mentions s n.unwrap = mentions s n := by
  fun_induction Node.unwrap n with
  | case1 e ih => rw [ih, mentions_wrapped (n := .parenthesized e) rfl rfl rfl]
  | case2 e ih => rw [ih, mentions_wrapped (n := .assertion e) rfl rfl rfl]
  | case3 e ih => rw [ih, mentions_wrapped (n := .container e) rfl rfl rfl]
  | case4 => rfl

theorem mentions_of_isStoreFactory (s : Scope) {callee : Node}
    (h : Callee.isStoreFactory callee = true) : mentions s callee = false := by
  unfold Callee.isStoreFactory Callee.identifier? at h
  rw [← mentions_unwrap]
  split at h
  · rename_i hn
    rw [hn]
    exact mentions_identifier s _
  · cases h

/-- A call that is no action declares a store or reads one. -/
theorem Scope.exists_read_of_classify (s : Scope) {callee : Node} {c : Call}
    (hc : s.classify callee = some c) (hno : c.isAction = false)
    (hfactory : Callee.isStoreFactory callee = false) :
    ∃ receiver store, Callee.method? callee = some (receiver, some "get") ∧
      s.store? receiver = some store := by
  unfold classify at hc
  rw [if_neg (by simp [hfactory])] at hc
  split at hc
  · split at hc
    · cases hc
    · obtain ⟨f, -, rfl⟩ := Option.map_eq_some_iff.1 hc
      cases hno
  · obtain ⟨⟨receiver, method⟩, hm, hc⟩ := Option.bind_eq_some_iff.1 hc
    dsimp only at hc
    unfold classifyMethod at hc
    split at hc
    · rename_i store hstore
      cases hc
      split at hno
      · rename_i hmethod
        exact ⟨receiver, store, by rw [hm, hmethod], hstore⟩
      · cases hno
    · split at hc
      · split at hc
        · cases hc
        · obtain ⟨space, -, rfl⟩ := Option.map_eq_some_iff.1 hc
          cases hno
      · cases hc

namespace Spot

variable {s : Scope} {n : Node}

theorem Flat.unwrap (hs : s.isModule = false) (h : (here s n).Flat) : (here s n.unwrap).Flat := by
  fun_induction Node.unwrap n with
  | case1 e ih => exact ih (h.of_mem_fields hs (c := e) (by simp [Node.fields]))
  | case2 e ih => exact ih (h.of_mem_fields hs (c := e) (by simp [Node.fields]))
  | case3 e ih => exact ih (h.of_mem_fields hs (c := e) (by simp [Node.fields]))
  | case4 => exact h

/-- A call that is no action has none in what is passed to it, so it could have one in its callee
only. -/
theorem Flat.mentions_call (hs : s.isModule = false) {callee : Node} {arguments : List Node}
    {line : Nat} (h : (here s (.call callee arguments line)).Flat) {c : Call}
    (hc : s.classify callee = some c) (hno : c.isAction = false)
    (hcallee : mentions (s.within (.call callee arguments line)) callee = false) :
    mentions s (.call callee arguments line) = false := by
  rw [← Bool.not_eq_true, mentions_iff_children]
  rintro (ha | ⟨m, hm, hmentions⟩)
  · simp [Scope.isActionCall, hc, hno] at ha
  · obtain rfl | ha := List.mem_cons.1 (List.mem_filter.1 hm).1
    · rw [hcallee] at hmentions
      cases hmentions
    · rw [h.mentions_argument hs (by rw [hc]; rfl) ha] at hmentions
      cases hmentions

/-- What flat code refers to as a store has no action in it. -/
theorem Flat.mentions_of_store? (hs : s.isModule = false) (h : (here s n).Flat) {store : Store}
    (hstore : s.store? n = some store) : mentions s n = false := by
  have hflat := h.unwrap hs
  rw [← mentions_unwrap]
  unfold Scope.store? at hstore
  split at hstore
  · rename_i hn
    rw [hn]
    exact mentions_identifier s _
  · rename_i callee arguments line hn
    rw [hn] at hflat ⊢
    split at hstore
    · rename_i hfactory
      have hcallee : Callee.isStoreFactory callee = true := by simp_all
      exact hflat.mentions_call hs (c := .declaration) (by simp [Scope.classify, hcallee]) rfl
        (mentions_of_isStoreFactory _ hcallee)
    · cases hstore
  · cases hstore

/-- The callee of a read is a method of a store. -/
theorem Flat.mentions_of_method? (hs : s.isModule = false) (h : (here s n).Flat) {receiver : Node}
    {method : String} (hm : Callee.method? n = some (receiver, some method)) {store : Store}
    (hstore : s.store? receiver = some store) : mentions s n = false := by
  have hflat := h.unwrap hs
  rw [← mentions_unwrap]
  unfold Callee.method? at hm
  split at hm
  · rename_i base name computed hn
    rw [hn] at hflat ⊢
    simp only [Option.some.injEq, Prod.mk.injEq] at hm
    obtain ⟨rfl, hname⟩ := hm
    have hbase : mentions s base = false := by
      rw [← mentions_unwrap]
      refine Flat.mentions_of_store? hs (Flat.unwrap hs ?_) hstore
      exact hflat.of_mem_fields hs (by simp [Node.fields])
    unfold Node.propertyName? at hname
    split at hname
    · rename_i heq
      cases heq
      rw [← Bool.not_eq_true, mentions_iff_fields rfl rfl]
      simp [Node.fields, hbase, mentions_identifier]
    · cases hname
  · cases hm

/-- A call of flat code that is no action has none in it. -/
theorem Flat.mentions_of_isAction (hs : s.isModule = false) {callee : Node} {arguments : List Node}
    {line : Nat} (h : (here s (.call callee arguments line)).Flat) {c : Call}
    (hc : s.classify callee = some c) (hno : c.isAction = false) :
    mentions s (.call callee arguments line) = false := by
  refine h.mentions_call hs hc hno ?_
  cases hfactory : Callee.isStoreFactory callee with
  | true => exact mentions_of_isStoreFactory _ hfactory
  | false =>
    have hflat := h.of_mem_fields hs (c := callee) List.mem_cons_self
    rw [Scope.within, if_neg (by simp [hfactory])] at hflat ⊢
    obtain ⟨receiver, store, hm, hstore⟩ := s.exists_read_of_classify hc hno hfactory
    exact hflat.mentions_of_method? hs hm hstore

theorem Flat.handler?_eq_none (hs : s.isModule = false) (h : (here s n).Flat) :
    handler? n = none := by
  unfold handler?
  split
  · rename_i name value
    have hvalue : (here s value).Flat := h.of_mem_fields hs (c := value) (by simp [Node.fields])
    have hfunction := (hvalue.unwrap hs).isFunctionExpression
    split
    · split
      · simp_all [Node.isFunctionExpression]
      · simp_all [Node.isFunctionExpression]
      · rfl
    · rfl
  · rfl

/-- Outside calls that mean something, a search goes on to the parts of a node in the same scope. -/
theorem Flat.insideNode_eq (hs : s.isModule = false) (h : (here s n).Flat)
    (hn : ∀ callee arguments line, n = .call callee arguments line → s.classify callee = none) :
    ∃ ms : List Node, Place.insideNode s n = ms.map (.node s) ∧ (∀ m ∈ ms, m ∈ n.fields) ∧
      ∀ m ∈ n.children, m ∈ ms := by
  have hchildren : ∀ m ∈ n.children, m ∈ n.fields := fun m hm => (List.mem_filter.1 hm).1
  unfold Place.insideNode
  split
  · cases h.isFunctionExpression
  · cases h.isFunctionExpression
  · cases (h (here s _) (mem_all_self _)).1
  · rename_i body
    exact ⟨body, by rw [h.hoist_block hs], fun m hm => hm, hchildren⟩
  · rename_i name attributes children line
    have hattributes : attributes.map (Place.ofAttribute s) = attributes.map (.node s) := by
      refine List.map_congr_left fun a ha => ?_
      have hflat : (here s a).Flat := h.of_mem_fields hs (List.mem_append_left children ha)
      rw [Place.ofAttribute, hflat.handler?_eq_none hs]
    exact ⟨attributes ++ children, by rw [hattributes, List.map_append], fun m hm => hm, hchildren⟩
  · rename_i callee arguments line
    rw [hn callee arguments line rfl]
    exact ⟨_, rfl, hchildren, fun m hm => hm⟩
  · exact ⟨_, rfl, hchildren, fun m hm => hm⟩

/-- In flat code, a search comes to no site just where there is no action, and all its sites are
calls. -/
theorem Flat.sites_node {s : Scope} {n : Node} (hs : s.isModule = false) (h : (here s n).Flat) :
    (mentions s n = false ↔ (Place.node s n).sites = []) ∧
      ∀ x ∈ (Place.node s n).sites, ∃ t c arguments line, x = .call t c arguments line := by
  by_cases hn : ∃ callee arguments line c, n = .call callee arguments line ∧
      s.classify callee = some c
  · obtain ⟨callee, arguments, line, c, rfl, hc⟩ := hn
    have hinside :
        Place.insideNode s (.call callee arguments line) = [.call s c arguments line] := by
      rw [Place.insideNode, hc]
    rw [Place.sites_node, hinside, List.flatMap_singleton, Place.sites]
    cases hno : c.isAction with
    | true =>
      have hmentions : mentions s (.call callee arguments line) = true :=
        (mentions_iff_children _ _).2 (.inl (by simp [Scope.isActionCall, hc, hno]))
      simp [hmentions]
    | false => simp [h.mentions_of_isAction hs hc hno]
  · have hnone : ∀ callee arguments line, n = .call callee arguments line →
        s.classify callee = none := by
      intro callee arguments line hcall
      by_contra hsome
      obtain ⟨c, hc⟩ := Option.ne_none_iff_exists'.1 hsome
      exact hn ⟨callee, arguments, line, c, hcall, hc⟩
    obtain ⟨ms, hinside, hfields, hchildren⟩ := h.insideNode_eq hs hnone
    have hwithin : s.within n = s := by
      cases n with
      | call callee arguments line => exact Scope.within_of_classify_eq_none (hnone _ _ _ rfl)
      | _ => rfl
    have ha : s.isActionCall n = false := by
      cases n with
      | call callee arguments line => simp [Scope.isActionCall, hnone _ _ _ rfl]
      | _ => rfl
    have ih : ∀ m ∈ ms, (mentions s m = false ↔ (Place.node s m).sites = []) ∧
        ∀ x ∈ (Place.node s m).sites, ∃ t c arguments line, x = .call t c arguments line := by
      intro m hm
      exact (h.of_mem_fields_of_within hs hwithin (hfields m hm)).sites_node hs
    have hmentions : mentions s n = false ↔ ∀ m ∈ ms, mentions s m = false := by
      constructor
      · intro hfalse m hm
        have hpart := mentions_of_mem_fields hfalse (hfields m hm)
        rwa [hwithin] at hpart
      · intro hall
        rw [← Bool.not_eq_true, mentions_iff_children, hwithin]
        rintro (hcall | ⟨m, hm, htrue⟩)
        · rw [ha] at hcall
          cases hcall
        · rw [hall m (hchildren m hm)] at htrue
          cases htrue
    rw [Place.sites_node, hinside, List.flatMap_map]
    constructor
    · rw [hmentions, List.flatMap_eq_nil_iff]
      exact forall₂_congr fun m hm => (ih m hm).1
    · intro x hx
      obtain ⟨m, hm, hx⟩ := List.mem_flatMap.1 hx
      exact (ih m hm).2 x hx
termination_by sizeOf n
decreasing_by exact Node.sizeOf_lt_of_mem_fields (hfields m hm)

end Spot

end Scenario

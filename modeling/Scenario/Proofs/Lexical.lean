import Scenario.Proofs.Sites

namespace Scenario

open Syntax Analysis

namespace Scope

/-- What the body of a function consists of, in the scope that holds there. -/
def bodyParts (s : Scope) : Node → List (Scope × Node)
  | .block body => body.map fun n => (s.hoist body, n)
  | e => [(s, e)]

def functionParts (s : Scope) (params : List Node) (body : Node) : List (Scope × Node) :=
  params.map (fun n => (s.function params, n)) ++ (s.function params).bodyParts body

/-- What a node consists of, in the scopes that hold there. -/
def parts (s : Scope) (n : Node) : List (Scope × Node) :=
  match n with
  | .arrow params body _ => s.functionParts params body
  | .function _ params body _ => s.functionParts params body
  | .functionDeclaration _ params body _ => s.functionParts params body
  | .block body => body.map fun n => (s.child.hoist body, n)
  | n => n.fields.map fun m => (s.within n, m)

theorem sizeOf_le_of_mem_bodyParts {s : Scope} {n : Node} {y : Scope × Node}
    (h : y ∈ s.bodyParts n) : sizeOf y.2 ≤ sizeOf n := by
  unfold bodyParts at h
  split at h
  · rename_i body
    obtain ⟨m, hm, rfl⟩ := List.mem_map.1 h
    have := List.sizeOf_lt_of_mem hm
    rw [Node.block.sizeOf_spec]
    dsimp only
    omega
  · obtain rfl := List.mem_singleton.1 h
    exact Nat.le_refl _

theorem sizeOf_lt_of_mem_functionParts {s : Scope} {params : List Node} {body : Node}
    {y : Scope × Node} (h : y ∈ s.functionParts params body) :
    sizeOf y.2 < 1 + sizeOf params + sizeOf body := by
  rcases List.mem_append.1 h with h | h
  · obtain ⟨m, hm, rfl⟩ := List.mem_map.1 h
    have := List.sizeOf_lt_of_mem hm
    dsimp only
    omega
  · have := sizeOf_le_of_mem_bodyParts h
    have := weight_lt_sizeOf params
    omega

theorem sizeOf_lt_of_mem_parts {s : Scope} {n : Node} {y : Scope × Node} (h : y ∈ s.parts n) :
    sizeOf y.2 < sizeOf n := by
  unfold parts at h
  split at h
  · have := sizeOf_lt_of_mem_functionParts h
    rw [Node.arrow.sizeOf_spec]
    omega
  · have := sizeOf_lt_of_mem_functionParts h
    rw [Node.function.sizeOf_spec]
    omega
  · have := sizeOf_lt_of_mem_functionParts h
    rw [Node.functionDeclaration.sizeOf_spec]
    omega
  · obtain ⟨m, hm, rfl⟩ := List.mem_map.1 h
    exact Node.sizeOf_lt_of_mem_fields hm
  · obtain ⟨m, hm, rfl⟩ := List.mem_map.1 h
    exact Node.sizeOf_lt_of_mem_fields hm

theorem declares_bindAll (names : List String) (s : Scope) :
    (s.bindAll names).declares = s.declares := by
  induction names generalizing s with
  | nil => rfl
  | cons name names ih => exact ih (s.bind name none)

theorem declares_hoistDeclarators (ns : List Node) (s : Scope) :
    (hoistDeclarators ns s).declares = s.declares := by
  fun_induction hoistDeclarators ns s with
  | case1 s => rfl
  | case2 s target init more ih =>
    rw [ih]
    split
    · rfl
    · exact declares_bindAll _ _
  | case3 s n more h ih => exact ih

theorem declares_hoistDeclaration (s : Scope) (n : Node) :
    (s.hoistDeclaration n).declares = s.declares := by
  unfold hoistDeclaration
  split
  · rfl
  · exact declares_hoistDeclarators _ s
  · rfl

theorem declares_hoistStatement (s : Scope) (n : Node) :
    (s.hoistStatement n).declares = s.declares := by
  unfold hoistStatement
  split <;> exact declares_hoistDeclaration s _

theorem declares_hoist (ns : List Node) (s : Scope) :
    (s.hoist ns).declares = s.declares := by
  induction ns generalizing s with
  | nil => rfl
  | cons n ns ih => exact (ih (s.hoistStatement n)).trans (declares_hoistStatement s n)

theorem declares_function (s : Scope) (params : List Node) :
    (s.function params).declares = s.declares :=
  declares_bindAll _ _

theorem declares_within {s t : Scope} (h : s.declares = t.declares) (n : Node) :
    (s.within n).declares = (t.within n).declares := by
  unfold within
  split
  · split
    · rfl
    · exact h
  · exact h

theorem declares_of_mem_bodyParts {s : Scope} {n : Node} {y : Scope × Node}
    (h : y ∈ s.bodyParts n) : y.1.declares = s.declares := by
  unfold bodyParts at h
  split at h
  · obtain ⟨m, -, rfl⟩ := List.mem_map.1 h
    exact declares_hoist _ s
  · obtain rfl := List.mem_singleton.1 h
    rfl

theorem declares_of_mem_functionParts {s : Scope} {params : List Node} {body : Node}
    {y : Scope × Node} (h : y ∈ s.functionParts params body) : y.1.declares = s.declares := by
  rcases List.mem_append.1 h with h | h
  · obtain ⟨m, -, rfl⟩ := List.mem_map.1 h
    exact declares_function s params
  · exact (declares_of_mem_bodyParts h).trans (declares_function s params)

theorem declares_of_mem_parts {s : Scope} {n : Node} {y : Scope × Node} (h : y ∈ s.parts n) :
    y.1.declares = (s.within n).declares := by
  unfold parts at h
  split at h
  · exact declares_of_mem_functionParts h
  · exact declares_of_mem_functionParts h
  · exact declares_of_mem_functionParts h
  · obtain ⟨m, -, rfl⟩ := List.mem_map.1 h
    exact declares_hoist _ s.child
  · obtain ⟨m, -, rfl⟩ := List.mem_map.1 h
    rfl

end Scope

/-- The name that a call is classified by: its callee, or what a method is called on. -/
def Syntax.Node.subject? : Node → Option String
  | .call callee _ _ =>
    match Callee.identifier? callee, Callee.method? callee with
    | some name, _ => some name
    | none, some (.identifier name, _) => some name
    | none, _ => none
  | _ => none

theorem Syntax.Node.unwrap_unwrap (n : Node) : n.unwrap.unwrap = n.unwrap := by
  fun_induction Node.unwrap n with
  | case1 e ih => exact ih
  | case2 e ih => exact ih
  | case3 e ih => exact ih
  | case4 n h1 h2 h3 => rw [Node.unwrap] <;> assumption

theorem Callee.unwrap_of_method? {callee receiver : Node} {method : Option String}
    (h : method? callee = some (receiver, method)) : receiver.unwrap = receiver := by
  unfold method? at h
  split at h
  · cases h
    exact Node.unwrap_unwrap _
  · cases h

namespace Scope

/-- What a name is bound to. -/
def meaning (s : Scope) (name : String) : Option (Option Store) := s.bindings.lookup name

theorem isBound_eq (s : Scope) (name : String) : s.isBound name = (s.meaning name).isSome := by
  unfold isBound meaning
  induction s.bindings with
  | nil => rfl
  | cons b bindings ih =>
    obtain ⟨other, store⟩ := b
    rw [List.any_cons, List.lookup_cons, ih, Bool.beq_comm]
    cases name == other <;> rfl

theorem classifyMethod_congr {s t : Scope} {receiver : Node} (method : Option String)
    (hd : s.declares = t.declares)
    (h : ∀ name, receiver = .identifier name → s.meaning name = t.meaning name)
    (hu : receiver.unwrap = receiver) :
    s.classifyMethod receiver method = t.classifyMethod receiver method := by
  have hstore : s.store? receiver = t.store? receiver := by
    unfold store?
    rw [hu]
    split
    · rename_i name
      exact congrArg Option.join (h name rfl)
    · rw [hd]
    · rfl
  unfold classifyMethod
  rw [hstore]
  split
  · rfl
  · split
    · rename_i name hnone
      rw [isBound_eq, isBound_eq, h name rfl]
    · rfl

/-- A call is classified by what its subject means. -/
theorem classify_congr {s t : Scope} {callee : Node} (arguments : List Node) (line : Nat)
    (hd : s.declares = t.declares)
    (h : ∀ name, (Node.call callee arguments line).subject? = some name →
      s.meaning name = t.meaning name) : s.classify callee = t.classify callee := by
  unfold classify
  split
  · rfl
  · cases hi : Callee.identifier? callee with
    | some name =>
      have hname := h name (by simp [Node.subject?, hi])
      simp only [isBound_eq, hname]
    | none =>
      cases hm : Callee.method? callee with
      | none => rfl
      | some r =>
        obtain ⟨receiver, method⟩ := r
        have hu := Callee.unwrap_of_method? hm
        refine classifyMethod_congr method hd (fun name hr => ?_) hu
        subst hr
        exact h name (by simp [Node.subject?, hi, hm])

theorem isActionCall_congr {s t : Scope} {n : Node} (hd : s.declares = t.declares)
    (h : ∀ name, n.subject? = some name → s.meaning name = t.meaning name) :
    s.isActionCall n = t.isActionCall n := by
  cases n with
  | call callee arguments line => simp only [isActionCall, classify_congr arguments line hd h]
  | _ => rfl

end Scope

/-- A node, the scope that it is looked at in and the scope that holds there. -/
structure Spot where
  outer : Scope
  inner : Scope
  node : Node

namespace Spot

/-- What a node consists of. What it declares changes the scope that holds there, but not the one
that it is looked at in. -/
def parts (x : Spot) : List Spot :=
  (x.inner.parts x.node).map fun y => ⟨x.outer.within x.node, y.1, y.2⟩

theorem sizeOf_lt_of_mem_parts {x y : Spot} (h : y ∈ x.parts) : sizeOf y.node < sizeOf x.node := by
  obtain ⟨z, hz, rfl⟩ := List.mem_map.1 h
  exact Scope.sizeOf_lt_of_mem_parts hz

/-- The node and all that is under it. -/
noncomputable def all (x : Spot) : List Spot := x :: x.parts.attach.flatMap fun y => all y.1
termination_by sizeOf x.node
decreasing_by exact sizeOf_lt_of_mem_parts y.2

theorem all_eq (x : Spot) : x.all = x :: x.parts.flatMap all := by
  rw [all, List.flatMap_subtype (g := all) fun y _ => rfl, List.unattach_attach]

theorem mem_all_self (x : Spot) : x ∈ x.all := by
  rw [all_eq]
  exact List.mem_cons_self

theorem mem_all_of_mem_parts {x y z : Spot} (hy : y ∈ x.parts) (hz : z ∈ y.all) : z ∈ x.all := by
  rw [all_eq]
  exact List.mem_cons_of_mem x (List.mem_flatMap.2 ⟨y, hy, hz⟩)

/-- Whether the node is an action in the scope that it is looked at in. -/
def seen (x : Spot) : Bool := x.outer.isActionCall x.node

/-- Whether the node is an action in the scope that holds there. -/
def acts (x : Spot) : Bool := x.inner.isActionCall x.node

/-- What the body of a function expression consists of. It is looked at in the scope of its
parameters. -/
def body? (x : Spot) : Option (List Spot) :=
  match x.node with
  | .arrow params body _ | .function _ params body _ =>
    some (((x.inner.function params).bodyParts body).map fun y => ⟨x.outer.function params, y.1, y.2⟩)
  | _ => none

/-- A function expression with an action in it stands under the node, but not in an action. -/
inductive Nests (action : Spot → Bool) : Spot → Prop where
  | function {x y z : Spot} {body : List Spot} : x.body? = some body → y ∈ body → z ∈ y.all →
    action z = true → Nests action x
  | part {x y : Spot} : action x = false → x.body? = none → y ∈ x.parts → Nests action y →
    Nests action x

/-- All that decides whether a function with an action in it stands under the node. -/
noncomputable def examined (x : Spot) : List Spot :=
  x :: match x.body? with
    | some body => body.flatMap all
    | none => x.parts.attach.flatMap fun y => examined y.1
termination_by sizeOf x.node
decreasing_by exact sizeOf_lt_of_mem_parts y.2

theorem examined_eq (x : Spot) :
    x.examined = x :: match x.body? with
      | some body => body.flatMap all
      | none => x.parts.flatMap examined := by
  rw [examined]
  split
  · rfl
  · rw [List.flatMap_subtype (g := examined) fun y _ => rfl, List.unattach_attach]

section Search

variable {f : Scope → Node → Bool}

theorem exists_mem_children (habsent : ∀ s, f s .absent = false) (s : Scope) (n : Node) :
    (∃ m ∈ n.children, f s m = true) ↔ ∃ m ∈ n.fields, f s m = true := by
  constructor
  · rintro ⟨m, hm, h⟩
    exact ⟨m, (List.mem_filter.1 hm).1, h⟩
  · rintro ⟨m, hm, h⟩
    refine ⟨m, List.mem_filter.2 ⟨hm, ?_⟩, h⟩
    cases m with
    | absent => simp [habsent] at h
    | _ => rfl

variable (habsent : ∀ s, f s .absent = false)
  (hblock : ∀ s body, f s (.block body) = true ↔ ∃ m ∈ body, f s m = true)

include hblock in
theorem exists_mem_bodyParts (s t : Scope) (n : Node) :
    (∃ y ∈ t.bodyParts n, f s y.2 = true) ↔ f s n = true := by
  unfold Scope.bodyParts
  split
  · simp [hblock]
  · simp

include hblock in
theorem exists_mem_functionParts (s t : Scope) (params : List Node) (body : Node) :
    (∃ y ∈ t.functionParts params body, f s y.2 = true) ↔ ∃ m ∈ params ++ [body], f s m = true := by
  have hbody := exists_mem_bodyParts hblock s (t.function params) body
  simp only [Scope.functionParts, List.mem_append, or_and_right, exists_or, hbody]
  simp

include hblock in
theorem exists_mem_scopeParts (s t : Scope) (n : Node) :
    (∃ y ∈ t.parts n, f s y.2 = true) ↔ ∃ m ∈ n.fields, f s m = true := by
  unfold Scope.parts
  split
  · exact exists_mem_functionParts hblock s t _ _
  · exact exists_mem_functionParts hblock s t _ _
  · exact exists_mem_functionParts hblock s t _ _
  · simp [Node.fields]
  · simp

include habsent hblock in
/-- What is found in the parts of a node is what is found in its children. -/
theorem exists_mem_parts (x : Spot) :
    (∃ y ∈ x.parts, f y.outer y.node = true) ↔
      ∃ m ∈ x.node.children, f (x.outer.within x.node) m = true := by
  rw [exists_mem_children habsent, ← exists_mem_scopeParts hblock _ x.inner]
  simp [parts]

end Search

end Spot

theorem mentions_iff_children (s : Scope) (n : Node) :
    mentions s n = true ↔
      s.isActionCall n = true ∨ ∃ m ∈ n.children, mentions (s.within n) m = true := by
  have hany (t : Scope) (ns : List Node) :
      mentionsAny t ns = true ↔ ∃ m ∈ ns, mentions t m = true := by
    rw [← Bool.not_eq_false, mentionsAny_eq_false]
    simp
  rw [mentions, Bool.or_eq_true, hany]

theorem mentions_block (s : Scope) (body : List Node) :
    mentions s (.block body) = true ↔ ∃ m ∈ body, mentions s m = true := by
  have hfields := Spot.exists_mem_children mentions_absent s (.block body)
  rw [mentions_iff_children]
  simpa [Scope.isActionCall, Scope.within, Node.fields] using hfields

/-- A search for a mention finds the calls that are actions in the scope that it starts with. -/
theorem mentions_iff_seen (x : Spot) :
    mentions x.outer x.node = true ↔ ∃ y ∈ x.all, y.seen = true := by
  induction x using Spot.all.induct with
  | case1 x ih =>
    have hparts : (∃ y ∈ x.parts, mentions y.outer y.node = true) ↔
        ∃ z ∈ x.parts.flatMap Spot.all, z.seen = true := by
      constructor
      · rintro ⟨y, hy, hm⟩
        obtain ⟨z, hz, hseen⟩ := (ih ⟨y, hy⟩).1 hm
        exact ⟨z, List.mem_flatMap.2 ⟨y, hy, hz⟩, hseen⟩
      · rintro ⟨z, hz, hseen⟩
        obtain ⟨y, hy, hz⟩ := List.mem_flatMap.1 hz
        exact ⟨y, hy, (ih ⟨y, hy⟩).2 ⟨z, hz, hseen⟩⟩
    have hchildren := Spot.exists_mem_parts mentions_absent mentions_block x
    rw [mentions_iff_children, ← hchildren, hparts, Spot.all_eq]
    simp [Spot.seen]

/-- Whether a function with actions in it stands under a node. -/
def nests (s : Scope) (n : Node) : Bool := (nestedFunction? s n).isSome

theorem firstNestedFunction?_isSome (s : Scope) (ns : List Node) :
    (firstNestedFunction? s ns).isSome = true ↔ ∃ m ∈ ns, nests s m = true := by
  unfold nests
  induction ns with
  | nil => simp [firstNestedFunction?]
  | cons n more ih =>
    rw [firstNestedFunction?]
    cases hn : nestedFunction? s n with
    | none => simp [hn, ih]
    | some line => simp [hn]

/-- Outside functions, a nested function is one of a part, unless the node is an action. -/
theorem nests_iff_children {s : Scope} {n : Node} (h : n.isFunctionExpression = false) :
    nests s n = true ↔ s.isActionCall n = false ∧
      ∃ m ∈ n.children, nests (s.within n) m = true := by
  rw [← firstNestedFunction?_isSome]
  unfold nests nestedFunction?
  split
  · rename_i ha
    simp [ha]
  · rename_i ha
    split
    · cases h
    · cases h
    · simp [ha]

theorem nests_absent (s : Scope) : nests s .absent = false := by
  rw [← Bool.not_eq_true, nests_iff_children rfl]
  simp [Node.children, Node.fields]

theorem nests_block (s : Scope) (body : List Node) :
    nests s (.block body) = true ↔ ∃ m ∈ body, nests s m = true := by
  have hfields := Spot.exists_mem_children nests_absent s (.block body)
  rw [nests_iff_children rfl]
  simpa [Scope.isActionCall, Scope.within, Node.fields] using hfields

theorem nests_arrow (s : Scope) (params : List Node) (body : Node) (line : Nat) :
    nests s (.arrow params body line) = mentions (s.function params) body := by
  simp [nests, nestedFunction?, Scope.isActionCall, apply_ite]

theorem nests_function (s : Scope) (name : Option String) (params : List Node) (body : Node)
    (line : Nat) : nests s (.function name params body line) = mentions (s.function params) body := by
  simp [nests, nestedFunction?, Scope.isActionCall, apply_ite]

/-- A function with a mention in its body is a nested function. -/
theorem nests_iff_body {x : Spot} {body : List Spot} (h : x.body? = some body) :
    nests x.outer x.node = true ↔ ∃ y ∈ body, mentions y.outer y.node = true := by
  obtain ⟨outer, inner, n⟩ := x
  have hbody (params : List Node) (e : Node) :=
    Spot.exists_mem_bodyParts mentions_block (outer.function params) (inner.function params) e
  unfold Spot.body? at h
  split at h
  · rename_i params e line hn
    obtain rfl : n = .arrow params e line := hn
    cases h
    rw [nests_arrow, ← hbody]
    simp
  · rename_i name params e line hn
    obtain rfl : n = .function name params e line := hn
    cases h
    rw [nests_function, ← hbody]
    simp
  · cases h

theorem Spot.isFunctionExpression_of_body? {x : Spot} (h : x.body? = none) :
    x.node.isFunctionExpression = false := by
  unfold Spot.body? at h
  split at h
  · cases h
  · cases h
  · rename_i harrow hfunction
    unfold Node.isFunctionExpression
    split
    · rename_i hn
      exact (harrow _ _ _ hn).elim
    · rename_i hn
      exact (hfunction _ _ _ _ hn).elim
    · rfl

/-- A search for a nested function finds those with calls that are actions in the scope of the
parameters of the function. -/
theorem nests_iff_seen (x : Spot) : nests x.outer x.node = true ↔ x.Nests Spot.seen := by
  induction x using Spot.all.induct with
  | case1 x ih =>
    cases hb : x.body? with
    | some body =>
      rw [nests_iff_body hb]
      constructor
      · rintro ⟨y, hy, hm⟩
        obtain ⟨z, hz, hseen⟩ := (mentions_iff_seen y).1 hm
        exact .function hb hy hz hseen
      · intro h
        cases h with
        | function hb' hy hz hseen =>
          obtain rfl := Option.some.inj (hb.symm.trans hb')
          exact ⟨_, hy, (mentions_iff_seen _).2 ⟨_, hz, hseen⟩⟩
        | part _ hb' => cases hb.symm.trans hb'
    | none =>
      have hchildren := Spot.exists_mem_parts nests_absent nests_block x
      rw [nests_iff_children (Spot.isFunctionExpression_of_body? hb), ← hchildren]
      constructor
      · rintro ⟨ha, y, hy, hn⟩
        exact .part ha hb hy ((ih ⟨y, hy⟩).1 hn)
      · intro h
        cases h with
        | function hb' => cases hb.symm.trans hb'
        | part ha _ hy hn => exact ⟨ha, _, hy, (ih ⟨_, hy⟩).2 hn⟩

/-- Whether a function is nested depends on what is examined only. -/
theorem Spot.Nests.congr {f g : Spot → Bool} {x : Spot} (h : x.Nests f)
    (hfg : ∀ y ∈ x.examined, f y = g y) : x.Nests g := by
  induction h with
  | @function x y z body hb hy hz hf =>
    rw [examined_eq, hb] at hfg
    have hmem : z ∈ body.flatMap all := List.mem_flatMap.2 ⟨y, hy, hz⟩
    exact .function hb hy hz ((hfg z (List.mem_cons_of_mem x hmem)).symm.trans hf)
  | @part x y hf hb hy _ ih =>
    rw [examined_eq, hb] at hfg
    refine .part ((hfg x List.mem_cons_self).symm.trans hf) hb hy (ih fun z hz => hfg z ?_)
    exact List.mem_cons_of_mem x (List.mem_flatMap.2 ⟨y, hy, hz⟩)

namespace Spot

/-- The name that a call is classified by means the same in both scopes. -/
def Unshadowed (x : Spot) : Prop :=
  ∀ name, x.node.subject? = some name → x.outer.meaning name = x.inner.meaning name

/-- Both scopes are in or out of a declaration of a store. -/
def Aligned (x : Spot) : Prop := x.outer.declares = x.inner.declares

theorem seen_eq_acts {x : Spot} (ha : x.Aligned) (h : x.Unshadowed) : x.seen = x.acts :=
  Scope.isActionCall_congr ha h

theorem Aligned.of_mem_parts {x y : Spot} (h : x.Aligned) (hy : y ∈ x.parts) : y.Aligned := by
  obtain ⟨z, hz, rfl⟩ := List.mem_map.1 hy
  exact (Scope.declares_within h x.node).trans (Scope.declares_of_mem_parts hz).symm

theorem Aligned.of_mem_body {x y : Spot} {body : List Spot} (h : x.Aligned)
    (hb : x.body? = some body) (hy : y ∈ body) : y.Aligned := by
  have hpart {params : List Node} {e : Node} {z : Scope × Node}
      (hz : z ∈ (x.inner.function params).bodyParts e) :
      (Spot.mk (x.outer.function params) z.1 z.2).Aligned :=
    calc (x.outer.function params).declares
      _ = x.outer.declares := Scope.declares_function x.outer params
      _ = x.inner.declares := h
      _ = (x.inner.function params).declares := (Scope.declares_function x.inner params).symm
      _ = z.1.declares := (Scope.declares_of_mem_bodyParts hz).symm
  unfold body? at hb
  split at hb
  · cases hb
    obtain ⟨z, hz, rfl⟩ := List.mem_map.1 hy
    exact hpart hz
  · cases hb
    obtain ⟨z, hz, rfl⟩ := List.mem_map.1 hy
    exact hpart hz
  · cases hb

theorem Aligned.of_mem_all {x y : Spot} (h : x.Aligned) (hy : y ∈ x.all) : y.Aligned := by
  induction x using all.induct with
  | case1 x ih =>
    rw [all_eq] at hy
    rcases List.mem_cons.1 hy with rfl | hy
    · exact h
    · obtain ⟨z, hz, hy⟩ := List.mem_flatMap.1 hy
      exact ih ⟨z, hz⟩ (h.of_mem_parts hz) hy

theorem Aligned.of_mem_examined {x y : Spot} (h : x.Aligned) (hy : y ∈ x.examined) : y.Aligned := by
  induction x using all.induct with
  | case1 x ih =>
    rw [examined_eq] at hy
    rcases List.mem_cons.1 hy with rfl | hy
    · exact h
    · cases hb : x.body? with
      | some body =>
        rw [hb] at hy
        obtain ⟨z, hz, hy⟩ := List.mem_flatMap.1 hy
        exact (h.of_mem_body hb hz).of_mem_all hy
      | none =>
        rw [hb] at hy
        obtain ⟨z, hz, hy⟩ := List.mem_flatMap.1 hy
        exact ih ⟨z, hz⟩ (h.of_mem_parts hz) hy

end Spot

theorem exists_of_mem_ofBody {s : Scope} {n : Node} {q : Place} (h : q ∈ Place.ofBody s n) :
    ∃ y ∈ s.bodyParts n, q = .node y.1 y.2 := by
  unfold Place.ofBody at h
  split at h
  · obtain ⟨m, hm, rfl⟩ := List.mem_map.1 h
    exact ⟨_, List.mem_map_of_mem hm, rfl⟩
  · obtain rfl := List.mem_singleton.1 h
    rw [Scope.bodyParts]
    · exact ⟨_, List.mem_singleton_self _, rfl⟩
    · assumption

/-- A walk goes on to the parts of a node in the scopes that hold there, unless it comes to a handler
or to a call. -/
theorem exists_of_mem_insideNode {s : Scope} {n : Node} {q : Place}
    (h : q ∈ Place.insideNode s n) :
    (∃ y ∈ s.parts n, q = .node y.1 y.2) ∨ (∃ params body, q = .function s params body) ∨
      ∃ callee c arguments line, n = .call callee arguments line ∧ s.classify callee = some c ∧
        q = .call s c arguments line := by
  have hbody {params : List Node} {body : Node} (h : q ∈ Place.ofBody (s.function params) body) :
      ∃ y ∈ s.functionParts params body, q = .node y.1 y.2 := by
    obtain ⟨y, hy, rfl⟩ := exists_of_mem_ofBody h
    exact ⟨y, List.mem_append_right _ hy, rfl⟩
  unfold Place.insideNode at h
  split at h
  · exact .inl (hbody h)
  · exact .inl (hbody h)
  · exact .inl (hbody h)
  · obtain ⟨m, hm, rfl⟩ := List.mem_map.1 h
    exact .inl ⟨_, List.mem_map_of_mem hm, rfl⟩
  · rename_i name attributes children line
    have hfields {m : Node} (hm : m ∈ attributes ++ children) :
        ∃ y ∈ s.parts (.element name attributes children line), Place.node s m = .node y.1 y.2 :=
      ⟨_, List.mem_map_of_mem hm, rfl⟩
    rcases List.mem_append.1 h with h | h
    · obtain ⟨m, hm, rfl⟩ := List.mem_map.1 h
      unfold Place.ofAttribute
      split
      · exact .inr (.inl ⟨_, _, rfl⟩)
      · exact .inl (hfields (List.mem_append_left _ hm))
    · obtain ⟨m, hm, rfl⟩ := List.mem_map.1 h
      exact .inl (hfields (List.mem_append_right _ hm))
  · rename_i callee arguments line
    split at h
    · rename_i c hc
      obtain rfl := List.mem_singleton.1 h
      exact .inr (.inr ⟨callee, c, arguments, line, rfl, hc, rfl⟩)
    · rename_i hc
      -- A walk does not go into a declaration of a store, so it goes on in the same scope.
      obtain ⟨m, hm, rfl⟩ := List.mem_map.1 h
      refine .inl ⟨_, List.mem_map_of_mem (List.mem_filter.1 hm).1, ?_⟩
      rw [Scope.within_of_classify_eq_none hc]
  · rename_i harrow hfunction hdeclaration hblock helement hcall
    have hwithin : s.within n = s := by
      unfold Scope.within
      split
      · exact (hcall _ _ _ rfl).elim
      · rfl
    have hparts : s.parts n = n.fields.map fun m => (s, m) := by
      rw [Scope.parts, hwithin] <;> assumption
    obtain ⟨m, hm, rfl⟩ := List.mem_map.1 h
    refine .inl ⟨(s, m), ?_, rfl⟩
    rw [hparts]
    exact List.mem_map_of_mem (List.mem_filter.1 hm).1

/-- A call that a walk comes to is an action in the scope that holds there. -/
theorem exists_acts_of_mem_sites {x : Spot} {t : Scope} {c : Call} {arguments : List Node}
    {line : Nat} (h : .call t c arguments line ∈ (Place.node x.inner x.node).sites) :
    ∃ y ∈ x.all, ∃ callee, y.inner = t ∧ y.node = .call callee arguments line ∧ y.acts = true := by
  induction x using Spot.all.induct with
  | case1 x ih =>
    have hc : c.isAction = true := Place.isAction_of_mem_sites h
    rw [Place.sites_node] at h
    obtain ⟨q, hq, h⟩ := List.mem_flatMap.1 h
    obtain ⟨z, hz, rfl⟩ | ⟨params, body, rfl⟩ | ⟨callee, d, as, l, hn, hd, rfl⟩ :=
      exists_of_mem_insideNode hq
    · have hpart : ⟨x.outer.within x.node, z.1, z.2⟩ ∈ x.parts := List.mem_map_of_mem hz
      obtain ⟨y, hy, hcall⟩ := ih ⟨_, hpart⟩ h
      exact ⟨y, Spot.mem_all_of_mem_parts hpart hy, hcall⟩
    · rw [Place.sites] at h
      cases List.mem_singleton.1 h
    · rw [Place.sites] at h
      split at h
      · cases List.mem_singleton.1 h
        refine ⟨x, x.mem_all_self, callee, rfl, hn, ?_⟩
        simp [Spot.acts, hn, Scope.isActionCall, hd, hc]
      · cases h

end Scenario

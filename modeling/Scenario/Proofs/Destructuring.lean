import Scenario.Proofs.NestedFunctions
import Scenario.Syntax.Pattern

namespace Scenario

open Syntax

namespace Syntax.Pattern

mutual

/-- The names that a pattern binds. -/
def locals : Pattern → List String
  | .name text => [text]
  | .this _ => []
  | .array elements _ => localsAll elements
  | .object members _ => localsAll members
  | .rest inner _ => inner.locals
  | .initialised left _ _ => left.locals
  | .shorthand text _ => [text]
  | .shorthandDefault text _ _ => [text]
  | .pair _ _ value _ => value.locals
  | .place .. => []

def localsAll : List Pattern → List String
  | [] => []
  | p :: more => p.locals ++ localsAll more

end

/-- A target that binds the names that the pattern binds. -/
def bound (p : Pattern) : Node :=
  match p.target with
  | .identifier text => .identifier text
  | _ => .objectPattern p.locals

theorem locals_of_target {p : Pattern} {text : String} (h : p.target = .identifier text) :
    p.locals = [text] := by
  cases p with
  | name other =>
    cases h
    rfl
  | initialised left right line => exact locals_of_target (p := left) h
  | _ => cases h

theorem patternNames_bound (p : Pattern) : p.bound.patternNames = p.locals := by
  unfold bound
  split
  · rename_i h
    exact (locals_of_target h).symm
  · rfl

theorem bound_eq_identifier_iff {p : Pattern} {text : String} :
    p.bound = .identifier text ↔ p.target = .identifier text := by
  unfold bound
  split
  · rename_i h
    rw [h]
  · rename_i h
    simpa using h text

end Syntax.Pattern

/-- What a scope takes in on the way to a place. -/
inductive Binder where
  | block
  /-- The parameters of a function. -/
  | parameters (ps : List Pattern)
  /-- A declaration of variables. -/
  | declaration (kind : String) (ds : List (Pattern × Option Node))
  /-- A declaration of a function. -/
  | function (name : String) (ps : List Pattern) (body : Node) (line : Nat)

namespace Binder

variable (target : Pattern → Node)

/-- The scope behind a binder, given what is kept of a pattern. -/
def enter (s : Scope) : Binder → Scope
  | .block => s.child
  | .parameters ps => s.function (ps.map target)
  | .declaration kind ds =>
    s.hoistStatement (.variableDeclaration kind (ds.map fun d => .declarator (target d.1) d.2))
  | .function name ps body line =>
    s.hoistStatement (.functionDeclaration name (ps.map target) body line)

/-- The names that are bound. -/
def names : Binder → List String
  | .block => []
  | .parameters ps => ps.flatMap fun p => (target p).patternNames
  | .declaration _ ds => ds.flatMap fun d => (target d.1).patternNames
  | .function name .. => [name]

/-- The binder does not declare the name as a variable. Only as such it can stand for a store. -/
def Spares (x : String) : Binder → Prop
  | .declaration _ ds => ∀ d ∈ ds, target d.1 ≠ .identifier x
  | _ => True

end Binder

namespace Scope

theorem meaning_bindAll_eq (names : List String) (s : Scope) (x : String) :
    (s.bindAll names).meaning x = if x ∈ names then some none else s.meaning x := by
  induction names generalizing s with
  | nil => rfl
  | cons name names ih =>
    change ((s.bind name none).bindAll names).meaning x = _
    rw [ih, meaning_bind]
    by_cases hx : x = name <;> simp [hx]

/-- The scope behind the declaration of one variable or pattern. -/
def declared (s : Scope) (target : Node) (init : Option Node) : Scope :=
  match target with
  | .identifier name => s.bind name (init.bind s.store?)
  | _ => s.bindAll target.patternNames

theorem hoistDeclarators_cons (target : Node) (init : Option Node) (more : List Node) (s : Scope) :
    hoistDeclarators (.declarator target init :: more) s =
      hoistDeclarators more (s.declared target init) := by
  cases target <;> rfl

theorem meaning_declared (s : Scope) {target : Node} (init : Option Node) {x : String}
    (h : target ≠ .identifier x) :
    (s.declared target init).meaning x =
      if x ∈ target.patternNames then some none else s.meaning x := by
  unfold declared
  split
  · rename_i name
    have hx : x ≠ name := by
      rintro rfl
      exact h rfl
    simp [meaning_bind, Node.patternNames, hx]
  · exact meaning_bindAll_eq _ s x

/-- The meaning of a name behind declarations that do not declare it as a variable. -/
theorem meaning_hoistDeclarators {target : Pattern → Node} (ds : List (Pattern × Option Node))
    (s : Scope) {x : String} (h : ∀ d ∈ ds, target d.1 ≠ .identifier x) :
    (hoistDeclarators (ds.map fun d => .declarator (target d.1) d.2) s).meaning x =
      if x ∈ ds.flatMap (fun d => (target d.1).patternNames) then some none else s.meaning x := by
  induction ds generalizing s with
  | nil => rfl
  | cons d ds ih =>
    rw [List.map_cons, hoistDeclarators_cons, ih _ fun c hc => h c (List.mem_cons_of_mem d hc),
      meaning_declared s d.2 (h d List.mem_cons_self), List.flatMap_cons]
    simp only [List.mem_append]
    by_cases hmore : x ∈ ds.flatMap fun d => (target d.1).patternNames <;> simp [hmore]

end Scope

namespace Binder

variable {target : Pattern → Node} {s : Scope} {b : Binder} {x : String}

theorem declares_enter (target : Pattern → Node) (s : Scope) (b : Binder) :
    (b.enter target s).declares = s.declares := by
  cases b with
  | block => rfl
  | parameters ps => exact Scope.declares_function s _
  | declaration kind ds => exact Scope.declares_hoistStatement s _
  | function name ps body line => exact Scope.declares_hoistStatement s _

/-- What a binder does to a name that it does not declare as a variable. -/
theorem meaning_enter (h : b.Spares target x) :
    (b.enter target s).meaning x = if x ∈ b.names target then some none else s.meaning x := by
  cases b with
  | block => rfl
  | parameters ps =>
    rw [enter, Scope.function, Scope.meaning_bindAll_eq, List.flatMap_map]
    rfl
  | declaration kind ds => exact Scope.meaning_hoistDeclarators ds s h
  | function name ps body line =>
    change (s.bind name none).meaning x = _
    simp [Scope.meaning_bind, names]

theorem spares_of_notMem (h : x ∉ b.names target) : b.Spares target x := by
  cases b with
  | declaration kind ds =>
    intro d hd heq
    refine h (List.mem_flatMap.2 ⟨d, hd, ?_⟩)
    rw [heq]
    exact List.mem_singleton_self x
  | _ => trivial

theorem spares_bound (h : b.Spares Pattern.target x) : b.Spares Pattern.bound x := by
  cases b with
  | declaration kind ds => exact fun d hd heq => h d hd (Pattern.bound_eq_identifier_iff.1 heq)
  | _ => trivial

end Binder

namespace Scope

variable {target : Pattern → Node}

/-- The scope behind binders, the outermost first. -/
def enterAll (target : Pattern → Node) (s : Scope) (bs : List Binder) : Scope :=
  bs.foldl (Binder.enter target) s

theorem declares_enterAll (s : Scope) (bs : List Binder) :
    (s.enterAll target bs).declares = s.declares := by
  induction bs generalizing s with
  | nil => rfl
  | cons b bs ih => exact (ih _).trans (b.declares_enter target s)

theorem meaning_enterAll_of_notMem (s : Scope) {bs : List Binder} {x : String}
    (h : ∀ b ∈ bs, x ∉ b.names target) : (s.enterAll target bs).meaning x = s.meaning x := by
  induction bs generalizing s with
  | nil => rfl
  | cons b bs ih =>
    have hb := h b List.mem_cons_self
    refine (ih _ fun c hc => h c (List.mem_cons_of_mem b hc)).trans ?_
    rw [Binder.meaning_enter (Binder.spares_of_notMem hb), if_neg hb]

/-- A call is classified as it is outside the innermost binder of its subject, unless that hides
it. -/
theorem classify_enterAll (s : Scope) {b : Binder} {inner : List Binder} {callee : Node}
    {arguments : List Node} {line : Nat} {x : String}
    (hx : (Node.call callee arguments line).subject? = some x)
    (hf : Callee.isStoreFactory callee = false) (hb : b.Spares target x)
    (hinner : ∀ c ∈ inner, x ∉ c.names target) :
    (s.enterAll target (b :: inner)).classify callee =
      if x ∈ b.names target then none else s.classify callee := by
  have hmeaning : (s.enterAll target (b :: inner)).meaning x =
      if x ∈ b.names target then some none else s.meaning x :=
    (meaning_enterAll_of_notMem _ hinner).trans (Binder.meaning_enter hb)
  split
  · rename_i hmem
    rw [if_pos hmem] at hmeaning
    exact classify_of_hidden hx hmeaning hf
  · rename_i hmem
    rw [if_neg hmem] at hmeaning
    refine classify_congr arguments line (declares_enterAll s _) fun name hname => ?_
    obtain rfl := Option.some.inj (hx.symm.trans hname)
    exact hmeaning

end Scope

/-- Of the given names, the pattern binds those that it takes. -/
def Syntax.Pattern.Keeps (X : String → Prop) (p : Pattern) : Prop :=
  ∀ x, X x → (x ∈ p.target.patternNames ↔ x ∈ p.locals)

/-- Patterns keep the given names, and a variable of such a name has its value from another one of
them if it has it from a name. -/
def Binder.Keeps (X : String → Prop) : Binder → Prop
  | .parameters ps => ∀ p ∈ ps, p.Keeps X
  | .declaration _ ds => ∀ d ∈ ds, d.1.Keeps X ∧
    ∀ x e y, d.1.target = .identifier x → X x → d.2 = some e → e.unwrap = .identifier y → X y
  | _ => True

namespace Scope

/-- The given names mean the same in both scopes. -/
structure Agrees (X : String → Prop) (s t : Scope) : Prop where
  declares : s.declares = t.declares
  meaning : ∀ x, X x → s.meaning x = t.meaning x

variable {X : String → Prop} {s t : Scope}

theorem Agrees.store? (h : Agrees X s t) {e : Node} (he : ∀ y, e.unwrap = .identifier y → X y) :
    s.store? e = t.store? e := by
  unfold Scope.store?
  split
  · rename_i y hy
    exact congrArg Option.join (h.meaning y (he y hy))
  · rw [h.declares]
  · rfl

theorem Agrees.bindAll (h : Agrees X s t) {ns ms : List String}
    (hnm : ∀ x, X x → (x ∈ ns ↔ x ∈ ms)) :
    Agrees X (s.bindAll ns) (t.bindAll ms) where
  declares := by rw [declares_bindAll, declares_bindAll, h.declares]
  meaning x hx := by simp only [meaning_bindAll_eq, hnm x hx, h.meaning x hx]

theorem Agrees.bind (h : Agrees X s t) {name : String} {a b : Option Store} (hab : X name → a = b) :
    Agrees X (s.bind name a) (t.bind name b) where
  declares := h.declares
  meaning x hx := by
    rw [meaning_bind, meaning_bind]
    split
    · rename_i hname
      obtain rfl : x = name := by simpa using hname
      rw [hab hx]
    · exact h.meaning x hx

theorem Agrees.declared (h : Agrees X s t) {p : Pattern} {init : Option Node} (hp : p.Keeps X)
    (hinit : ∀ x e y, p.target = .identifier x → X x → init = some e →
      e.unwrap = .identifier y → X y) :
    Agrees X (s.declared p.target init) (t.declared p.bound init) := by
  by_cases hname : ∃ name, p.target = .identifier name
  · obtain ⟨name, hname⟩ := hname
    rw [hname, Pattern.bound_eq_identifier_iff.2 hname]
    refine h.bind fun hx => ?_
    cases init with
    | none => rfl
    | some e => exact h.store? fun y hy => hinit name e y hname hx rfl hy
  · have hkept : s.declared p.target init = s.bindAll p.target.patternNames := by
      rw [Scope.declared]
      exact fun name heq => hname ⟨name, heq⟩
    have hright : t.declared p.bound init = t.bindAll p.bound.patternNames := by
      rw [Scope.declared]
      exact fun name heq => hname ⟨name, Pattern.bound_eq_identifier_iff.1 heq⟩
    rw [hkept, hright, p.patternNames_bound]
    exact h.bindAll hp

theorem Agrees.hoistDeclarators (h : Agrees X s t) {ds : List (Pattern × Option Node)}
    (hds : ∀ d ∈ ds, d.1.Keeps X ∧ ∀ x e y, d.1.target = .identifier x → X x → d.2 = some e →
      e.unwrap = .identifier y → X y) :
    Agrees X (Scope.hoistDeclarators (ds.map fun d => .declarator d.1.target d.2) s)
      (Scope.hoistDeclarators (ds.map fun d => .declarator d.1.bound d.2) t) := by
  induction ds generalizing s t with
  | nil => exact h
  | cons d ds ih =>
    obtain ⟨hkeeps, hinit⟩ := hds d List.mem_cons_self
    rw [List.map_cons, List.map_cons, hoistDeclarators_cons, hoistDeclarators_cons]
    exact ih (h.declared hkeeps hinit) fun c hc => hds c (List.mem_cons_of_mem d hc)

theorem Agrees.enter (h : Agrees X s t) {b : Binder} (hb : b.Keeps X) :
    Agrees X (b.enter Pattern.target s) (b.enter Pattern.bound t) := by
  cases b with
  | block => exact ⟨h.declares, h.meaning⟩
  | parameters ps =>
    rw [Binder.enter, Binder.enter, Scope.function, Scope.function]
    refine Agrees.bindAll ?_ fun x hx => ?_
    · exact ⟨h.declares, h.meaning⟩
    · simp only [List.flatMap_map, List.mem_flatMap, Pattern.patternNames_bound]
      exact exists_congr fun p => and_congr_right fun hp => hb p hp x hx
  | declaration kind ds => exact h.hoistDeclarators hb
  | function name ps body line => exact h.bind fun _ => rfl

theorem Agrees.enterAll (h : Agrees X s t) {bs : List Binder} (hbs : ∀ b ∈ bs, b.Keeps X) :
    Agrees X (s.enterAll Pattern.target bs) (t.enterAll Pattern.bound bs) := by
  induction bs generalizing s t with
  | nil => exact h
  | cons b bs ih =>
    exact ih (h.enter (hbs b List.mem_cons_self)) fun c hc => hbs c (List.mem_cons_of_mem b hc)

end Scope

/-- A call is classified by what is kept of the patterns around it. Behind the innermost binder of
its subject it is classified as it should be just if it means nothing outside, or if the binder has
the subject both among the keys and among the names that its patterns bind, or neither. So it is
everywhere if no pattern renames the names that the subject has its meaning from. -/
theorem classify_behind_patterns (s : Scope) (callee : Node) (arguments : List Node) (line : Nat)
    (x : String) (hx : (Node.call callee arguments line).subject? = some x)
    (hf : Callee.isStoreFactory callee = false) :
    (∀ b inner, b.Spares Pattern.target x →
      (∀ c ∈ inner, x ∉ c.names Pattern.target ∧ x ∉ c.names Pattern.bound) →
      let kept := (s.enterAll Pattern.target (b :: inner)).classify callee
      let right := (s.enterAll Pattern.bound (b :: inner)).classify callee
      (kept = if x ∈ b.names Pattern.target then none else s.classify callee) ∧
        (right = if x ∈ b.names Pattern.bound then none else s.classify callee) ∧
        (kept = right ↔
          s.classify callee = none ∨ (x ∈ b.names Pattern.target ↔ x ∈ b.names Pattern.bound))) ∧
      ∀ X bs, X x → (∀ b ∈ bs, b.Keeps X) →
        (s.enterAll Pattern.target bs).classify callee =
          (s.enterAll Pattern.bound bs).classify callee := by
  constructor
  · intro b inner hb hinner kept right
    have hkept : kept = if x ∈ b.names Pattern.target then none else s.classify callee :=
      Scope.classify_enterAll s hx hf hb fun c hc => (hinner c hc).1
    have hright : right = if x ∈ b.names Pattern.bound then none else s.classify callee :=
      Scope.classify_enterAll s hx hf (Binder.spares_bound hb) fun c hc => (hinner c hc).2
    refine ⟨hkept, hright, ?_⟩
    rw [hkept, hright]
    by_cases hkey : x ∈ b.names Pattern.target <;> by_cases hlocal : x ∈ b.names Pattern.bound <;>
      simp [hkey, hlocal, eq_comm]
  · intro X bs hX hbs
    have hagrees : Scope.Agrees X (s.enterAll Pattern.target bs) (s.enterAll Pattern.bound bs) :=
      Scope.Agrees.enterAll ⟨rfl, fun _ _ => rfl⟩ hbs
    refine Scope.classify_congr arguments line hagrees.declares fun name hname => ?_
    obtain rfl := Option.some.inj (hx.symm.trans hname)
    exact hagrees.meaning x hX

/-- In a program that begins with `const { push: a } = e`, a call of `push` is no longer an action,
though nothing of that name is bound; with `const { x: push } = e` it still is one, though the name
is bound. With `const { x: a } = e` it is what it should be. -/
theorem classify_behind_patterns_push :
    let pattern (key name : String) : Pattern :=
      .object [.pair (.identifier key) (some key) (.name name) 1] 1
    let program (key name : String) : List Node :=
      [.variableDeclaration "const"
          [.declarator (pattern key name).target (some (.identifier "e"))],
        .expressionStatement (.call (.identifier "push") [.string "Home"] 2)]
    let kept (key name : String) :=
      (Scope.module.hoist (program key name)).classify (.identifier "push")
    let right (key name : String) := (Scope.module.enterAll Pattern.bound
      [.declaration "const" [(pattern key name, some (.identifier "e"))]]).classify
        (.identifier "push")
    let push : Call := .effect .navigate (some "push")
    kept "push" "a" = none ∧ right "push" "a" = some push ∧
      kept "x" "push" = some push ∧ right "x" "push" = none ∧ kept "x" "a" = right "x" "a" := by
  intro pattern program kept right push
  obtain ⟨hbinder, hkeeps⟩ := classify_behind_patterns Scope.module (.identifier "push")
    [.string "Home"] 2 "push" rfl rfl
  have hrenamed (key name : String) :=
    hbinder (.declaration "const" [(pattern key name, some (.identifier "e"))]) []
      (by simp [pattern, Binder.Spares, Pattern.target]) (by simp)
  obtain ⟨htaken, hfree, -⟩ := hrenamed "push" "a"
  obtain ⟨hmissed, hbound, -⟩ := hrenamed "x" "push"
  refine ⟨htaken, hfree, hmissed, hbound,
    hkeeps (· = "push") [.declaration "const" [(pattern "x" "a", some (.identifier "e"))]] rfl ?_⟩
  intro b hb
  obtain rfl := List.mem_singleton.1 hb
  intro d hd
  obtain rfl := List.mem_singleton.1 hd
  constructor
  · rintro _ rfl
    decide
  · simp [pattern, Pattern.target]

end Scenario

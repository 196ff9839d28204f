import Scenario.Proofs.Sites

namespace Scenario

open Syntax Analysis Scenario.Action Collect

section Below

variable {γ α β : Type}

/-- What stands below `gs`, and then below what it stands below by itself. -/
def below (gs : List γ) (xs : List (List γ × α)) : List (List γ × α) :=
  xs.map fun x => (gs ++ x.1, x.2)

/-- What stands below nothing. -/
def free (xs : List α) : List (List γ × α) := xs.map fun x => ([], x)

@[simp] theorem map_snd_free (xs : List α) : (free xs : List (List γ × α)).map Prod.snd = xs := by
  rw [free, List.map_map]
  exact List.map_id xs

@[simp] theorem below_nil (gs : List γ) : below gs ([] : List (List γ × α)) = [] := rfl

@[simp] theorem nil_below (xs : List (List γ × α)) : below [] xs = xs := by
  simp [below]

@[simp] theorem below_below (gs hs : List γ) (xs : List (List γ × α)) :
    below gs (below hs xs) = below (gs ++ hs) xs := by
  simp [below]

theorem below_flatMap (gs : List γ) (f : β → List (List γ × α)) (xs : List β) :
    below gs (xs.flatMap f) = xs.flatMap fun x => below gs (f x) := by
  simp [below, List.map_flatMap]

@[simp] theorem map_snd_below (gs : List γ) (xs : List (List γ × α)) :
    (below gs xs).map Prod.snd = xs.map Prod.snd := by
  simp [below]

theorem below_sublist {xs ys : List (List γ × α)} (gs : List γ) (h : xs.Sublist ys) :
    (below gs xs).Sublist (below gs ys) := h.map _

end Below

namespace Action

mutual

/-- The steps of an action, each with the conditions that it stands below and whether they hold
there. -/
def steps : Action Unit → List (List (Value × Bool) × Action Unit)
  | ⟨_, .sequence, _, _, _, _, .set actions⟩ => stepsAll actions
  | ⟨_, .conditional, _, _, _, value, .set (first :: more)⟩ =>
    below [(.member "condition" value, true)] (steps first) ++
      below [(.member "condition" value, false)] (stepsAll more)
  | a => [([], a)]

def stepsAll : List (Action Unit) → List (List (Value × Bool) × Action Unit)
  | [] => []
  | a :: more => steps a ++ stepsAll more

end

theorem stepsAll_append (as bs : List (Action Unit)) :
    stepsAll (as ++ bs) = stepsAll as ++ stepsAll bs := by
  induction as with
  | nil => rfl
  | cons a as ih => simp [stepsAll, ih]

theorem stepsAll_flatMap {α : Type} (f : α → List (Action Unit)) (xs : List α) :
    stepsAll (xs.flatMap f) = xs.flatMap fun x => stepsAll (f x) := by
  induction xs with
  | nil => rfl
  | cons x xs ih => rw [List.flatMap_cons, List.flatMap_cons, stepsAll_append, ih]

theorem steps_of_isControl_eq_false {a : Action Unit} (h : a.kind.isControl = false) :
    a.steps = [([], a)] := by
  rw [steps]
  · rintro _ _ _ _ _ _ rfl
    cases h
  · rintro _ _ _ _ _ _ _ rfl
    cases h

theorem steps_ofList (as : List (Action Unit)) : (ofList as).steps = stepsAll as := by
  match as with
  | [] => rfl
  | [a] => simp [ofList, stepsAll]
  | a :: b :: more => rfl

theorem steps_ofBranches (c : Value) (as bs : List (Action Unit)) :
    (ofBranches c as bs).steps =
      below [(c, true)] (stepsAll as) ++ below [(c, false)] (stepsAll bs) := by
  have hfirst := steps_ofList as
  cases bs with
  | nil =>
    change below [(c, true)] (ofList as).steps ++ [] = _
    rw [hfirst]
    rfl
  | cons b more =>
    have hsecond := steps_ofList (b :: more)
    change below [(c, true)] (ofList as).steps ++
      below [(c, false)] ((ofList (b :: more)).steps ++ []) = _
    rw [hfirst, hsecond, List.append_nil]

end Action

/-- A test, and how it comes out where the call is run that stands behind it. -/
structure Guard where
  test : Node
  outcome : Bool

namespace Guard

/-- The parts of a node, each with the test that it stands behind in the node. -/
def fields : Node → List (List Guard × Node)
  | .binary "&&" left right => [([], left), ([⟨left, true⟩], right)]
  | .binary "||" left right => [([], left), ([⟨left, false⟩], right)]
  | .unsupported "ternary_expression" [test, consequent, alternate] _ =>
    [([], test), ([⟨test, true⟩], consequent), ([⟨test, false⟩], alternate)]
  | n => free n.fields

theorem map_snd_fields (n : Node) : (fields n).map Prod.snd = n.fields := by
  unfold fields
  split
  · rfl
  · rfl
  · rfl
  · exact map_snd_free n.fields

/-- The condition that a test is compiled to. -/
def condition (s : Scope) (g : Guard) : Value × Bool :=
  match s.tests.condition g.test with
  | .ok c => (c.toValue, g.outcome)
  | .error _ => (.null, g.outcome)

def IsStatic (s : Scope) (g : Guard) : Prop := ∃ c, s.tests.condition g.test = .ok c

end Guard

namespace Place

/-- The parts of a node that is searched part by part, each with the test that it stands behind. -/
def guardedParts (s : Scope) (n : Node) : List (List Guard × Place) :=
  ((Guard.fields n).filter fun x => !x.2.isAbsent).map fun x => (x.1, .node s x.2)

theorem map_snd_guardedParts (s : Scope) (n : Node) :
    (guardedParts s n).map Prod.snd = n.children.map (.node s) := by
  rw [guardedParts, Node.children, ← Guard.map_snd_fields, List.filter_map, List.map_map,
    List.map_map]
  rfl

/-- The places inside a node, each with the test that it stands behind in the node. -/
def guardedInside (s : Scope) (n : Node) : List (List Guard × Place) :=
  match n with
  | .arrow .. | .function .. | .functionDeclaration .. | .block .. | .element .. | .call .. =>
    free (insideNode s n)
  | n => guardedParts s n

theorem map_snd_guardedInside (s : Scope) (n : Node) :
    (guardedInside s n).map Prod.snd = insideNode s n := by
  unfold guardedInside
  split
  · exact map_snd_free _
  · exact map_snd_free _
  · exact map_snd_free _
  · exact map_snd_free _
  · exact map_snd_free _
  · exact map_snd_free _
  · rw [map_snd_guardedParts, insideNode] <;> assumption

theorem size_lt_of_mem_guardedInside {s : Scope} {n : Node} {x : List Guard × Place}
    (h : x ∈ guardedInside s n) : x.2.size < 3 * sizeOf n := by
  have hmem := List.mem_map_of_mem (f := Prod.snd) h
  rw [map_snd_guardedInside] at hmem
  exact size_lt_of_mem_insideNode hmem

/-- The sites that a search comes to, each with the tests that it stands behind. -/
noncomputable def guardedSites (p : Place) : List (List Guard × Site) :=
  match p with
  | .node s n => (guardedInside s n).attach.flatMap fun x => below x.1.1 (guardedSites x.1.2)
  | .function s params body => [([], .handler s params body)]
  | .call s c arguments line => if c.isAction then [([], .call s c arguments line)] else []
  | .statement .. => []
  | .expression .. => []
termination_by p.size
decreasing_by exact size_lt_of_mem_guardedInside x.2

theorem guardedSites_node (s : Scope) (n : Node) :
    (Place.node s n).guardedSites =
      (guardedInside s n).flatMap fun x => below x.1 x.2.guardedSites := by
  rw [guardedSites, List.flatMap_subtype (g := fun x => below x.1 x.2.guardedSites) fun x _ => rfl,
    List.unattach_attach]

theorem guardedSites_absent (s : Scope) : (Place.node s .absent).guardedSites = [] := by
  rw [guardedSites_node]
  rfl

/-- What is searched part by part has the sites of its parts. -/
theorem guardedSites_of_parts {s : Scope} {n : Node} (h : guardedInside s n = guardedParts s n) :
    (Place.node s n).guardedSites =
      (Guard.fields n).flatMap fun x => below x.1 (Place.node s x.2).guardedSites := by
  rw [guardedSites_node, h, guardedParts, List.flatMap_map]
  induction Guard.fields n with
  | nil => rfl
  | cons x xs ih =>
    obtain ⟨gs, m⟩ := x
    rw [List.flatMap_cons, ← ih, List.filter_cons]
    split
    · rfl
    · rename_i habsent
      obtain rfl : m = .absent := by
        cases m <;> simp [Node.isAbsent] at habsent ⊢
      rw [guardedSites_absent]
      rfl

theorem map_snd_guardedSites (p : Place) : p.guardedSites.map Prod.snd = p.sites := by
  induction p using guardedSites.induct with
  | case1 s n ih =>
    rw [guardedSites_node, sites_node, ← map_snd_guardedInside, List.map_flatMap, List.flatMap_map]
    refine List.flatMap_congr fun x hx => ?_
    rw [map_snd_below]
    exact ih ⟨x, hx⟩
  | case2 s params body => rw [guardedSites, sites]; rfl
  | case3 s c arguments line hc => rw [guardedSites, sites, if_pos hc, if_pos hc]; rfl
  | case4 s c arguments line hc => rw [guardedSites, sites, if_neg hc, if_neg hc]; rfl
  | case5 s n => rw [guardedSites, sites]; rfl
  | case6 s n => rw [guardedSites, sites]; rfl

end Place

/-- A site whose actions are among those of an expression. It stands behind the tests of both lists;
the actions are below the conditions of the first. -/
structure Emission where
  kept : List Guard
  lost : List Guard
  site : Site

namespace Emission

def guards (x : Emission) : List Guard := x.kept ++ x.lost

def keep (g : Guard) (x : Emission) : Emission := { x with kept := g :: x.kept }

def path (s : Scope) (x : Emission) : List (Value × Bool) := x.kept.map (Guard.condition s)

noncomputable def steps (s : Scope) (x : Emission) : List (List (Value × Bool) × Action Unit) :=
  below (x.path s) (stepsAll x.site.actions)

theorem steps_keep (s : Scope) (g : Guard) (x : Emission) :
    (x.keep g).steps s = below [g.condition s] (x.steps s) := by
  rw [steps, steps, below_below]
  rfl

theorem flatMap_steps_keep (s : Scope) (g : Guard) (xs : List Emission) :
    (xs.map (keep g)).flatMap (steps s) = below [g.condition s] (xs.flatMap (steps s)) := by
  rw [List.flatMap_map, below_flatMap]
  simp only [steps_keep]

end Emission

/-- The sites of an expression that is searched as a whole. -/
noncomputable def plainEmissions (s : Scope) (n : Node) : List Emission :=
  (Place.node s n).guardedSites.map fun x => ⟨[], x.1, x.2⟩

/-- The sites whose actions are those of an expression. -/
noncomputable def emissions (s : Scope) (n : Node) : List Emission :=
  match n with
  | .parenthesized e => emissions s e
  | .assertion e => emissions s e
  | .container e => emissions s e
  | .await e => emissions s e
  | .binary operator left right =>
    if (operator = "&&" ∨ operator = "||") ∧ !mentions s left then
      (emissions s right).map (.keep ⟨left, operator ≠ "||"⟩)
    else plainEmissions s (.binary operator left right)
  | .unsupported "ternary_expression" [test, consequent, alternate] line =>
    if mentions s test then
      plainEmissions s (.unsupported "ternary_expression" [test, consequent, alternate] line)
    else
      (emissions s consequent).map (.keep ⟨test, true⟩) ++
        (emissions s alternate).map (.keep ⟨test, false⟩)
  | n => plainEmissions s n
termination_by sizeOf n

section Emitting

variable {s : Scope} {n : Node} {as bs out : List Act}

theorem stepsAll_of_chooses {test : Node} (h : Chooses s test as bs out) :
    stepsAll (eraseAll out) =
      below [Guard.condition s ⟨test, true⟩] (stepsAll (eraseAll as)) ++
        below [Guard.condition s ⟨test, false⟩] (stepsAll (eraseAll bs)) := by
  obtain ⟨rfl, rfl, rfl⟩ | ⟨c, hc, hout⟩ := h
  · rfl
  · rw [hout, stepsAll, steps_ofBranches]
    simp [Guard.condition, hc, stepsAll]

/-- What an analysis emits: the steps of its sites, each of which is compiled without a report, below
conditions that can be compiled. -/
structure Emits (s : Scope) (xs : List Emission) (out : List Act) : Prop where
  steps : stepsAll (eraseAll out) = xs.flatMap (Emission.steps s)
  reports : ∀ x ∈ xs, x.site.reports = []
  isStatic : ∀ x ∈ xs, stepsAll x.site.actions ≠ [] → ∀ g ∈ x.kept, g.IsStatic s

theorem emits_nil (s : Scope) : Emits s [] [] := ⟨rfl, by simp, by simp⟩

theorem Emits.eq_nil {xs : List Emission} (h : Emits s xs []) {x : Emission} (hx : x ∈ xs) :
    stepsAll x.site.actions = [] := by
  have hnil : x.steps s = [] := List.flatMap_eq_nil_iff.1 h.steps.symm x hx
  exact List.map_eq_nil_iff.1 hnil

theorem Chooses.isStatic {test : Node} (h : Chooses s test as bs out) (hne : as ≠ [] ∨ bs ≠ [])
    (outcome : Bool) : Guard.IsStatic s ⟨test, outcome⟩ := by
  obtain ⟨rfl, rfl, -⟩ | ⟨c, hc, -⟩ := h
  · simp at hne
  · exact ⟨c, hc⟩

theorem Emits.isStatic_keep {g : Guard} {xs : List Emission} (h : Emits s xs as)
    (hg : as ≠ [] → g.IsStatic s) :
    ∀ x ∈ xs.map (Emission.keep g), stepsAll x.site.actions ≠ [] → ∀ g' ∈ x.kept, g'.IsStatic s := by
  intro x hx hne
  obtain ⟨y, hy, rfl⟩ := List.mem_map.1 hx
  have hsome : as ≠ [] := by
    rintro rfl
    exact hne (h.eq_nil (x := y) hy)
  exact List.forall_mem_cons.2 ⟨hg hsome, h.isStatic y hy hne⟩

theorem Emits.choice {test : Node} {xs ys : List Emission} (ha : Emits s xs as) (hb : Emits s ys bs)
    (h : Chooses s test as bs out) :
    Emits s (xs.map (.keep ⟨test, true⟩) ++ ys.map (.keep ⟨test, false⟩)) out where
  steps := by
    rw [stepsAll_of_chooses h, ha.steps, hb.steps, List.flatMap_append,
      Emission.flatMap_steps_keep, Emission.flatMap_steps_keep]
  reports := List.forall_mem_append.2
    ⟨List.forall_mem_map.2 ha.reports, List.forall_mem_map.2 hb.reports⟩
  isStatic := List.forall_mem_append.2
    ⟨ha.isStatic_keep fun hne => h.isStatic (.inl hne) true,
      hb.isStatic_keep fun hne => h.isStatic (.inr hne) false⟩

theorem map_site_plainEmissions (s : Scope) (n : Node) :
    (plainEmissions s n).map Emission.site = (Place.node s n).sites := by
  rw [plainEmissions, List.map_map, ← Place.map_snd_guardedSites]
  rfl

theorem flatMap_steps_plainEmissions (s : Scope) (n : Node) :
    (plainEmissions s n).flatMap (Emission.steps s) =
      (Place.node s n).sites.flatMap fun x => stepsAll x.actions := by
  rw [← map_site_plainEmissions, List.flatMap_map]
  refine List.flatMap_congr fun x hx => ?_
  obtain ⟨y, -, rfl⟩ := List.mem_map.1 hx
  exact nil_below _

/-- A search emits the steps of its sites as they are, whatever these stand behind. -/
theorem emits_plainActions (h : (plainActions s n).Accepts out) :
    Emits s (plainEmissions s n) out := by
  unfold plainActions at h
  split at h
  · exact (not_accepts_throw h).elim
  obtain ⟨p, q, ho, hq⟩ := h
  have hwalk : walk s n = inTurn Site.collect (Place.node s n).sites :=
    Place.collect_eq_inTurn_sites (.node s n)
  rw [outcome_lift, hwalk, Prod.mk.injEq, Except.ok.injEq] at ho
  obtain ⟨rfl, rfl⟩ := ho
  obtain ⟨hactions, hreports⟩ := Site.outcome_inTurn (Place.node s n).sites p
  have hquiet : (Place.node s n).sites.flatMap Site.reports = [] := by
    rw [hreports] at hq
    exact List.append_right_eq_self.1 hq
  refine ⟨?_, fun x hx => ?_, fun x hx _ g hg => ?_⟩
  · rw [hactions, stepsAll_flatMap, flatMap_steps_plainEmissions]
  · refine List.flatMap_eq_nil_iff.1 hquiet x.site ?_
    rw [← map_site_plainEmissions]
    exact List.mem_map_of_mem hx
  · obtain ⟨y, -, rfl⟩ := List.mem_map.1 hx
    cases hg

/-- Tests are kept up to the first part that is searched as a whole. -/
theorem emits_expression (h : (expression s n).Accepts out) : Emits s (emissions s n) out := by
  induction n using emissions.induct s generalizing out with
  | case1 e ih =>
    rw [expression] at h
    rw [emissions]
    exact ih h
  | case2 e ih =>
    rw [expression] at h
    rw [emissions]
    exact ih h
  | case3 e ih =>
    rw [expression] at h
    rw [emissions]
    exact ih h
  | case4 e ih =>
    rw [expression] at h
    rw [emissions]
    exact ih h
  | case5 operator left right hop ih =>
    obtain ⟨as, ha, hc⟩ := accepts_junction hop.1 (by simpa using hop.2) h
    rw [emissions, if_pos hop]
    split at hc
    · rename_i hor
      simpa [hor] using (emits_nil s).choice (ih ha) hc
    · rename_i hor
      simpa [hor] using (ih ha).choice (emits_nil s) hc
  | case6 operator left right hop =>
    rw [expression, if_neg hop] at h
    rw [emissions, if_neg hop]
    exact emits_plainActions h
  | case7 test consequent alternate line hm =>
    rw [expression, if_pos hm] at h
    rw [emissions, if_pos hm]
    exact emits_plainActions h
  | case8 test consequent alternate line hm ihc iha =>
    obtain ⟨as, bs, ha, hb, hc⟩ := accepts_ternary (by simpa using hm) h
    rw [emissions, if_neg hm]
    exact (ihc ha).choice (iha hb) hc
  | case9 n hparenthesized hassertion hcontainer hawait hbinary hternary =>
    rw [expression] at h <;> try assumption
    rw [emissions] <;> try assumption
    exact emits_plainActions h

end Emitting

def located (xs : List Emission) : List (List Guard × Site) := xs.map fun x => (x.guards, x.site)

theorem located_append (xs ys : List Emission) : located (xs ++ ys) = located xs ++ located ys :=
  List.map_append

theorem located_keep (g : Guard) (xs : List Emission) :
    located (xs.map (.keep g)) = below [g] (located xs) := by
  rw [located, located, below, List.map_map, List.map_map]
  rfl

theorem located_plainEmissions (s : Scope) (n : Node) :
    located (plainEmissions s n) = (Place.node s n).guardedSites := by
  rw [located, plainEmissions, List.map_map]
  exact List.map_id _

/-- The sites that are emitted are sites of the expression, in their order, and the tests that they
stand behind are all accounted for. -/
theorem sublist_guardedSites (s : Scope) (n : Node) :
    (located (emissions s n)).Sublist (Place.node s n).guardedSites := by
  have hwrapped {n e : Node} (h : Place.guardedInside s n = Place.guardedParts s n)
      (he : Guard.fields n = free [e]) :
      (Place.node s n).guardedSites = (Place.node s e).guardedSites := by
    rw [Place.guardedSites_of_parts h, he]
    simp [free]
  induction n using emissions.induct s with
  | case1 e ih =>
    rw [emissions, hwrapped rfl rfl]
    exact ih
  | case2 e ih =>
    rw [emissions, hwrapped rfl rfl]
    exact ih
  | case3 e ih =>
    rw [emissions, hwrapped rfl rfl]
    exact ih
  | case4 e ih =>
    rw [emissions, hwrapped rfl rfl]
    exact ih
  | case5 operator left right hop ih =>
    rw [emissions, if_pos hop, located_keep, Place.guardedSites_of_parts rfl]
    obtain ⟨rfl | rfl, -⟩ := hop
    -- The sites of the left side are left out: it mentions no action.
    · have hright := below_sublist [⟨left, true⟩] ih
      simpa [Guard.fields] using hright.trans (List.sublist_append_right _ _)
    · have hright := below_sublist [⟨left, false⟩] ih
      simpa [Guard.fields] using hright.trans (List.sublist_append_right _ _)
  | case6 operator left right hop =>
    rw [emissions, if_neg hop, located_plainEmissions]
  | case7 test consequent alternate line hm =>
    rw [emissions, if_pos hm, located_plainEmissions]
  | case8 test consequent alternate line hm ihc iha =>
    rw [emissions, if_neg hm, located_append, located_keep, located_keep,
      Place.guardedSites_of_parts rfl]
    have hbranches := (below_sublist [⟨test, true⟩] ihc).append (below_sublist [⟨test, false⟩] iha)
    simpa [Guard.fields] using hbranches.trans (List.sublist_append_right _ _)
  | case9 n hparenthesized hassertion hcontainer hawait hbinary hternary =>
    rw [emissions, located_plainEmissions] <;> assumption

theorem site_mem_sites {s : Scope} {n : Node} {x : Emission} (h : x ∈ emissions s n) :
    x.site ∈ (Place.node s n).sites := by
  have hlocated : (x.guards, x.site) ∈ located (emissions s n) := List.mem_map_of_mem h
  rw [← Place.map_snd_guardedSites]
  exact List.mem_map_of_mem (f := Prod.snd) ((sublist_guardedSites s n).subset hlocated)

/-- A call that is emitted is one step, and the conditions above it are those of the tests that are
kept. -/
theorem steps_call {s t : Scope} {n : Node} {c : Call} {arguments : List Node} {line : Nat}
    {out : List Act} {kept lost : List Guard} (h : Emits s (emissions s n) out)
    (hx : ⟨kept, lost, .call t c arguments line⟩ ∈ emissions s n) :
    ∃ a, (Site.call t c arguments line).actions = [a] ∧
      Emission.steps s ⟨kept, lost, .call t c arguments line⟩ =
        [(kept.map (Guard.condition s), a)] ∧ ∀ g ∈ kept, g.IsStatic s := by
  have hc : c.isAction = true := Place.isAction_of_mem_sites (site_mem_sites hx)
  have hreports : (Site.call t c arguments line).reports = [] := h.reports _ hx
  obtain ⟨a, ha, hkind⟩ | ⟨-, d, hd, -⟩ := Site.actions_call (s := t) arguments line hc
  · have hsteps : stepsAll (Site.call t c arguments line).actions = [([], a)] := by
      rw [ha, stepsAll, stepsAll, steps_of_isControl_eq_false hkind]
      rfl
    refine ⟨a, ha, ?_, h.isStatic _ hx (by rw [hsteps]; simp)⟩
    rw [Emission.steps, hsteps]
    simp [below, Emission.path]
  · rw [hreports] at hd
    cases hd

/-- The steps of an expression that is compiled without a report are those of its sites, and a call
among these is one step. Above it there is a condition for each test that the call stands behind and
that is kept, and no other; so there is one for each test that the call stands behind if and only if
none of them is lost. -/
theorem stepsAll_expression {s : Scope} {n : Node} {out : List Act}
    (h : (expression s n).Accepts out) :
    stepsAll (eraseAll out) = (emissions s n).flatMap (Emission.steps s) ∧
      (located (emissions s n)).Sublist (Place.node s n).guardedSites ∧
      ∀ kept lost t c arguments line, ⟨kept, lost, .call t c arguments line⟩ ∈ emissions s n →
        (∃ a, (Site.call t c arguments line).actions = [a] ∧
          Emission.steps s ⟨kept, lost, .call t c arguments line⟩ =
            [(kept.map (Guard.condition s), a)]) ∧
        (∀ g ∈ kept, g.IsStatic s) ∧
        (kept.map (Guard.condition s) = (kept ++ lost).map (Guard.condition s) ↔ lost = []) := by
  have hemits := emits_expression h
  refine ⟨hemits.steps, sublist_guardedSites s n, fun kept lost t c arguments line hx => ?_⟩
  obtain ⟨a, ha, hsteps, hstatic⟩ := steps_call hemits hx
  refine ⟨⟨a, ha, hsteps⟩, hstatic, ?_⟩
  rw [List.map_append, List.self_eq_append_right, List.map_eq_nil_iff]

/-- What is passed to a function that is no action is searched as a whole, so the test that going
back stands behind is lost. -/
theorem stepsAll_expression_log :
    let n : Node := .call (.identifier "log")
      [.binary "&&" (.boolean true) (.call (.identifier "pop") [] 1)] 1
    let pop : Emission :=
      ⟨[], [⟨.boolean true, true⟩], .call {} (.effect .navigate (some "pop")) [] 1⟩
    ∃ out a, (expression {} n).Accepts out ∧ emissions {} n = [pop] ∧
      stepsAll (eraseAll out) = [([], a)] ∧ a.kind = .navigationPop := by
  intro n pop
  have hlog : Scope.classify {} (.identifier "log") = none := by decide
  have hpop : Scope.classify {} (.identifier "pop") = some (.effect .navigate (some "pop")) := rfl
  have hsites : (Place.node {} n).guardedSites = [(pop.lost, pop.site)] := by
    simp [n, pop, Place.guardedSites_node, Place.guardedSites, Place.guardedInside,
      Place.guardedParts, Place.insideNode, Guard.fields, Node.children, Node.fields, Node.isAbsent,
      free, below, hlog, hpop, Call.isAction]
  have hemissions : emissions {} n = [pop] := by
    rw [emissions, plainEmissions, hsites]
    · rfl
    all_goals simp [n]
  have hwalk : walk {} n = pop.site.collect := by
    have hcollect := Place.collect_eq_inTurn_sites (.node {} n)
    rwa [← Place.map_snd_guardedSites, hsites, List.map_singleton, inTurn_singleton] at hcollect
  have hnested : nestedFunction? {} n = none := by
    simp [n, nestedFunction?, firstNestedFunction?, Scope.isActionCall, hlog, Node.children,
      Node.fields, Node.isAbsent, Scope.within, Callee.isStoreFactory, Callee.identifier?]
  have haccepts : (expression {} n).Accepts (pop.site.collect.outcome {}).1 := by
    rw [expression, plainActions, hnested]
    · dsimp only
      rw [hwalk]
      refine ⟨{}, _, rfl, ?_⟩
      simp only [callActions]
      rfl
    all_goals simp [n]
  obtain ⟨hsteps, -, hcalls⟩ := stepsAll_expression haccepts
  have hmem : pop ∈ emissions {} n := by
    rw [hemissions]
    exact List.mem_singleton_self pop
  obtain ⟨⟨a, ha, hone⟩, -, -⟩ := hcalls _ _ _ _ _ _ hmem
  have hkind : pop.site.actions.map (·.kind) = [.navigationPop] := by
    simp only [pop, Site.actions, Site.collect, callActions]
    rfl
  refine ⟨_, a, haccepts, hemissions, ?_, ?_⟩
  · rw [hsteps, hemissions, List.flatMap_singleton]
    exact hone
  · rw [ha] at hkind
    exact List.singleton_inj.1 hkind

end Scenario

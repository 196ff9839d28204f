import Scenario.Action.Building
import Scenario.Proofs.Identity

namespace Scenario

namespace Order

/-- The numbers of the actions that an order names. -/
def parts : Order → List Nat
  | .mutation .. => []
  | .transaction _ actions => actions
  | .effect .. => []
  | .request _ onSuccess onError => [onSuccess, onError]
  | .sequence actions => actions
  | .single actions => actions
  | .conditional _ consequent alternate => consequent :: alternate.toList
  | .switch _ _ branches => branches

/-- The texts that name the action of an order. Values, conditions, actions inside and all of a payload
but one text are not among them. A single action that is passed on has its name already. -/
def signature? : Order → Option Signature
  | .mutation kind store keyPath _ =>
    some [store.scope.name, store.storage.name, kind.name, keyPath.getD ""]
  | .transaction store _ =>
    some [store.scope.name, store.storage.name, ActionKind.storeTransaction.name, ""]
  | .effect kind payload => some ["", "", kind.name, Act.discriminator payload]
  | .request payload _ _ =>
    some ["", "", ActionKind.apiRequest.name,
      ((payload.get? "endpoint").bind Value.string?).getD ""]
  | .sequence _ => some ["", "", ActionKind.sequence.name, ""]
  | .single [_] => none
  | .single _ => some ["", "", ActionKind.sequence.name, ""]
  | .conditional .. => some ["", "", ActionKind.conditional.name, ""]
  | .switch .. => some ["", "", ActionKind.switch.name, ""]

/-- The action of an order has the members that its kind asks for. -/
def fits : Order → Bool
  | .mutation kind .. => !kind.isComposite
  | .effect kind _ => !kind.isStore && !kind.isComposite
  | _ => true

/-- The same order where the actions have other numbers. -/
def renumber (f : Nat → Nat) : Order → Order
  | .mutation kind store keyPath value => .mutation kind store keyPath value
  | .transaction store actions => .transaction store (actions.map f)
  | .effect kind payload => .effect kind payload
  | .request payload onSuccess onError => .request payload (f onSuccess) (f onError)
  | .sequence actions => .sequence (actions.map f)
  | .single actions => .single (actions.map f)
  | .conditional condition consequent alternate =>
    .conditional condition (f consequent) (alternate.map f)
  | .switch discriminant cases branches => .switch discriminant cases (branches.map f)

variable (f : Nat → Nat) (o : Order)

@[simp] theorem parts_renumber : (o.renumber f).parts = o.parts.map f := by
  cases o with
  | conditional condition consequent alternate => cases alternate <;> rfl
  | _ => rfl

@[simp] theorem signature?_renumber : (o.renumber f).signature? = o.signature? := by
  cases o with
  | single actions =>
    match actions with
    | [] => rfl
    | [_] => rfl
    | _ :: _ :: _ => rfl
  | _ => rfl

@[simp] theorem fits_renumber : (o.renumber f).fits = o.fits := by
  cases o <;> rfl

end Order

theorem Ticket.eq_of_signature_eq {t u : Ticket} (h : t.signature = u.signature)
    (hn : t.ordinal = u.ordinal) : t = u := by
  cases t
  cases u
  simp_all [signature]

/-- Making an action takes one number of a signature, and the action is in order or not whatever was
made before. -/
structure Numbers (g : Signature) (fits : Bool) (m : Collect Act) : Prop where
  signature (p : Progress) : (m.outcome p).1.id.signature = g
  ordinal (p : Progress) : (m.outcome p).1.id.ordinal = p.ordinals.count g
  ordinals (p : Progress) : (m.outcome p).2.ordinals = p.ordinals.add g
  shape (p : Progress) : (m.outcome p).1.shapeError?.isNone = fits

namespace Numbers

theorem mutation (kind : ActionKind) (store : Store) (keyPath : String) (value : Option Value) :
    Numbers [store.scope.name, store.storage.name, kind.name, keyPath] (!kind.isComposite)
      (Act.mutation kind store keyPath value) where
  signature _ := rfl
  ordinal _ := rfl
  ordinals _ := rfl
  shape p := by
    cases kind <;> rfl

theorem mutation_absent (kind : ActionKind) (store : Store) (value : Option Value) :
    Numbers [store.scope.name, store.storage.name, kind.name, ""] (!kind.isComposite)
      (do return { (← Act.mutation kind store "" value) with keyPath := .null }) where
  signature _ := rfl
  ordinal _ := rfl
  ordinals _ := rfl
  shape p := by
    cases kind <;> rfl

theorem effect (kind : ActionKind) (payload : Fields Value) :
    Numbers ["", "", kind.name, Act.discriminator payload] (!kind.isStore && !kind.isComposite)
      (Act.effect kind payload) where
  signature _ := rfl
  ordinal _ := rfl
  ordinals _ := rfl
  shape p := by
    cases kind <;> rfl

end Numbers

theorem numbers_sequence (actions : List Act) :
    Numbers ["", "", ActionKind.sequence.name, ""] true (Act.sequence actions) :=
  ⟨fun _ => rfl, fun _ => rfl, fun _ => rfl, fun _ => rfl⟩

/-- The text of a scope or of a storage in a ticket; one that does not apply is empty. -/
def Ticket.textOf {α : Type} (name : α → String) (a : Option α) : String := (a.map name).getD ""

/-- The tickets that name actions. -/
def Ticket.ofEnums (scope : Option Lifetime) (storage : Option Storage) (kind : ActionKind)
    (keyPath : String) (n : Nat) : Ticket where
  scope := textOf Lifetime.name scope
  storage := textOf Storage.name storage
  operation := kind.name
  keyPath := keyPath
  ordinal := n

theorem Ticket.textOf_lifetime_injective : Function.Injective (textOf Lifetime.name) := by
  rintro (_ | ⟨⟨⟩⟩) (_ | ⟨⟨⟩⟩) h <;> first | rfl | exact absurd h (by decide)

theorem Ticket.textOf_storage_injective : Function.Injective (textOf Storage.name) := by
  rintro (_ | ⟨⟨⟩⟩) (_ | ⟨⟨⟩⟩) h <;> first | rfl | exact absurd h (by decide)

theorem ActionKind.name_injective : Function.Injective ActionKind.name := by
  have hname (k : ActionKind) : ofName? k.name = some k := by
    cases k <;> decide
  intro k l h
  exact Option.some.inj ((hname k).symm.trans ((congrArg ofName? h).trans (hname l)))

theorem Ticket.isPlain_ofEnums (scope : Option Lifetime) (storage : Option Storage)
    (kind : ActionKind) (keyPath : String) (n : Nat) :
    (ofEnums scope storage kind keyPath n).IsPlain where
  scope := by
    cases scope with
    | none => exact List.not_mem_nil
    | some l => exact l.separator_not_mem_name
  storage := by
    cases storage with
    | none => exact List.not_mem_nil
    | some s => exact s.separator_not_mem_name
  operation := kind.separator_not_mem_name
  ordinal := Int.natCast_nonneg n

theorem Ticket.payload_ofEnums_injective :
    Function.Injective fun x : Option Lifetime × Option Storage × ActionKind × String × Nat =>
      (ofEnums x.1 x.2.1 x.2.2.1 x.2.2.2.1 x.2.2.2.2).payload := by
  rintro ⟨scope, storage, kind, keyPath, n⟩ ⟨scope', storage', kind', keyPath', n'⟩ h
  have ht := eq_of_payload_eq (isPlain_ofEnums ..) (isPlain_ofEnums ..) h
  simp only [ofEnums, mk.injEq, Int.natCast_inj] at ht
  obtain ⟨hscope, hstorage, hkind, rfl, rfl⟩ := ht
  rw [textOf_lifetime_injective hscope, textOf_storage_injective hstorage,
    ActionKind.name_injective hkind]

namespace Workbench

variable (w : Workbench)

/-- The actions that an order names are there. -/
def knows (o : Order) : Bool := o.parts.all (· < w.made.length)

theorem find_of_lt {k : Nat} (h : k < w.made.length) : ∃ a ∈ w.made, w.find k = .ok a := by
  refine ⟨w.made[k], List.getElem_mem h, ?_⟩
  rw [find, List.getElem?_eq_getElem h]

theorem find_of_not_lt {k : Nat} (h : ¬k < w.made.length) : w.find k = .error (.unknownAction k) := by
  rw [find, List.getElem?_eq_none (Nat.le_of_not_lt h)]

theorem mapM_find_of_lt {ks : List Nat} (h : ∀ k ∈ ks, k < w.made.length) :
    ∃ as, ks.mapM w.find = .ok as ∧ as.length = ks.length ∧ ∀ a ∈ as, a ∈ w.made := by
  induction ks with
  | nil => exact ⟨[], rfl, rfl, by simp⟩
  | cons k ks ih =>
    obtain ⟨a, ha, hfind⟩ := w.find_of_lt (h k List.mem_cons_self)
    obtain ⟨as, hmap, hlen, has⟩ := ih fun j hj => h j (List.mem_cons_of_mem k hj)
    refine ⟨a :: as, ?_, by simp [hlen], List.forall_mem_cons.2 ⟨ha, has⟩⟩
    rw [List.mapM_cons, hfind, hmap]
    rfl

theorem mapM_find_of_not_lt {ks : List Nat} (h : ¬∀ k ∈ ks, k < w.made.length) :
    ∃ e, ks.mapM w.find = .error e := by
  induction ks with
  | nil => simp at h
  | cons k ks ih =>
    rw [List.mapM_cons]
    by_cases hk : k < w.made.length
    · obtain ⟨a, -, hfind⟩ := w.find_of_lt hk
      obtain ⟨e, he⟩ := ih fun hall => h (List.forall_mem_cons.2 ⟨hk, hall⟩)
      exact ⟨e, by rw [hfind, he]; rfl⟩
    · exact ⟨_, by rw [w.find_of_not_lt hk]; rfl⟩

theorem knows_iff {o : Order} : w.knows o = true ↔ ∀ k ∈ o.parts, k < w.made.length := by
  simp [knows]

theorem steps_of_not_knows {o : Order} (h : w.knows o = false) : ∃ e, w.steps o = .error e := by
  have hparts : ¬∀ k ∈ o.parts, k < w.made.length := by
    rw [← knows_iff, h]
    simp
  cases o with
  | mutation | effect => simp [Order.parts] at hparts
  | transaction _ actions | sequence actions | single actions | switch _ _ actions =>
    obtain ⟨e, he⟩ := w.mapM_find_of_not_lt hparts
    rw [Order.parts] at he
    exact ⟨e, by rw [steps, he]; rfl⟩
  | request payload onSuccess onError =>
    by_cases hs : onSuccess < w.made.length
    · obtain ⟨a, -, ha⟩ := w.find_of_lt hs
      have he : ¬onError < w.made.length := fun he => hparts (by simp [Order.parts, hs, he])
      exact ⟨_, by rw [steps, ha, w.find_of_not_lt he]; rfl⟩
    · exact ⟨_, by rw [steps, w.find_of_not_lt hs]; rfl⟩
  | conditional condition consequent alternate =>
    by_cases hc : consequent < w.made.length
    · obtain ⟨a, -, ha⟩ := w.find_of_lt hc
      cases alternate with
      | none => exact (hparts (by simp [Order.parts, hc])).elim
      | some k =>
        have hk : ¬k < w.made.length := fun hk => hparts (by simp [Order.parts, hc, hk])
        exact ⟨_, by rw [steps, ha, Option.mapM_some, w.find_of_not_lt hk]; rfl⟩
    · exact ⟨_, by rw [steps, w.find_of_not_lt hc]; rfl⟩

/-- An order whose actions are there passes one of them on, or takes the next number of its
signature. -/
theorem steps_of_knows {o : Order} (h : w.knows o = true) :
    (o.signature? = none ∧ o.fits = true ∧ ∃ a ∈ w.made, w.steps o = .ok (pure a)) ∨
      ∃ g m, o.signature? = some g ∧ w.steps o = .ok m ∧ Numbers g o.fits m := by
  have hparts := w.knows_iff.1 h
  cases o with
  | mutation kind store keyPath value =>
    cases keyPath with
    | none => exact .inr ⟨_, _, rfl, rfl, .mutation_absent kind store value⟩
    | some path => exact .inr ⟨_, _, rfl, rfl, .mutation kind store path value⟩
  | effect kind payload => exact .inr ⟨_, _, rfl, rfl, .effect kind payload⟩
  | transaction store actions =>
    obtain ⟨as, ha, -, -⟩ := w.mapM_find_of_lt hparts
    rw [Order.parts] at ha
    exact .inr ⟨_, Act.transaction store as, rfl, by rw [steps, ha]; rfl,
      fun _ => rfl, fun _ => rfl, fun _ => rfl, fun _ => rfl⟩
  | request payload onSuccess onError =>
    obtain ⟨a, -, ha⟩ := w.find_of_lt (hparts onSuccess (by simp [Order.parts]))
    obtain ⟨b, -, hb⟩ := w.find_of_lt (hparts onError (by simp [Order.parts]))
    exact .inr ⟨_, Act.request payload a b, rfl, by rw [steps, ha, hb]; rfl,
      fun _ => rfl, fun _ => rfl, fun _ => rfl, fun _ => rfl⟩
  | sequence actions =>
    obtain ⟨as, ha, -, -⟩ := w.mapM_find_of_lt hparts
    rw [Order.parts] at ha
    exact .inr ⟨_, Act.sequence as, rfl, by rw [steps, ha]; rfl, numbers_sequence as⟩
  | single actions =>
    obtain ⟨as, ha, hlen, hmade⟩ := w.mapM_find_of_lt hparts
    rw [Order.parts] at ha hlen
    have hsteps : w.steps (.single actions) = .ok (Act.single as) := by rw [steps, ha]; rfl
    match actions, as, hlen with
    | [], [], _ => exact .inr ⟨_, _, rfl, hsteps, numbers_sequence []⟩
    | [_], [a], _ => exact .inl ⟨rfl, rfl, a, hmade a List.mem_cons_self, hsteps⟩
    | _ :: _ :: _, a :: b :: more, _ => exact .inr ⟨_, _, rfl, hsteps, numbers_sequence (a :: b :: more)⟩
  | conditional condition consequent alternate =>
    obtain ⟨a, -, ha⟩ := w.find_of_lt (hparts consequent (by simp [Order.parts]))
    cases alternate with
    | none =>
      exact .inr ⟨_, Act.conditional condition a none, rfl, by rw [steps, ha]; rfl,
        fun _ => rfl, fun _ => rfl, fun _ => rfl, fun _ => rfl⟩
    | some k =>
      obtain ⟨b, -, hb⟩ := w.find_of_lt (hparts k (by simp [Order.parts]))
      exact .inr ⟨_, Act.conditional condition a (some b), rfl,
        by rw [steps, ha, Option.mapM_some, hb]; rfl,
        fun _ => rfl, fun _ => rfl, fun _ => rfl, fun _ => rfl⟩
  | switch discriminant cases branches =>
    obtain ⟨as, ha, -, -⟩ := w.mapM_find_of_lt hparts
    rw [Order.parts] at ha
    exact .inr ⟨_, Act.switch discriminant cases as, rfl, by rw [steps, ha]; rfl,
      fun _ => rfl, fun _ => rfl, fun _ => rfl, fun _ => rfl⟩

/-- The actions on the workbench are in order. -/
def IsSound : Prop := ∀ a ∈ w.made, a.shapeError? = none

theorem make_of_shapeError?_none {o : Order} {m : Collect Act} (hm : w.steps o = .ok m)
    (h : (m.outcome w.progress).1.shapeError? = none) :
    w.make o = (.ok (m.outcome w.progress).1,
      { progress := (m.outcome w.progress).2, made := w.made ++ [(m.outcome w.progress).1] }) := by
  unfold Collect.outcome at h ⊢
  rcases hrun : m.run w.progress with ⟨a, p⟩
  rw [hrun] at h
  simp only [make, hm, hrun, h]

theorem make_of_shapeError? {o : Order} {m : Collect Act} {e : ShapeError} (hm : w.steps o = .ok m)
    (h : (m.outcome w.progress).1.shapeError? = some e) :
    w.make o = (.error (.shape e), { w with progress := (m.outcome w.progress).2 }) := by
  unfold Collect.outcome at h ⊢
  rcases hrun : m.run w.progress with ⟨a, p⟩
  rw [hrun] at h
  simp only [make, hm, hrun, h]

/-- What an order does: it fails for an action that is not there and does nothing; it passes an action
on; or it takes a number, and makes an action with it if that is in order. -/
theorem make_cases (hw : w.IsSound) (o : Order) :
    (w.knows o = false ∧ ∃ e, w.make o = (.error e, w)) ∨
      w.knows o = true ∧
        ((o.signature? = none ∧ o.fits = true ∧ ∃ a ∈ w.made,
            w.make o = (.ok a, { w with made := w.made ++ [a] })) ∨
          ∃ (g : Signature) (a : Act) (p : Progress), o.signature? = some g ∧ a.id.signature = g ∧
            a.id.ordinal = w.progress.ordinals.count g ∧ p.ordinals = w.progress.ordinals.add g ∧
            a.shapeError?.isNone = o.fits ∧
            if o.fits then w.make o = (.ok a, { progress := p, made := w.made ++ [a] })
            else ∃ e, w.make o = (.error e, { w with progress := p })) := by
  cases hk : w.knows o with
  | false =>
    obtain ⟨e, he⟩ := w.steps_of_not_knows hk
    exact .inl ⟨rfl, e, by rw [make, he]⟩
  | true =>
    refine .inr ⟨rfl, ?_⟩
    obtain ⟨hnone, hfits, a, ha, hsteps⟩ | ⟨g, m, hg, hsteps, hm⟩ := w.steps_of_knows hk
    · exact .inl ⟨hnone, hfits, a, ha, w.make_of_shapeError?_none hsteps (hw a ha)⟩
    · refine .inr ⟨g, (m.outcome w.progress).1, (m.outcome w.progress).2, hg, hm.signature _,
        hm.ordinal _, hm.ordinals _, hm.shape _, ?_⟩
      have hshape := hm.shape w.progress
      cases hs : (m.outcome w.progress).1.shapeError? with
      | none =>
        rw [hs] at hshape
        rw [← hshape]
        exact w.make_of_shapeError?_none hsteps hs
      | some e =>
        rw [hs] at hshape
        rw [← hshape]
        exact ⟨_, w.make_of_shapeError? hsteps hs⟩

theorem isSound_make {o : Order} (hw : w.IsSound) : (w.make o).2.IsSound := by
  obtain ⟨-, e, he⟩ | ⟨-, ⟨-, -, a, ha, hmake⟩ | ⟨g, a, p, -, -, -, -, hshape, hmake⟩⟩ := w.make_cases hw o
  · rw [he]
    exact hw
  · rw [hmake]
    intro b hb
    obtain hb | rfl := by simpa using hb
    · exact hw b hb
    · exact hw b ha
  · cases hf : o.fits with
    | true =>
      rw [if_pos hf] at hmake
      rw [hf, Option.isNone_iff_eq_none] at hshape
      rw [hmake]
      intro b hb
      obtain hb | rfl := by simpa using hb
      · exact hw b hb
      · exact hshape
    | false =>
      rw [hf, if_neg (by simp)] at hmake
      obtain ⟨e, hmake⟩ := hmake
      rw [hmake]
      exact hw

theorem length_make {o : Order} (hw : w.IsSound) :
    (w.make o).2.made.length = w.made.length + if w.knows o && o.fits then 1 else 0 := by
  obtain ⟨hk, e, he⟩ | ⟨hk, ⟨-, hf, a, -, hmake⟩ | ⟨g, a, p, -, -, -, -, -, hmake⟩⟩ := w.make_cases hw o
  · simp [he, hk]
  · simp [hmake, hk, hf]
  · cases hf : o.fits with
    | true =>
      rw [if_pos hf] at hmake
      simp [hmake, hk]
    | false =>
      rw [hf, if_neg (by simp)] at hmake
      obtain ⟨e, hmake⟩ := hmake
      simp [hmake]

theorem count_make {o : Order} (hw : w.IsSound) (s : Signature) :
    (w.make o).2.progress.ordinals.count s =
      w.progress.ordinals.count s + (if w.knows o then o.signature?.toList else []).count s := by
  obtain ⟨hk, e, he⟩ | ⟨hk, ⟨hnone, -, a, -, hmake⟩ | ⟨g, a, p, hg, -, -, hp, -, hmake⟩⟩ :=
    w.make_cases hw o
  · simp [he, hk]
  · simp [hmake, hk, hnone]
  · have hcount : (w.make o).2.progress = p := by
      cases hf : o.fits with
      | true => rw [if_pos hf] at hmake; rw [hmake]
      | false =>
        rw [hf, if_neg (by simp)] at hmake
        obtain ⟨e, hmake⟩ := hmake
        rw [hmake]
    rw [hcount, hp, Ordinals.count_add, hk, hg]
    by_cases h : g = s <;> simp [h]

/-- A step on a workbench: an order, or a number that is asked for without one. -/
inductive Step where
  | order (o : Order)
  | number (g : Signature)

/-- The same step where the actions have other numbers. -/
def Step.renumber (f : Nat → Nat) : Step → Step
  | .order o => .order (o.renumber f)
  | .number g => .number g

/-- What a step leaves, if it fails or not. -/
def perform : Step → Workbench
  | .order o => (w.make o).2
  | .number g => { w with progress := ((Collect.ordinal g).outcome w.progress).2 }

/-- The signature that a step asks the number of. An order asks also if its action is not in order, but
not if it names actions that are not there. -/
def asked : Step → List Signature
  | .order o => if w.knows o then o.signature?.toList else []
  | .number g => [g]

/-- The signatures that the steps of a run ask the numbers of. -/
def requests (w : Workbench) : List Step → List Signature
  | [] => []
  | s :: more => w.asked s ++ (w.perform s).requests more

/-- The workbench after a run. -/
def after (steps : List Step) : Workbench := steps.foldl perform w

/-- How the action of an order is named, if it is made. -/
def ticket? (o : Order) : Option Ticket := (w.make o).1.toOption.map (·.id)

@[simp] theorem after_nil : w.after [] = w := rfl

@[simp] theorem after_cons (s : Step) (steps : List Step) :
    w.after (s :: steps) = (w.perform s).after steps := rfl

theorem after_append (before steps : List Step) :
    w.after (before ++ steps) = (w.after before).after steps := List.foldl_append

variable {w} {w' : Workbench}

theorem IsSound.perform (hw : w.IsSound) (s : Step) : (w.perform s).IsSound := by
  cases s with
  | order o => exact w.isSound_make hw
  | number g => exact hw

theorem IsSound.after (hw : w.IsSound) (steps : List Step) : (w.after steps).IsSound := by
  induction steps generalizing w with
  | nil => exact hw
  | cons s steps ih => exact ih (hw.perform s)

theorem count_perform (hw : w.IsSound) (s : Step) (g : Signature) :
    (w.perform s).progress.ordinals.count g = w.progress.ordinals.count g + (w.asked s).count g := by
  cases s with
  | order o => exact w.count_make hw g
  | number h =>
    have hadd : (w.perform (.number h)).progress.ordinals = w.progress.ordinals.add h := rfl
    rw [hadd, Ordinals.count_add, asked]
    by_cases hg : h = g <;> simp [hg]

theorem length_le_perform (hw : w.IsSound) (s : Step) : w.made.length ≤ (w.perform s).made.length := by
  cases s with
  | order o => rw [perform, w.length_make hw]; omega
  | number g => exact Nat.le_refl _

theorem length_le_after (hw : w.IsSound) (steps : List Step) :
    w.made.length ≤ (w.after steps).made.length := by
  induction steps generalizing w with
  | nil => exact Nat.le_refl _
  | cons s steps ih => exact Nat.le_trans (length_le_perform hw s) (ih (hw.perform s))

/-- A run counts every signature as often as it is asked for. -/
theorem count_after (hw : w.IsSound) (steps : List Step) (g : Signature) :
    (w.after steps).progress.ordinals.count g =
      w.progress.ordinals.count g + (w.requests steps).count g := by
  induction steps generalizing w with
  | nil => simp [requests]
  | cons s steps ih =>
    rw [after_cons, ih (hw.perform s), count_perform hw, requests, List.count_append, Nat.add_assoc]

theorem ticket?_eq_some_iff (hw : w.IsSound) {o : Order} {g : Signature} (hg : o.signature? = some g)
    {t : Ticket} :
    w.ticket? o = some t ↔ (w.knows o = true ∧ o.fits = true) ∧
      t.signature = g ∧ t.ordinal = w.progress.ordinals.count g := by
  obtain ⟨hk, e, he⟩ | ⟨hk, ⟨hnone, -⟩ | ⟨g', a, p, hg', hsig, hord, -, -, hmake⟩⟩ := w.make_cases hw o
  · simp [ticket?, he, hk, Except.toOption]
  · rw [hg] at hnone
    cases hnone
  · obtain rfl : g = g' := Option.some.inj (hg.symm.trans hg')
    cases hf : o.fits with
    | true =>
      rw [if_pos hf] at hmake
      have ht : w.ticket? o = some a.id := by rw [ticket?, hmake]; rfl
      rw [ht, hk]
      constructor
      · rintro ⟨⟩
        exact ⟨⟨rfl, rfl⟩, hsig, hord⟩
      · rintro ⟨-, hs, hn⟩
        rw [Ticket.eq_of_signature_eq (hsig.trans hs.symm) (hord.trans hn.symm)]
    | false =>
      rw [hf, if_neg (by simp)] at hmake
      obtain ⟨e, hmake⟩ := hmake
      simp [ticket?, hmake, Except.toOption]

/-- The name of the next action depends on how often its signature was counted, and on nothing else
that was done. -/
theorem ticket?_congr (hw : w.IsSound) (hw' : w'.IsSound) {o o' : Order} {g : Signature}
    (hg : o.signature? = some g) (hg' : o'.signature? = some g)
    (hcount : w'.progress.ordinals.count g = w.progress.ordinals.count g)
    (hmakes : (w'.knows o' = true ∧ o'.fits = true) ↔ w.knows o = true ∧ o.fits = true) :
    w'.ticket? o' = w.ticket? o := by
  refine Option.ext fun t => ?_
  rw [ticket?_eq_some_iff hw' hg', ticket?_eq_some_iff hw hg, hcount, hmakes]

/-- The numbers of actions after `added` more have been made where there were `there`. -/
def shift (there added k : Nat) : Nat := if k < there then k else k + added

/-- Of two workbenches, one has more actions, made where there were `there`; the signature counts
alike on both. -/
structure Wider (there added : Nat) (g : Signature) (w w' : Workbench) : Prop where
  sound : w.IsSound
  sound' : w'.IsSound
  there : there ≤ w.made.length
  length : w'.made.length = w.made.length + added
  count : w'.progress.ordinals.count g = w.progress.ordinals.count g

namespace Wider

variable {there added : Nat} {g : Signature}

theorem knows (h : Wider there added g w w') (o : Order) :
    w'.knows (o.renumber (shift there added)) = w.knows o := by
  have hlt (k : Nat) : shift there added k < w'.made.length ↔ k < w.made.length := by
    have hthere := h.there
    rw [h.length, shift]
    split <;> omega
  simp only [Workbench.knows, Order.parts_renumber, List.all_map, Function.comp_def, hlt]

theorem asked (h : Wider there added g w w') (s : Step) :
    w'.asked (s.renumber (shift there added)) = w.asked s := by
  cases s with
  | order o => simp only [Step.renumber, Workbench.asked, h.knows, Order.signature?_renumber]
  | number g => rfl

theorem perform (h : Wider there added g w w') (s : Step) :
    Wider there added g (w.perform s) (w'.perform (s.renumber (shift there added))) := by
  refine ⟨h.sound.perform s, h.sound'.perform _, Nat.le_trans h.there (length_le_perform h.sound s), ?_, ?_⟩
  · cases s with
    | order o =>
      simp only [Step.renumber, Workbench.perform, w.length_make h.sound, w'.length_make h.sound',
        h.knows, Order.fits_renumber, h.length]
      omega
    | number g => exact h.length
  · rw [count_perform h.sound', count_perform h.sound, h.asked, h.count]

theorem after (h : Wider there added g w w') (steps : List Step) :
    Wider there added g (w.after steps)
      (w'.after (steps.map (Step.renumber (shift there added)))) := by
  induction steps generalizing w w' with
  | nil => exact h
  | cons s steps ih => exact ih (h.perform s)

theorem ticket? (h : Wider there added g w w') {o : Order} (hg : o.signature? = some g) :
    w'.ticket? (o.renumber (shift there added)) = w.ticket? o := by
  refine ticket?_congr h.sound h.sound' hg (by simpa using hg) h.count ?_
  rw [h.knows, Order.fits_renumber]

end Wider

theorem wider_after (hw : w.IsSound) {g : Signature} {inserted : List Step}
    (hg : g ∉ w.requests inserted) :
    Wider w.made.length ((w.after inserted).made.length - w.made.length) g w (w.after inserted) where
  sound := hw
  sound' := hw.after inserted
  there := Nat.le_refl _
  length := (Nat.add_sub_of_le (length_le_after hw inserted)).symm
  count := by rw [count_after hw, List.count_eq_zero.2 hg, Nat.add_zero]

def Step.signature? : Step → Option Signature
  | .order o => o.signature?
  | .number g => some g

/-- No order of a run names an action that is not there. -/
def RefersBack (w : Workbench) : List Step → Prop
  | [] => True
  | .order o :: more => w.knows o = true ∧ (w.perform (.order o)).RefersBack more
  | .number g :: more => (w.perform (.number g)).RefersBack more

theorem requests_of_refersBack {steps : List Step} (h : w.RefersBack steps) :
    w.requests steps = steps.filterMap Step.signature? := by
  induction steps generalizing w with
  | nil => rfl
  | cons s steps ih =>
    cases s with
    | order o =>
      obtain ⟨hk, h⟩ := h
      rw [requests, asked, if_pos hk, ih h, List.filterMap_cons, Step.signature?]
      cases o.signature? <;> rfl
    | number g =>
      rw [requests, asked, ih h, List.filterMap_cons]
      rfl

theorem refersBack_append {before steps : List Step} :
    w.RefersBack (before ++ steps) ↔ w.RefersBack before ∧ (w.after before).RefersBack steps := by
  induction before generalizing w with
  | nil => simp [RefersBack]
  | cons s before ih => cases s <;> simp [RefersBack, ih, and_assoc]

/-- A workbench on which nothing was made. -/
def blank : Workbench := {}

theorem isSound_blank : blank.IsSound := by
  simp [IsSound, blank]

theorem count_after_blank (steps : List Step) (g : Signature) :
    (blank.after steps).progress.ordinals.count g = (blank.requests steps).count g := by
  rw [count_after isSound_blank]
  exact Nat.zero_add _

theorem ticket?_after_blank {before : List Step} {o : Order} {g : Signature} {t : Ticket}
    (hg : o.signature? = some g) (ht : (blank.after before).ticket? o = some t) :
    t.signature = g ∧ t.ordinal = (blank.requests before).count g := by
  rw [← count_after_blank]
  exact ((ticket?_eq_some_iff (isSound_blank.after before) hg).1 ht).2

theorem mem_made_of_signature?_eq_none (hw : w.IsSound) {o : Order} {a : Act}
    (hnone : o.signature? = none) (hmake : w.make o = (.ok a, w')) : a ∈ w.made := by
  obtain ⟨-, e, he⟩ | ⟨-, ⟨-, -, b, hb, hb'⟩ | ⟨g, b, p, hg, -⟩⟩ := w.make_cases hw o
  · rw [he] at hmake
    cases hmake
  · rw [hb'] at hmake
    cases hmake
    exact hb
  · rw [hnone] at hg
    cases hg

/-- How actions are renumbered that follow inserted steps. -/
def makeRoom (w : Workbench) (inserted : List Step) : Nat → Nat :=
  shift w.made.length ((w.after inserted).made.length - w.made.length)

/-- Action identifiers follow the law of numbers, whatever is done on a workbench before and if it fails
or not. An action is named by the signature of its order and by how often that was asked for before, so
that the same signature and the same count give the same name; an order without a signature only passes
on an action. Steps in between that do not ask for the signature change no name, and neither do changes
of orders, here or before, that leave the signatures as they are. The text that is hashed can be read
back for every key path. -/
theorem ticket_of_order :
    (∀ before o g t, o.signature? = some g → (blank.after before).ticket? o = some t →
      t.signature = g ∧ t.ordinal = (blank.requests before).count g) ∧
    (∀ before o a w, o.signature? = none → (blank.after before).make o = (.ok a, w) →
      a ∈ (blank.after before).made) ∧
    (∀ before before' o o' g t t', o.signature? = some g → o'.signature? = some g →
      (blank.requests before).count g = (blank.requests before').count g →
      (blank.after before).ticket? o = some t → (blank.after before').ticket? o' = some t' →
      t = t') ∧
    (∀ before inserted later o g, o.signature? = some g →
      g ∉ (blank.after before).requests inserted →
      (blank.after (before ++ inserted ++
          later.map (Step.renumber ((blank.after before).makeRoom inserted)))).ticket?
          (o.renumber ((blank.after before).makeRoom inserted)) =
        (blank.after (before ++ later)).ticket? o) ∧
    (∀ before before' o o' g, o.signature? = some g → o'.signature? = some g → o.fits = o'.fits →
      before.filterMap Step.signature? = before'.filterMap Step.signature? →
      blank.RefersBack (before ++ [.order o]) → blank.RefersBack (before' ++ [.order o']) →
      (blank.after before').ticket? o' = (blank.after before).ticket? o) ∧
    Function.Injective fun x : Option Lifetime × Option Storage × ActionKind × String × Nat =>
      (Ticket.ofEnums x.1 x.2.1 x.2.2.1 x.2.2.2.1 x.2.2.2.2).payload := by
  refine ⟨fun before o g t hg ht => ticket?_after_blank hg ht,
    fun before o a w hnone hmake => mem_made_of_signature?_eq_none (isSound_blank.after before) hnone hmake,
    ?_, ?_, ?_, Ticket.payload_ofEnums_injective⟩
  · intro before before' o o' g t t' hg hg' hcount ht ht'
    obtain ⟨hs, hn⟩ := ticket?_after_blank hg ht
    obtain ⟨hs', hn'⟩ := ticket?_after_blank hg' ht'
    exact Ticket.eq_of_signature_eq (hs.trans hs'.symm) (by rw [hn, hn', hcount])
  · intro before inserted later o g hg hnot
    have hwider := (wider_after (isSound_blank.after before) hnot).after later
    rw [after_append, after_append, after_append]
    exact hwider.ticket? hg
  · intro before before' o o' g hg hg' hfits hsame hback hback'
    obtain ⟨hback, hknows, -⟩ := refersBack_append.1 hback
    obtain ⟨hback', hknows', -⟩ := refersBack_append.1 hback'
    refine ticket?_congr (isSound_blank.after before) (isSound_blank.after before') hg hg' ?_ ?_
    · rw [count_after_blank, count_after_blank, requests_of_refersBack hback,
        requests_of_refersBack hback', hsame]
    · rw [hknows, hknows', hfits]

theorem ticket_of_order_sequence :
    (blank.after ([.order (.sequence [])] ++ [.number ["a"], .order (.effect .navigationPop [])] ++
      [.order (.single [0]), .order (.sequence [2])])).ticket? (.sequence [2]) =
        some { operation := "sequence", ordinal := 2 } :=
  (ticket_of_order.2.2.2.1 [.order (.sequence [])] [.number ["a"], .order (.effect .navigationPop [])]
    [.order (.single [0]), .order (.sequence [1])] (.sequence [1]) _ rfl (by decide)).trans (by decide)

end Workbench

end Scenario

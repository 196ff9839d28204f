import Scenario.Proofs.Decoding

namespace Scenario

open Wire

namespace Store

def labels : List Label := ["scope", "storage", ⟨"initialValue", "initial_value"⟩]

theorem ofFields_eq_ok {fs : Fields Value} {s : Store} :
    ofFields fs = .ok s ↔
      Label.value? "scope" fs = some (.string s.scope.name) ∧
      Label.value? "storage" fs = some (.string s.storage.name) ∧
      Label.value? ⟨"initialValue", "initial_value"⟩ fs = s.initialValue.toValue? .object := by
  rw [← required_eq_ok_of_reads reads_lifetime, ← required_eq_ok_of_reads reads_storage,
    ← slot_eq_ok reads_fields (by simp)]
  obtain ⟨scope, storage, initialValue⟩ := s
  simp [ofFields, Decoded.map_eq_ok]

theorem dump_eq (s : Store) :
    s.dump = .object (Fields.present
      [("scope", some (.string s.scope.name)), ("storage", some (.string s.storage.name)),
       ("initialValue", s.initialValue.toValue? fun fs => .object (Value.portableFields fs))]) := by
  simp [dump, toValue, Value.portable, Fields.portableFields_present, Slot.map_portable_toValue?]

theorem ofValue_dump (s : Store) :
    ofValue s.dump = .ok { s with initialValue := s.initialValue.map Value.portableFields } := by
  rw [dump_eq, ofValue, ofFields_eq_ok]
  simp [Label.value?_eq, Fields.get?_present_cons, Slot.toValue?_map]

theorem settled_dump (s : Store) : Settled ofValue dump s.dump := by
  refine ⟨_, ofValue_dump s, ?_⟩
  simp [dump_eq, Slot.toValue?_map, Value.portableFields_portableFields]

/-- What is written for a record that a store is read from. -/
def Writes (fs gs : Fields Value) : Prop := ∀ l ∈ labels, l.Carries fs gs

/-- The same of two values. -/
def Written (v w : Value) : Prop := ∃ fs gs, v = .object fs ∧ w = .object gs ∧ Writes fs gs

theorem written_dump {v : Value} {s : Store} (h : ofValue v = .ok s) : Written v s.dump := by
  cases v with
  | object fs =>
    obtain ⟨hscope, hstorage, hinitial⟩ := ofFields_eq_ok.1 h
    refine ⟨fs, _, rfl, dump_eq s, ?_⟩
    simp [Writes, labels, Label.Carries, hscope, hstorage, hinitial, Fields.get?_present_cons,
      Value.portable, Slot.map_portable_toValue?]
  | _ => cases h

end Store

namespace Component

theorem childrenMember_eq (fs : Fields Value) :
    childrenMember fs =
      match fs.get? "children" with
      | some v => (childrenOf v).within (.member "children")
      | none => .ok [] := by
  induction fs with
  | nil => rfl
  | cons f fs ih =>
    obtain ⟨name, v⟩ := f
    rw [childrenMember, Fields.get?]
    split
    · rfl
    · exact ih

theorem listValue_eq_map (cs : List Component) : listValue cs = cs.map toValue := by
  induction cs with
  | nil => rfl
  | cons c cs ih => rw [listValue, ih, List.map_cons]

theorem componentsFrom_eq_itemsFrom (i : Nat) (vs : List Value) :
    componentsFrom i vs = itemsFrom ofValue i vs := by
  induction vs generalizing i with
  | nil => rfl
  | cons v vs ih => rw [componentsFrom, itemsFrom, ih]

theorem recordMember_eq_ok {name : String} {fs gs : Fields Value} :
    recordMember name fs = .ok gs ↔ fs.given? name = record? gs := by
  rw [recordMember, defaulted_eq_ok, value?_withoutEmpty]
  cases hv : fs.given? name with
  | none => cases gs <;> simp [record?]
  | some v =>
    have htruthy := Fields.truthy_of_given? hv
    simp only [reduceCtorEq, false_and, false_or, Option.some.injEq, exists_eq_left']
    rw [reads_fields]
    constructor
    · rintro rfl
      cases gs with
      | nil => cases htruthy
      | cons g gs => rfl
    · intro h
      cases gs with
      | nil => cases h
      | cons g gs => exact Option.some.inj h

theorem ofValue_eq_ok {fs : Fields Value} {c : Component} :
    ofValue (.object fs) = .ok c ↔
      Label.value? "type" fs = some (.string c.type) ∧ fs.given? "style" = record? c.style ∧
      fs.given? "properties" = record? c.properties ∧ childrenMember fs = .ok c.children := by
  rw [← required_eq_ok_of_reads reads_text, ← recordMember_eq_ok, ← recordMember_eq_ok]
  obtain ⟨type, style, properties, children⟩ := c
  simp [ofValue, Decoded.map_eq_ok]

theorem record?_map_portable (fs : Fields Value) :
    (record? fs).map Value.portable = record? (Value.portableFields fs) := by
  cases fs with
  | nil => rfl
  | cons f fs => rfl

theorem childrenValue?_eq (cs : List Component) :
    childrenValue? cs = Document.list? (cs.map toValue) := by
  cases cs with
  | nil => rfl
  | cons c cs => rw [childrenValue?, listValue_eq_map]; rfl

theorem dump_eq (c : Component) :
    c.dump = .object (Fields.present
      [("type", some (.string c.type)), ("style", record? (Value.portableFields c.style)),
       ("properties", record? (Value.portableFields c.properties)),
       ("children", Document.list? (c.children.map dump))]) := by
  obtain ⟨type, style, properties, children⟩ := c
  simp [dump, toValue, Value.portable, Fields.portableFields_present, record?_map_portable,
    childrenValue?_eq, Document.list?_map_portable]
  rfl

theorem childrenMember_eq_ok {fs : Fields Value} {cs : List Component}
    (h : childrenMember fs = .ok cs) :
    List.Forall₂ (fun v c => ofValue v = .ok c) (fs.items "children") cs := by
  rw [childrenMember_eq] at h
  unfold Fields.items
  cases hv : fs.get? "children" with
  | none =>
    rw [hv] at h
    cases h
    exact .nil
  | some v =>
    simp only [hv, Decoded.within_eq_ok] at h
    cases v with
    | list items => exact itemsFrom_eq_ok.1 ((componentsFrom_eq_itemsFrom 0 items).symm.trans h)
    | _ =>
      rw [childrenOf] at h
      · split at h
        · cases h
        · cases h
          exact .nil
      · simp

theorem childrenMember_of_list? {fs : Fields Value} {vs : List Value} {cs : List Component}
    (hfs : fs.get? "children" = Document.list? vs)
    (h : List.Forall₂ (fun v c => ofValue v = .ok c) vs cs) : childrenMember fs = .ok cs := by
  rw [childrenMember_eq, hfs]
  cases h with
  | nil => rfl
  | cons hv hvs =>
    exact Decoded.within_eq_ok.2
      ((componentsFrom_eq_itemsFrom 0 _).trans (itemsFrom_eq_ok.2 (.cons hv hvs)))

theorem filter_truthy_record? (fs : Fields Value) :
    (record? fs).filter Value.truthy = record? fs := by
  cases fs <;> rfl

theorem sizeOf_lt_of_mem_children {c d : Component} (h : d ∈ c.children) : sizeOf d < sizeOf c := by
  obtain ⟨type, style, properties, children⟩ := c
  have hlt : sizeOf d < sizeOf children := List.sizeOf_lt_of_mem h
  simp only [mk.sizeOf_spec]
  omega

theorem settled_dump (c : Component) : Settled ofValue dump c.dump := by
  have hchildren : ∀ d ∈ c.children, Settled ofValue dump d.dump := fun d hd => settled_dump d
  obtain ⟨ds, hread, hwrite⟩ := exists_of_settled hchildren
  refine ⟨⟨c.type, Value.portableFields c.style, Value.portableFields c.properties, ds⟩, ?_, ?_⟩
  · rw [dump_eq c, ofValue_eq_ok]
    refine ⟨?_, ?_, ?_, childrenMember_of_list? ?_ hread⟩ <;>
      simp [Label.value?_eq, Fields.get?_present_cons, Fields.given?_present_cons,
        filter_truthy_record?]
  · rw [dump_eq, dump_eq c]
    simp [Value.portableFields_portableFields, hwrite]
termination_by sizeOf c
decreasing_by exact sizeOf_lt_of_mem_children hd

/-- What is written for a record that a component is read from: no member that is empty. -/
structure Writes (fs gs : Fields Value) : Prop where
  type : gs.get? "type" = fs.get? "type"
  records : ∀ name ∈ ["style", "properties"], gs.get? name = (fs.given? name).map Value.portable
  full : ∀ name ∈ ["style", "properties", "children"], ∀ v, gs.get? name = some v → v.truthy = true

theorem truthy_of_record? {fs : Fields Value} {v : Value} (h : record? fs = some v) :
    v.truthy = true := by
  cases fs with
  | nil => cases h
  | cons f fs =>
    cases h
    rfl

/-- What is written for a component, and that its children are written one by one. -/
theorem writes_step {v : Value} {c : Component} (h : ofValue v = .ok c) :
    ∃ fs gs : Fields Value, v = .object fs ∧ c.dump = .object gs ∧ Writes fs gs ∧
      List.Forall₂ (fun v w => ∃ d, ofValue v = .ok d ∧ d.dump = w) (fs.items "children")
        (gs.items "children") := by
  cases v with
  | object fs =>
    obtain ⟨htype, hstyle, hproperties, hchildren⟩ := ofValue_eq_ok.1 h
    refine ⟨fs, _, rfl, dump_eq c, ⟨?_, ?_, ?_⟩, ?_⟩
    · rw [Label.value?_eq, Option.or_self] at htype
      simp [Fields.get?_present_cons, htype]
    · simp [Fields.get?_present_cons, hstyle, hproperties, record?_map_portable]
    · have hrecord (fs : Fields Value) : ∀ v, record? fs = some v → v.truthy = true := fun _ =>
        truthy_of_record?
      have hlist (vs : List Value) : ∀ v, Document.list? vs = some v → v.truthy = true := fun _ =>
        Document.truthy_of_list?
      simpa [Fields.get?_present_cons] using ⟨hrecord _, hrecord _, hlist _⟩
    · have hwrites : List.Forall₂ (fun v w => ∃ d, ofValue v = .ok d ∧ d.dump = w)
          (Fields.items fs "children") (c.children.map dump) :=
        List.forall₂_map_right_iff.2
          ((childrenMember_eq_ok hchildren).imp fun v d hd => ⟨d, hd, rfl⟩)
      convert hwrites
      exact Fields.items_of_get? (by simp [Fields.get?_present_cons])
  | _ => cases h

/-- So at every depth. -/
def Written (v w : Value) : Prop :=
  ∀ path, Option.Rel Writes (v.recordAt "children" path) (w.recordAt "children" path)

theorem written_dump {v : Value} {c : Component} (h : ofValue v = .ok c) : Written v c.dump := by
  refine rel_recordAt (R := fun v w => ∃ d, ofValue v = .ok d ∧ d.dump = w) ?_ ⟨c, h, rfl⟩
  rintro v w ⟨d, hd, rfl⟩
  exact writes_step hd

end Component

namespace Action

theorem actionsMember_eq (fs : Fields Value) :
    actionsMember fs =
      match fs.get? "actions" with
      | some v => (actionsOf v).within (.member "actions")
      | none => .ok .unset := by
  induction fs with
  | nil => rfl
  | cons f fs ih =>
    obtain ⟨name, v⟩ := f
    rw [actionsMember, Fields.get?]
    split
    · rfl
    · exact ih

theorem listValue_eq_map {ι : Type} (write : ι → String) (as : List (Action ι)) :
    listValue write as = as.map (toValue write) := by
  induction as with
  | nil => rfl
  | cons a as ih => rw [listValue, ih, List.map_cons]

theorem actionsFrom_eq_itemsFrom (i : Nat) (vs : List Value) :
    actionsFrom i vs = itemsFrom ofValue i vs := by
  induction vs generalizing i with
  | nil => rfl
  | cons v vs ih => rw [actionsFrom, itemsFrom, ih]

/-- The actions inside are absent, null or a list where the values that they are read from are. -/
theorem actionsMember_eq_ok {fs : Fields Value} {x : Slot (List (Action String))} :
    actionsMember fs = .ok x ↔ ∃ y : Slot (List Value), fs.get? "actions" = y.toValue? .list ∧
      Slot.Rel (List.Forall₂ fun v a => ofValue v = .ok a) y x := by
  rw [actionsMember_eq]
  constructor
  · intro h
    cases hv : fs.get? "actions" with
    | none =>
      rw [hv] at h
      cases h
      exact ⟨.unset, rfl, .unset⟩
    | some v =>
      simp only [hv, Decoded.within_eq_ok] at h
      cases v with
      | null =>
        cases h
        exact ⟨.null, rfl, .null⟩
      | list items =>
        obtain ⟨as, has, rfl⟩ := Decoded.map_eq_ok.1 h
        rw [actionsFrom_eq_itemsFrom] at has
        exact ⟨.set items, rfl, .set (itemsFrom_eq_ok.1 has)⟩
      | _ => cases h
  · rintro ⟨y, hy, hx⟩
    rw [hy]
    cases hx with
    | unset => rfl
    | null => rfl
    | set has =>
      refine Decoded.within_eq_ok.2 (Decoded.map_eq_ok.2 ⟨_, ?_, rfl⟩)
      rw [actionsFrom_eq_itemsFrom]
      exact itemsFrom_eq_ok.2 has

theorem checked_eq_ok {a b : Action String} : checked a = .ok b ↔ a = b ∧ b.shapeError? = none := by
  unfold checked
  cases h : a.shapeError? with
  | none =>
    simp only [Except.ok.injEq, iff_self_and]
    rintro rfl
    exact h
  | some e =>
    simp only [Decoded.fail, reduceCtorEq, false_iff, not_and]
    rintro rfl
    simp [h]

theorem ofValue_eq_ok {fs : Fields Value} {a : Action String} :
    ofValue (.object fs) = .ok a ↔
      (Label.value? "id" fs = some (.string a.id) ∧
      Label.value? "type" fs = some (.string a.kind.name) ∧
      (Label.value? "scope" fs = a.scope.toValue? fun s => .string s.name) ∧
      (Label.value? "storage" fs = a.storage.toValue? fun s => .string s.name) ∧
      Label.value? ⟨"keyPath", "key_path"⟩ fs = a.keyPath.toValue? .string ∧
      actionsMember fs = .ok a.actions) ∧
      fs.get? "value" = a.value ∧ a.shapeError? = none := by
  rw [← required_eq_ok_of_reads reads_text, ← required_eq_ok_of_reads reads_actionKind,
    ← slot_eq_ok reads_lifetime (by simp), ← slot_eq_ok reads_storage (by simp),
    ← slot_eq_ok reads_text (by simp)]
  obtain ⟨id, kind, scope, storage, keyPath, value, actions⟩ := a
  simp only [ofValue, Decoded.bind_eq_ok, Decoded.both_eq_ok, checked_eq_ok, Prod.exists]
  constructor
  · rintro ⟨_, _, _, _, _, _, h, heq, hshape⟩
    cases heq
    exact ⟨h, rfl, hshape⟩
  · rintro ⟨h, rfl, hshape⟩
    exact ⟨_, _, _, _, _, _, h, rfl, hshape⟩

theorem slotValue_map_portable {ι : Type} (write : ι → String) (x : Slot (List (Action ι))) :
    (slotValue write x).map Value.portable = x.toValue? fun as => .list (as.map (dump write)) := by
  cases x with
  | set as =>
    simp [slotValue, Slot.toValue?, Value.portable, Value.portableItems_eq_map, listValue_eq_map,
      dump]
  | _ => rfl

theorem dump_eq {ι : Type} (write : ι → String) (a : Action ι) :
    a.dump write = .object (Fields.present
      [("id", some (.string (write a.id))), ("type", some (.string a.kind.name)),
       ("scope", a.scope.toValue? fun s => .string s.name),
       ("storage", a.storage.toValue? fun s => .string s.name),
       ("keyPath", a.keyPath.toValue? .string), ("value", a.value.map Value.portable),
       ("actions", a.actions.toValue? fun as => .list (as.map (dump write)))]) := by
  obtain ⟨id, kind, scope, storage, keyPath, value, actions⟩ := a
  simp [dump, toValue, Value.portable, Fields.portableFields_present, Slot.map_portable_toValue?,
    slotValue_map_portable]

/-- The exchange form of an action that was read. -/
def form (a : Action String) : Value := a.dump fun id => id

/-- The members of that form. -/
def formFields (a : Action String) : Fields Value :=
  Fields.present
    [("id", some (.string a.id)), ("type", some (.string a.kind.name)),
     ("scope", a.scope.toValue? fun s => .string s.name),
     ("storage", a.storage.toValue? fun s => .string s.name),
     ("keyPath", a.keyPath.toValue? .string), ("value", a.value.map Value.portable),
     ("actions", a.actions.toValue? fun as => .list (as.map form))]

theorem form_eq (a : Action String) : a.form = .object a.formFields := dump_eq (fun id => id) a

theorem shapeError?_congr {a b : Action String} (hkind : a.kind = b.kind)
    (hscope : a.scope = b.scope) (hstorage : a.storage = b.storage)
    (hactions : a.actions.value?.isSome = b.actions.value?.isSome) :
    a.shapeError? = b.shapeError? := by
  have hnone : a.actions.value?.isNone = b.actions.value?.isNone := by
    rw [← Option.not_isSome, ← Option.not_isSome, hactions]
  rw [shapeError?, shapeError?, hkind, hscope, hstorage, hactions, hnone]

/-- The actions inside are read again, and written as the same. -/
theorem exists_of_settled {x : Slot (List (Action String))}
    (h : ∀ as, x = .set as → ∀ a ∈ as, Settled ofValue form a.form) :
    ∃ y, Slot.Rel (List.Forall₂ fun v a => ofValue v = .ok a) (x.map (·.map form)) y ∧
      (y.toValue? fun as => .list (as.map form)) = (x.toValue? fun as => .list (as.map form)) ∧
      y.value?.isSome = x.value?.isSome := by
  cases x with
  | unset => exact ⟨.unset, .unset, rfl, rfl⟩
  | null => exact ⟨.null, .null, rfl, rfl⟩
  | set as =>
    obtain ⟨bs, hread, hwrite⟩ := Scenario.exists_of_settled (h as rfl)
    exact ⟨.set bs, .set hread, by simp only [Slot.toValue?, hwrite], rfl⟩

theorem sizeOf_lt_of_mem_actions {a b : Action String} {as : List (Action String)}
    (has : a.actions = .set as) (h : b ∈ as) : sizeOf b < sizeOf a := by
  obtain ⟨id, kind, scope, storage, keyPath, value, actions⟩ := a
  cases has
  have hlt : sizeOf b < sizeOf as := List.sizeOf_lt_of_mem h
  simp only [mk.sizeOf_spec, Slot.set.sizeOf_spec]
  omega

theorem settled_form {v : Value} {a : Action String} (h : ofValue v = .ok a) :
    Settled ofValue form a.form := by
  cases v with
  | object fs =>
    obtain ⟨⟨-, -, -, -, -, hactions⟩, -, hshape⟩ := ofValue_eq_ok.1 h
    obtain ⟨y, -, hread⟩ := actionsMember_eq_ok.1 hactions
    have hinner : ∀ as, a.actions = .set as → ∀ b ∈ as, Settled ofValue form b.form := by
      intro as has b hb
      rw [has] at hread
      cases hread with
      | set hread =>
        obtain ⟨w, hw⟩ := exists_of_mem_read hread hb
        exact settled_form hw
    obtain ⟨x, hread, hwrite, hsome⟩ := exists_of_settled hinner
    refine ⟨{ a with value := a.value.map Value.portable, actions := x }, ?_, ?_⟩
    · rw [form_eq, ofValue_eq_ok]
      refine ⟨⟨?_, ?_, ?_, ?_, ?_, actionsMember_eq_ok.2 ⟨_, ?_, hread⟩⟩, ?_, ?_⟩
      case refine_8 =>
        rw [← hshape]
        exact shapeError?_congr rfl rfl rfl hsome
      all_goals simp [formFields, Label.value?_eq, Fields.get?_present_cons, Slot.toValue?_map]
    · rw [form_eq, form_eq a]
      simp [formFields, hwrite, Function.comp_def, Value.portable_portable]
  | _ => cases h
termination_by sizeOf a
decreasing_by exact sizeOf_lt_of_mem_actions has hb

def labels : List Label :=
  ["id", "type", "scope", "storage", ⟨"keyPath", "key_path"⟩, "value"]

/-- What is written for a record that an action is read from: null stays, and so does an empty list
of actions. -/
structure Writes (fs gs : Fields Value) : Prop where
  carries : ∀ l ∈ labels, l.Carries fs gs
  actions : ∀ x ∈ [none, some .null, some (.list [])],
    gs.get? "actions" = x ↔ fs.get? "actions" = x

/-- Lists whose items are in relation, where both are there and neither is null. -/
theorem forall₂_items {R : Value → Value → Prop} {fs gs : Fields Value} {name : String}
    {y z : Slot (List Value)} (h : Slot.Rel (List.Forall₂ R) y z)
    (hfs : fs.get? name = y.toValue? .list) (hgs : gs.get? name = z.toValue? .list) :
    List.Forall₂ R (fs.items name) (gs.items name) ∧
      ∀ x ∈ [none, some .null, some (.list [])], gs.get? name = x ↔ fs.get? name = x := by
  unfold Fields.items
  rw [hfs, hgs]
  cases h with
  | unset => exact ⟨.nil, by simp [Slot.toValue?]⟩
  | null => exact ⟨.nil, by simp [Slot.toValue?]⟩
  | set h =>
    refine ⟨h, ?_⟩
    cases h <;> simp [Slot.toValue?]

/-- What is written for an action, and that the ones inside are written one by one. -/
theorem writes_step {v : Value} {a : Action String} (h : ofValue v = .ok a) :
    ∃ fs gs : Fields Value, v = .object fs ∧ a.form = .object gs ∧ Writes fs gs ∧
      List.Forall₂ (fun v w => ∃ b, ofValue v = .ok b ∧ b.form = w) (fs.items "actions")
        (gs.items "actions") := by
  cases v with
  | object fs =>
    obtain ⟨⟨hid, htype, hscope, hstorage, hkeyPath, hactions⟩, hvalue, -⟩ := ofValue_eq_ok.1 h
    obtain ⟨y, hy, hread⟩ := actionsMember_eq_ok.1 hactions
    have hwrite : Slot.Rel (List.Forall₂ fun v w => ∃ b, ofValue v = .ok b ∧ b.form = w) y
        (a.actions.map (·.map form)) :=
      hread.map_right fun vs as h =>
        List.forall₂_map_right_iff.2 (h.imp fun v b hb => ⟨b, hb, rfl⟩)
    have hactions : a.formFields.get? "actions" = (a.actions.map (·.map form)).toValue? .list := by
      simp [formFields, Fields.get?_present_cons, Slot.toValue?_map]
    obtain ⟨hitems, hsame⟩ := forall₂_items hwrite hy hactions
    have hvalue : Label.value? "value" fs = a.value := by
      rw [Label.value?_eq, Option.or_self, hvalue]
    refine ⟨fs, a.formFields, rfl, form_eq a, ⟨?_, hsame⟩, hitems⟩
    simp [labels, Label.Carries, hid, htype, hscope, hstorage, hkeyPath, hvalue, formFields,
      Fields.get?_present_cons, Value.portable, Slot.map_portable_toValue?]
  | _ => cases h

/-- So at every depth. -/
def Written (v w : Value) : Prop :=
  ∀ path, Option.Rel Writes (v.recordAt "actions" path) (w.recordAt "actions" path)

theorem written_form {v : Value} {a : Action String} (h : ofValue v = .ok a) :
    Written v a.form := by
  refine rel_recordAt (R := fun v w => ∃ b, ofValue v = .ok b ∧ b.form = w) ?_ ⟨a, h, rfl⟩
  rintro v w ⟨b, hb, rfl⟩
  exact writes_step hb

end Action

namespace Document

theorem listMember_eq_ok {α : Type} {name : String} {d : Decoder α} {fs : Fields Value}
    {as : List α} :
    listMember name d fs = .ok as ↔ ∃ vs, fs.given? name = list? vs ∧
      List.Forall₂ (fun v a => d v = .ok a) vs as := by
  rw [listMember, defaulted_eq_ok, value?_withoutEmpty]
  simp only [list_eq_ok]
  constructor
  · rintro (⟨hnone, rfl⟩ | ⟨_, hv, vs, rfl, has⟩)
    · exact ⟨[], hnone, .nil⟩
    · refine ⟨vs, ?_, has⟩
      cases vs with
      | nil => cases Fields.truthy_of_given? hv
      | cons v vs => exact hv
  · rintro ⟨vs, hv, has⟩
    cases has with
    | nil => exact .inl ⟨hv, rfl⟩
    | cons hva has => exact .inr ⟨_, hv, _, rfl, .cons hva has⟩

theorem membersOf_eq_ok {α : Type} {d : Decoder α} {fs : Fields Value} {as : Fields α} :
    membersOf d fs = .ok as ↔
      List.Forall₂ (fun f g => g.1 = f.1 ∧ d f.2 = .ok g.2) fs as := by
  induction fs generalizing as with
  | nil => cases as <;> simp [membersOf]
  | cons f fs ih =>
    obtain ⟨name, v⟩ := f
    cases as with
    | nil => simp [membersOf, Decoded.map_eq_ok]
    | cons g as =>
      obtain ⟨other, a⟩ := g
      simp [membersOf, Decoded.map_eq_ok, ih, and_assoc, and_left_comm, eq_comm (a := other)]

theorem componentsOf_eq_ok {v : Value} {cs : Fields Component} :
    componentsOf v = .ok cs ↔ ∃ fs, v = .object fs ∧
      List.Forall₂ (fun f g => g.1 = f.1 ∧ Component.ofValue f.2 = .ok g.2) fs cs := by
  cases v with
  | object fs => simp [componentsOf, membersOf_eq_ok]
  | _ => simp [componentsOf, Decoded.fail]

theorem ofValue_eq_ok {fs : Fields Value} {d : Document String} :
    ofValue (.object fs) = .ok d ↔
      (Label.value? "key" fs = some (.string d.key) ∧
      Label.value? "version" fs = some (.string d.version) ∧
      (∃ v, Label.value? ⟨"buildNumber", "build_number"⟩ fs = some v ∧
        integer v = .ok d.buildNumber) ∧
      (∃ v, Label.value? "main" fs = some v ∧ Component.ofValue v = .ok d.main) ∧
      (∃ v, Label.value? "components" fs = some v ∧ componentsOf v = .ok d.components) ∧
      listMember "stores" Store.ofValue fs = .ok d.stores ∧
      listMember "actions" Action.ofValue fs = .ok d.actions ∧
      defaulted "warnings" () ignoredList fs = .ok ()) ∧ d.warnings = [] := by
  rw [← required_eq_ok_of_reads reads_text, ← required_eq_ok_of_reads reads_text, ← required_eq_ok,
    ← required_eq_ok, ← required_eq_ok]
  obtain ⟨key, version, buildNumber, main, components, stores, actions, warnings⟩ := d
  simp [ofValue, Decoded.map_eq_ok, eq_comm (b := warnings), Unique.exists_iff]

/-- The exchange form of a document that was read. -/
def form (d : Document String) : Value := d.dump fun id => id

/-- The members of that form. -/
def formFields (d : Document String) : Fields Value :=
  Fields.present
    [("key", some (.string d.key)), ("version", some (.string d.version)),
     ("buildNumber", some (.int d.buildNumber)), ("main", some d.main.dump),
     ("components", some (.object (d.components.mapValues Component.dump))),
     ("stores", list? (d.stores.map Store.dump)), ("actions", list? (d.actions.map Action.form))]

theorem portableFields_components (cs : Fields Component) :
    Value.portableFields (cs.map fun (name, c) => (name, c.toValue)) =
      cs.mapValues Component.dump := by
  rw [Value.portableFields_eq_mapValues]
  simp [Fields.mapValues, Component.dump]

theorem form_eq (d : Document String) : d.form = .object d.formFields := by
  simp only [form, dump, toValue, Value.portable, Fields.portableFields_present, List.map_cons,
    List.map_nil, Option.map_some, portableFields_components, list?_map_portable,
    List.map_map]
  rfl

/-- The components are read again under their names, and written as the same. -/
theorem exists_of_components (cs : Fields Component) :
    ∃ ds : Fields Component,
      List.Forall₂ (fun f g => g.1 = f.1 ∧ Component.ofValue f.2 = .ok g.2)
        (cs.mapValues Component.dump) ds ∧
      ds.mapValues Component.dump = cs.mapValues Component.dump := by
  induction cs with
  | nil => exact ⟨[], .nil, rfl⟩
  | cons f cs ih =>
    obtain ⟨ds, hread, hwrite⟩ := ih
    obtain ⟨d, hd, hdump⟩ := Component.settled_dump f.2
    refine ⟨(f.1, d) :: ds, .cons ⟨rfl, hd⟩ hread, ?_⟩
    calc Fields.mapValues Component.dump ((f.1, d) :: ds)
        = (f.1, d.dump) :: Fields.mapValues Component.dump ds := rfl
      _ = (f.1, f.2.dump) :: Fields.mapValues Component.dump cs := by rw [hdump, hwrite]

theorem settled_form {v : Value} {d : Document String} (h : ofValue v = .ok d) :
    Settled ofValue form d.form := by
  cases v with
  | object fs =>
    obtain ⟨⟨-, -, -, -, -, -, hactions, -⟩, hwarnings⟩ := ofValue_eq_ok.1 h
    obtain ⟨main, hmain, hmain'⟩ := Component.settled_dump d.main
    obtain ⟨components, hcomponents, hcomponents'⟩ := exists_of_components d.components
    obtain ⟨stores, hstores, hstores'⟩ :=
      exists_of_settled fun s (_ : s ∈ d.stores) => s.settled_dump
    have hsettled : ∀ a ∈ d.actions, Settled Action.ofValue Action.form a.form := by
      intro a ha
      obtain ⟨vs, -, hread⟩ := listMember_eq_ok.1 hactions
      obtain ⟨w, hw⟩ := exists_of_mem_read hread ha
      exact Action.settled_form hw
    obtain ⟨actions, hactions, hactions'⟩ := exists_of_settled hsettled
    refine ⟨{ d with main, components, stores, actions }, ?_, ?_⟩
    · rw [form_eq, ofValue_eq_ok]
      refine ⟨⟨?_, ?_, ⟨.int d.buildNumber, ?_, rfl⟩, ⟨_, ?_, hmain⟩,
        ⟨_, ?_, componentsOf_eq_ok.2 ⟨_, rfl, hcomponents⟩⟩,
        listMember_eq_ok.2 ⟨_, ?_, hstores⟩, listMember_eq_ok.2 ⟨_, ?_, hactions⟩,
        defaulted_eq_ok.2 (.inl ⟨?_, rfl⟩)⟩, hwarnings⟩ <;>
        simp [formFields, Label.value?_eq, Fields.get?_present_cons, Fields.given?_present_cons,
          filter_truthy_list?]
    · rw [form_eq, form_eq d]
      simp only [formFields, hmain', hcomponents', hstores', hactions']
  | _ => cases h

/-- What is written for a record that a document is read from: its parts in their order and under
their names, and no member that is empty. -/
structure Writes (fs gs : Fields Value) : Prop where
  texts : ∀ name ∈ ["key", "version"], gs.get? name = fs.get? name
  buildNumber : ∃ v n, Label.value? ⟨"buildNumber", "build_number"⟩ fs = some v ∧
    integer v = .ok n ∧ gs.get? "buildNumber" = some (.int n)
  main : ∃ v w, fs.get? "main" = some v ∧ gs.get? "main" = some w ∧ Component.Written v w
  components : ∃ cs ds, fs.get? "components" = some (.object cs) ∧
    gs.get? "components" = some (.object ds) ∧
    List.Forall₂ (fun f g => g.1 = f.1 ∧ Component.Written f.2 g.2) cs ds
  stores : List.Forall₂ Store.Written (Fields.items (fs.filter (·.2.truthy)) "stores")
    (gs.items "stores")
  actions : List.Forall₂ Action.Written (Fields.items (fs.filter (·.2.truthy)) "actions")
    (gs.items "actions")
  full : ∀ name ∈ ["stores", "actions"], ∀ v, gs.get? name = some v → v.truthy = true

/-- The same of two values. -/
def Written (v w : Value) : Prop := ∃ fs gs, v = .object fs ∧ w = .object gs ∧ Writes fs gs

theorem written_form {v : Value} {d : Document String} (h : ofValue v = .ok d) :
    Written v d.form := by
  cases v with
  | object fs =>
    obtain ⟨⟨hkey, hversion, ⟨n, hn, hnumber⟩, ⟨m, hm, hmain⟩, ⟨c, hc, hcomponents⟩, hstores,
      hactions, -⟩, -⟩ := ofValue_eq_ok.1 h
    obtain ⟨cs, rfl, hcs⟩ := componentsOf_eq_ok.1 hcomponents
    obtain ⟨ss, hss, hstores⟩ := listMember_eq_ok.1 hstores
    obtain ⟨as, has, hactions⟩ := listMember_eq_ok.1 hactions
    rw [Label.value?_eq, Option.or_self] at hkey hversion hm hc
    refine ⟨fs, d.formFields, rfl, form_eq d, ?_, ⟨n, d.buildNumber, hn, hnumber, ?_⟩,
      ⟨m, d.main.dump, hm, ?_, Component.written_dump hmain⟩,
      ⟨cs, d.components.mapValues Component.dump, hc, ?_, ?_⟩, ?_, ?_, ?_⟩
    · simp [formFields, Fields.get?_present_cons, hkey, hversion]
    · simp [formFields, Fields.get?_present_cons]
    · simp [formFields, Fields.get?_present_cons]
    · simp [formFields, Fields.get?_present_cons]
    · exact List.forall₂_map_right_iff.2
        (hcs.imp fun f g hfg => ⟨hfg.1, Component.written_dump hfg.2⟩)
    · have hgs : d.formFields.get? "stores" = list? (d.stores.map Store.dump) := by
        simp [formFields, Fields.get?_present_cons]
      rw [Fields.items_of_get? hss, Fields.items_of_get? hgs]
      exact List.forall₂_map_right_iff.2 (hstores.imp fun v s hs => Store.written_dump hs)
    · have hgs : d.formFields.get? "actions" = list? (d.actions.map Action.form) := by
        simp [formFields, Fields.get?_present_cons]
      rw [Fields.items_of_get? has, Fields.items_of_get? hgs]
      exact List.forall₂_map_right_iff.2 (hactions.imp fun v a ha => Action.written_form ha)
    · have hlist (vs : List Value) : ∀ v, list? vs = some v → v.truthy = true := fun _ =>
        truthy_of_list?
      simpa [formFields, Fields.get?_present_cons] using ⟨hlist _, hlist _⟩
  | _ => cases h

end Document

/-- Whatever a document, a component, a store or an action is read from, what is written for it is
settled, and has its members. -/
theorem settled_and_written (v : Value) :
    (∀ d, Document.ofValue v = .ok d →
      Settled Document.ofValue Document.form d.form ∧ Document.Written v d.form) ∧
    (∀ c, Component.ofValue v = .ok c →
      Settled Component.ofValue Component.dump c.dump ∧ Component.Written v c.dump) ∧
    (∀ s, Store.ofValue v = .ok s →
      Settled Store.ofValue Store.dump s.dump ∧ Store.Written v s.dump) ∧
    (∀ a, Action.ofValue v = .ok a →
      Settled Action.ofValue Action.form a.form ∧ Action.Written v a.form) :=
  ⟨fun _ h => ⟨Document.settled_form h, Document.written_form h⟩,
    fun c h => ⟨c.settled_dump, Component.written_dump h⟩,
    fun s h => ⟨s.settled_dump, Store.written_dump h⟩,
    fun _ h => ⟨Action.settled_form h, Action.written_form h⟩⟩

def sparseComponent : Value :=
  .object
    [("type", .string "View"), ("style", .object []), ("properties", .null),
     ("children", .list [.object [("type", .string "Text"), ("children", .list [])]])]

def sparseStore : Value :=
  .object [("scope", .string "app"), ("storage", .string "memory"), ("initial_value", .null)]

def sparseAction : Value :=
  .object
    [("id", .string "a"), ("type", .string "sequence"), ("key_path", .null), ("value", .null),
     ("actions", .list [])]

def sparseDocument : Value :=
  .object
    [("key", .string "cart"), ("version", .string "1.0.0"), ("build_number", .string " 7.0"),
     ("main", sparseComponent), ("components", .object []), ("stores", .null),
     ("actions", .list [sparseAction]), ("comment", .bool true)]

theorem settled_and_written_sparse :
    (∃ d, Document.ofValue sparseDocument = .ok d ∧
      d.form = .object
        [("key", .string "cart"), ("version", .string "1.0.0"), ("buildNumber", .int 7),
         ("main", .object
           [("type", .string "View"), ("children", .list [.object [("type", .string "Text")]])]),
         ("components", .object []),
         ("actions", .list [.object
           [("id", .string "a"), ("type", .string "sequence"), ("keyPath", .null), ("value", .null),
            ("actions", .list [])]])] ∧
      Settled Document.ofValue Document.form d.form ∧ Document.Written sparseDocument d.form) ∧
    (∃ c, Component.ofValue sparseComponent = .ok c ∧
      Settled Component.ofValue Component.dump c.dump ∧
      Component.Written sparseComponent c.dump) ∧
    (∃ s, Store.ofValue sparseStore = .ok s ∧
      Settled Store.ofValue Store.dump s.dump ∧ Store.Written sparseStore s.dump) ∧
    ∃ a, Action.ofValue sparseAction = .ok a ∧
      Settled Action.ofValue Action.form a.form ∧ Action.Written sparseAction a.form :=
  ⟨⟨_, rfl, rfl, (settled_and_written sparseDocument).1 _ rfl⟩,
    ⟨_, rfl, (settled_and_written sparseComponent).2.1 _ rfl⟩,
    ⟨_, rfl, (settled_and_written sparseStore).2.2.1 _ rfl⟩,
    ⟨_, rfl, (settled_and_written sparseAction).2.2.2 _ rfl⟩⟩

end Scenario

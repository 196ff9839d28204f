import Mathlib.Data.List.Forall2
import Mathlib.Data.Option.Basic
import Scenario.Wire.Documents

namespace Scenario

open Wire

namespace Value

theorem portableItems_eq_map (vs : List Value) : portableItems vs = vs.map portable := by
  induction vs with
  | nil => rfl
  | cons v vs ih => rw [portableItems, ih, List.map_cons]

theorem portableFields_eq_mapValues (fs : Fields Value) :
    portableFields fs = Fields.mapValues portable fs := by
  induction fs with
  | nil => rfl
  | cons f fs ih =>
    obtain ⟨name, v⟩ := f
    rw [portableFields, ih]
    rfl

mutual

theorem portable_portable : (v : Value) → v.portable.portable = v.portable
  | .null | .bool _ | .string _ | .number (.int _) => rfl
  | .number (.float x) => by
    cases hx : x.isFinite <;> simp [portable, hx]
  | .list items => by rw [portable, portable, portableItems_portableItems]
  | .object fs => by rw [portable, portable, portableFields_portableFields]

theorem portableItems_portableItems :
    (vs : List Value) → portableItems (portableItems vs) = portableItems vs
  | [] => rfl
  | v :: rest => by
    rw [portableItems, portableItems, portable_portable, portableItems_portableItems]

theorem portableFields_portableFields :
    (fs : List (String × Value)) → portableFields (portableFields fs) = portableFields fs
  | [] => rfl
  | (k, v) :: rest => by
    rw [portableFields, portableFields, portable_portable, portableFields_portableFields]

end

end Value

namespace Fields

variable {α : Type}

theorem get?_present_cons (name other : String) (a : Option α) (fs : List (String × Option α)) :
    get? (present ((name, a) :: fs)) other =
      if name = other then a.or (get? (present fs) other) else get? (present fs) other := by
  cases a with
  | none => simp [present]
  | some a => simp [present, get?]

@[simp] theorem get?_present_nil (name : String) :
    get? (present ([] : List (String × Option α))) name = none := rfl

/-- What is written for members that are there is written for each of them. -/
theorem portableFields_present (fs : List (String × Option Value)) :
    Value.portableFields (present fs) =
      present (fs.map fun f => (f.1, f.2.map Value.portable)) := by
  induction fs with
  | nil => rfl
  | cons f fs ih =>
    obtain ⟨name, v⟩ := f
    cases v with
    | none => simpa [present] using ih
    | some v => simpa [present, Value.portableFields] using ih

end Fields

namespace Document

theorem list?_map_portable (vs : List Value) :
    (Document.list? vs).map Value.portable = Document.list? (vs.map Value.portable) := by
  cases vs with
  | nil => rfl
  | cons v vs => simp [Document.list?, Value.portable, Value.portableItems_eq_map]

theorem filter_truthy_list? (vs : List Value) : (list? vs).filter Value.truthy = list? vs := by
  cases vs <;> rfl

theorem truthy_of_list? {vs : List Value} {v : Value} (h : Document.list? vs = some v) :
    v.truthy = true := by
  cases vs with
  | nil => cases h
  | cons w ws =>
    cases h
    rfl

end Document

/-- The items of a member that is a list. -/
def Fields.items (fs : Fields Value) (name : String) : List Value :=
  match fs.get? name with
  | some (.list items) => items
  | _ => []

/-- The record that a path leads to, at each step to an item of the member of the given name. -/
def Value.recordAt (name : String) : List Nat → Value → Option (Fields Value)
  | [], .object fs => some fs
  | i :: path, .object fs => (Fields.items fs name)[i]?.bind (recordAt name path)
  | _, _ => none

theorem Fields.items_of_get? {fs : Fields Value} {name : String} {vs : List Value}
    (h : fs.get? name = Document.list? vs) : fs.items name = vs := by
  unfold Fields.items
  rw [h]
  cases vs <;> rfl

theorem rel_getElem? {α β : Type} {R : α → β → Prop} {as : List α} {bs : List β}
    (h : List.Forall₂ R as bs) (i : Nat) : Option.Rel R as[i]? bs[i]? := by
  induction h generalizing i with
  | nil => exact .none
  | cons hab _ ih =>
    cases i with
    | zero => exact .some hab
    | succ i => simpa using ih i

theorem rel_bind {α β γ δ : Type} {R : α → β → Prop} {W : γ → δ → Prop} {x : Option α}
    {y : Option β} {f : α → Option γ} {g : β → Option δ} (h : Option.Rel R x y)
    (hfg : ∀ a b, R a b → Option.Rel W (f a) (g b)) : Option.Rel W (x.bind f) (y.bind g) := by
  cases h with
  | none => exact .none
  | some hab => exact hfg _ _ hab

/-- What is true of two values and of the items of a member in pairs is true at the ends of all
paths. -/
theorem rel_recordAt {name : String} {R : Value → Value → Prop}
    {W : Fields Value → Fields Value → Prop}
    (hstep : ∀ v w, R v w → ∃ fs gs, v = .object fs ∧ w = .object gs ∧ W fs gs ∧
      List.Forall₂ R (Fields.items fs name) (Fields.items gs name))
    {v w : Value} (h : R v w) (path : List Nat) :
    Option.Rel W (v.recordAt name path) (w.recordAt name path) := by
  induction path generalizing v w with
  | nil =>
    obtain ⟨fs, gs, rfl, rfl, hW, -⟩ := hstep v w h
    exact .some hW
  | cons i path ih =>
    obtain ⟨fs, gs, rfl, rfl, -, hitems⟩ := hstep v w h
    exact rel_bind (rel_getElem? hitems i) fun v w h => ih h

namespace Slot

variable {α β : Type}

def map (f : α → β) : Slot α → Slot β
  | .unset => .unset
  | .null => .null
  | .set a => .set (f a)

theorem toValue?_map (f : α → β) (write : β → Value) (x : Slot α) :
    (x.map f).toValue? write = x.toValue? fun a => write (f a) := by
  cases x <;> rfl

theorem map_portable_toValue? (write : α → Value) (x : Slot α) :
    (x.toValue? write).map Value.portable = x.toValue? fun a => (write a).portable := by
  cases x <;> rfl

/-- Both are set to things that are related, or neither is set, in the same way. -/
inductive Rel (R : α → β → Prop) : Slot α → Slot β → Prop where
  | unset : Rel R .unset .unset
  | null : Rel R .null .null
  | set {a : α} {b : β} : R a b → Rel R (.set a) (.set b)

theorem Rel.map_right {γ : Type} {R : α → β → Prop} {S : α → γ → Prop} {f : β → γ} {x : Slot α}
    {y : Slot β} (h : Rel R x y) (hf : ∀ a b, R a b → S a (f b)) : Rel S x (y.map f) := by
  cases h with
  | unset => exact .unset
  | null => exact .null
  | set hab => exact .set (hf _ _ hab)

end Slot

namespace Wire

variable {α β : Type}

theorem Decoded.bind_eq_ok {f : α → Decoded β} {x : Decoded α} {b : β} :
    Except.bind x f = .ok b ↔ ∃ a, x = .ok a ∧ f a = .ok b := by
  cases x <;> simp [Except.bind]

theorem Decoded.map_eq_ok {f : α → β} {x : Decoded α} {b : β} :
    f <$> x = .ok b ↔ ∃ a, x = .ok a ∧ f a = b := by
  cases x <;> simp [Functor.map, Except.map]

/-- The value of a member, under whichever of its names. -/
def Label.value? (l : Label) (fs : Fields Value) : Option Value := (l.find? fs).map (·.2)

theorem Label.value?_eq (l : Label) (fs : Fields Value) :
    l.value? fs = (fs.get? l.name).or (fs.get? l.other) := by
  unfold value? find?
  cases fs.get? l.name <;> simp [Function.comp_def]

/-- The second record has the member of the first, under the name of the format. -/
def Label.Carries (l : Label) (fs gs : Fields Value) : Prop :=
  gs.get? l.name = (l.value? fs).map Value.portable

/-- A decoder reads just what is written in a certain way. -/
def Decoder.Reads (d : Decoder α) (write : α → Value) : Prop := ∀ v a, d v = .ok a ↔ v = write a

theorem reads_text : Decoder.Reads text .string := by
  intro v s
  cases v <;> simp [text, Decoded.fail]

theorem reads_fields : Decoder.Reads fields .object := by
  intro v fs
  cases v <;> simp [fields, Decoded.fail]

theorem reads_listed {ofName? : String → Option α} {name : α → String}
    (h : ∀ s a, ofName? s = some a ↔ s = name a) :
    (listed ofName?).Reads fun a => .string (name a) := by
  intro v a
  cases v with
  | string s =>
    rw [listed, Value.string.injEq, ← h]
    cases ofName? s <;> simp [Decoded.fail]
  | _ => simp [listed, Decoded.fail]

variable {d : Decoder α} {write : α → Value}

theorem required_eq_ok {l : Label} {fs : Fields Value} {a : α} :
    required l d fs = .ok a ↔ ∃ v, l.value? fs = some v ∧ d v = .ok a := by
  unfold required Label.value?
  cases l.find? fs <;> simp

theorem required_eq_ok_of_reads (hd : d.Reads write) {l : Label} {fs : Fields Value} {a : α} :
    required l d fs = .ok a ↔ l.value? fs = some (write a) := by
  simp [required_eq_ok, hd _ a]

theorem defaulted_eq_ok {b : α} {l : Label} {fs : Fields Value} {a : α} :
    defaulted l b d fs = .ok a ↔
      l.value? fs = none ∧ a = b ∨ ∃ v, l.value? fs = some v ∧ d v = .ok a := by
  unfold defaulted Label.value?
  cases l.find? fs with
  | none => simp [eq_comm]
  | some f => simp

theorem itemsFrom_eq_ok {i : Nat} {vs : List Value} {as : List α} :
    itemsFrom d i vs = .ok as ↔ List.Forall₂ (fun v a => d v = .ok a) vs as := by
  induction vs generalizing i as with
  | nil => cases as <;> simp [itemsFrom]
  | cons v vs ih =>
    cases as <;> simp [itemsFrom, Decoded.map_eq_ok, ih]

theorem list_eq_ok {v : Value} {as : List α} :
    list d v = .ok as ↔ ∃ vs, v = .list vs ∧ List.Forall₂ (fun v a => d v = .ok a) vs as := by
  cases v with
  | list vs => simp [list, itemsFrom_eq_ok]
  | _ => simp [list, Decoded.fail]

theorem slot_eq_ok (hd : d.Reads write) (hnull : ∀ a, write a ≠ .null) {l : Label}
    {fs : Fields Value} {x : Slot α} :
    slot l d fs = .ok x ↔ l.value? fs = x.toValue? write := by
  unfold slot defaulted Label.value?
  cases l.find? fs with
  | none => cases x <;> simp [Slot.toValue?]
  | some f =>
    obtain ⟨name, v⟩ := f
    simp only [Decoded.within_eq_ok, Option.map_some]
    unfold slotOf
    split
    · cases x with
      | set a => simpa [Slot.toValue?] using (hnull a).symm
      | _ => simp [Slot.toValue?]
    · rename_i hv
      rw [Decoded.map_eq_ok]
      cases x with
      | set a => simp [Slot.toValue?, hd v]
      | null => simpa [Slot.toValue?] using hv
      | unset => simp [Slot.toValue?]

end Wire

/-- Looking for a name finds what has it, if the names are different. -/
theorem find?_name_eq_some_iff {α : Type} {all : List α} {name : α → String}
    (hall : ∀ a, all.find? (name · == name a) = some a) {s : String} {a : α} :
    all.find? (name · == s) = some a ↔ s = name a := by
  constructor
  · intro h
    have hname : name a = s := by simpa using List.find?_some h
    exact hname.symm
  · rintro rfl
    exact hall a

theorem reads_lifetime : (listed Lifetime.ofName?).Reads fun a => .string a.name :=
  reads_listed fun _ _ => find?_name_eq_some_iff fun a => by cases a <;> rfl

theorem reads_storage : (listed Storage.ofName?).Reads fun a => .string a.name :=
  reads_listed fun _ _ => find?_name_eq_some_iff fun a => by cases a <;> rfl

theorem reads_actionKind : (listed ActionKind.ofName?).Reads fun a => .string a.name :=
  reads_listed fun _ _ => find?_name_eq_some_iff fun a => by cases a <;> rfl

/-- A value that is read, and written again as the same. -/
def Settled {α : Type} (read : Decoder α) (write : α → Value) (v : Value) : Prop :=
  ∃ a, read v = .ok a ∧ write a = v

theorem exists_of_settled {α : Type} {read : Decoder α} {write : α → Value} {as : List α}
    (h : ∀ a ∈ as, Settled read write (write a)) :
    ∃ bs, List.Forall₂ (fun v b => read v = .ok b) (as.map write) bs ∧
      bs.map write = as.map write := by
  induction as with
  | nil => exact ⟨[], .nil, rfl⟩
  | cons a as ih =>
    obtain ⟨b, hread, hwrite⟩ := h a List.mem_cons_self
    obtain ⟨bs, hreads, hwrites⟩ := ih fun c hc => h c (List.mem_cons_of_mem a hc)
    exact ⟨b :: bs, .cons hread hreads, by rw [List.map_cons, hwrite, hwrites, List.map_cons]⟩

/-- Each of the things that are read is read from something. -/
theorem exists_of_mem_read {α : Type} {read : Decoder α} {vs : List Value} {as : List α}
    (h : List.Forall₂ (fun v a => read v = .ok a) vs as) {a : α} (ha : a ∈ as) :
    ∃ v, read v = .ok a := by
  have hboth : List.Forall₂ (fun a v => (∃ w, read w = .ok a) ∧ read v = .ok a) as vs :=
    h.flip.imp fun a v hv => ⟨⟨v, hv⟩, hv⟩
  exact ((List.forall₂_and_left as vs).1 hboth).1 a ha

/-- The first member of a name that is not empty. -/
def Fields.given? (fs : Fields Value) (name : String) : Option Value :=
  Fields.get? (fs.filter (·.2.truthy)) name

theorem Fields.truthy_of_given? {fs : Fields Value} {name : String} {v : Value}
    (h : fs.given? name = some v) : v.truthy = true :=
  (List.mem_filter.1 (Fields.mem_of_get? h)).2

theorem Fields.given?_present_cons (name other : String) (v : Option Value)
    (fs : List (String × Option Value)) :
    given? (present ((name, v) :: fs)) other =
      if name = other then (v.filter Value.truthy).or (given? (present fs) other)
      else given? (present fs) other := by
  cases v with
  | none => simp [present]
  | some v => cases hv : v.truthy <;> simp [given?, present, get?, hv, Option.filter]

@[simp] theorem Fields.given?_present_nil (name : String) :
    given? (present ([] : List (String × Option Value))) name = none := rfl

theorem get?_withoutEmpty (fs : Fields Value) (name : String) :
    (withoutEmpty [name] fs).get? name = fs.given? name := by
  induction fs with
  | nil => rfl
  | cons f fs ih =>
    obtain ⟨other, v⟩ := f
    unfold withoutEmpty Fields.given? at ih ⊢
    by_cases hname : other = name <;> cases hv : v.truthy <;>
      simp_all [Fields.get?]

theorem value?_withoutEmpty (fs : Fields Value) (name : String) :
    Label.value? name (withoutEmpty [name] fs) = fs.given? name := by
  rw [Label.value?_eq, get?_withoutEmpty]
  simp

end Scenario


namespace Scenario

abbrev Fields (α : Type) := List (String × α)

namespace Fields

variable {α β : Type}

def get? : Fields α → String → Option α
  | [], _ => none
  | (k, v) :: rest, key => if k = key then some v else get? rest key

def has (fs : Fields α) (key : String) : Bool := fs.any (·.1 == key)

def keys (fs : Fields α) : List String := fs.map (·.1)

/-- Assigns a member: in place if the name is there, else at the end. -/
def put : Fields α → String → α → Fields α
  | [], key, value => [(key, value)]
  | (k, v) :: rest, key, value =>
    if k = key then (key, value) :: rest else (k, v) :: put rest key value

/-- Assigns the members of the second record to the first, in order. -/
def overlay (fs gs : Fields α) : Fields α := gs.foldl (fun acc g => acc.put g.1 g.2) fs

/-- The record that a list of assignments leaves. -/
def ofAssignments (gs : List (String × α)) : Fields α := overlay [] gs

def present (fs : List (String × Option α)) : Fields α :=
  fs.filterMap fun f => f.2.map fun v => (f.1, v)

theorem get?_put (fs : Fields α) (key other : String) (value : α) :
    (fs.put key value).get? other = if key = other then some value else fs.get? other := by
  induction fs with
  | nil => simp [put, get?]
  | cons f rest ih =>
    obtain ⟨k, v⟩ := f
    by_cases hk : k = key <;> by_cases h : key = other <;> by_cases ho : k = other <;>
      simp_all [put, get?]

theorem mem_put {fs : Fields α} {f : String × α} {key : String} {value : α}
    (h : f ∈ fs.put key value) : f = (key, value) ∨ f ∈ fs := by
  induction fs with
  | nil => exact .inl (List.mem_singleton.1 h)
  | cons g rest ih =>
    rw [put] at h
    split at h
    · rcases List.mem_cons.1 h with h | h
      · exact .inl h
      · exact .inr (List.mem_cons_of_mem g h)
    · rcases List.mem_cons.1 h with h | h
      · exact .inr (h ▸ List.mem_cons_self)
      · exact (ih h).imp_right (List.mem_cons_of_mem g)

theorem mem_of_get? {fs : Fields α} {key : String} {value : α} (h : fs.get? key = some value) :
    (key, value) ∈ fs := by
  induction fs with
  | nil => cases h
  | cons g rest ih =>
    obtain ⟨k, v⟩ := g
    rw [get?] at h
    split at h
    · rename_i hk
      cases h
      rw [hk]
      exact List.mem_cons_self
    · exact List.mem_cons_of_mem _ (ih h)

theorem keys_put (fs : Fields α) (key : String) (value : α) :
    (fs.put key value).keys = if key ∈ fs.keys then fs.keys else fs.keys ++ [key] := by
  induction fs with
  | nil => simp [put, keys]
  | cons f rest ih =>
    obtain ⟨k, v⟩ := f
    by_cases hk : k = key
    · subst hk; simp [put, keys]
    · have hk' : ¬key = k := fun h => hk h.symm
      have ih : List.map (·.1) (put rest key value) = _ := ih
      by_cases hm : key ∈ keys rest <;> simp_all [put, keys]

theorem get?_eq_none_iff {fs : Fields α} {key : String} : fs.get? key = none ↔ key ∉ fs.keys := by
  induction fs with
  | nil => simp [get?, keys]
  | cons f rest ih =>
    obtain ⟨k, v⟩ := f
    by_cases hk : k = key
    · simp [get?, keys, hk]
    · have hk' : ¬key = k := fun h => hk h.symm
      simpa [get?, keys, hk, hk'] using ih

theorem nodup_keys_put {fs : Fields α} (h : fs.keys.Nodup) (key : String) (value : α) :
    (fs.put key value).keys.Nodup := by
  rw [keys_put]
  split
  · exact h
  · rename_i hk
    exact List.nodup_append.2 ⟨h, by simp, by
      intro a ha b hb hab
      rw [List.mem_singleton] at hb
      exact hk (hb ▸ hab ▸ ha)⟩

/-- Assigning members of different names, each of them is the one that is assigned last. -/
theorem get?_overlay {gs : Fields α} (h : gs.keys.Nodup) (fs : Fields α) (key : String) :
    (fs.overlay gs).get? key = (gs.get? key).or (fs.get? key) := by
  induction gs generalizing fs with
  | nil => rfl
  | cons g rest ih =>
    obtain ⟨k, v⟩ := g
    obtain ⟨hk, hrest⟩ := List.nodup_cons.1 h
    change ((fs.put k v).overlay rest).get? key = _
    rw [ih hrest, get?_put]
    by_cases hkey : k = key
    · subst hkey
      simp [get?, get?_eq_none_iff.2 hk]
    · simp [get?, hkey]

theorem put_of_not_mem {fs : Fields α} {key : String} (h : key ∉ fs.keys) (value : α) :
    fs.put key value = fs ++ [(key, value)] := by
  induction fs with
  | nil => rfl
  | cons f rest ih =>
    obtain ⟨k, v⟩ := f
    have hk : ¬k = key ∧ key ∉ keys rest := by
      simpa [keys, eq_comm, not_or] using h
    simp [put, hk.1, ih hk.2]

theorem overlay_eq_append {fs gs : Fields α} (h : (fs ++ gs).keys.Nodup) :
    fs.overlay gs = fs ++ gs := by
  induction gs generalizing fs with
  | nil => simp [overlay]
  | cons g rest ih =>
    have hg : g.1 ∉ fs.keys := by
      intro hmem
      rw [keys, List.map_append] at h
      exact (List.nodup_append.1 h).2.2 g.1 hmem g.1 (by simp) rfl
    change (fs.put g.1 g.2).overlay rest = _
    rw [put_of_not_mem hg, ih (by simpa using h)]
    simp

def mapValues (f : α → β) (fs : Fields α) : Fields β :=
  List.map (fun (k, v) => (k, f v)) fs

@[simp] theorem get?_mapValues (f : α → β) (fs : Fields α) (key : String) :
    (fs.mapValues f).get? key = (fs.get? key).map f := by
  induction fs with
  | nil => rfl
  | cons g rest ih =>
    change (if g.1 = key then some (f g.2) else get? (mapValues f rest) key) =
      (if g.1 = key then some g.2 else get? rest key).map f
    split
    · rfl
    · exact ih

theorem put_mapValues (f : α → β) (fs : Fields α) (key : String) (value : α) :
    (fs.mapValues f).put key (f value) = (fs.put key value).mapValues f := by
  induction fs with
  | nil => rfl
  | cons g rest ih =>
    change (if g.1 = key then (key, f value) :: mapValues f rest
      else (g.1, f g.2) :: put (mapValues f rest) key (f value)) =
        mapValues f (if g.1 = key then (key, value) :: rest else (g.1, g.2) :: put rest key value)
    split
    · rfl
    · rw [ih]
      rfl

@[simp] theorem keys_mapValues (f : α → β) (fs : Fields α) :
    (fs.mapValues f).keys = fs.keys := by
  simp [keys, mapValues]

end Fields

end Scenario

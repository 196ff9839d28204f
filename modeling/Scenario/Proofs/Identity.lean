import Mathlib.Data.List.Perm.Basic
import Scenario.Extraction
import Scenario.Proofs.Likeness

namespace Scenario

open Syntax

section Separated

variable {α : Type} {x : α} {as as' bs bs' : List α}

theorem eq_of_append_cons_left (h : as ++ x :: bs = as' ++ x :: bs') (ha : x ∉ as) (ha' : x ∉ as') :
    as = as' ∧ bs = bs' := by
  obtain ⟨cs, hc, hb⟩ | ⟨cs, hc, hb⟩ := List.append_eq_append_iff.1 h
  · cases cs with
    | nil => simp_all
    | cons c cs =>
      obtain ⟨rfl, -⟩ := List.cons.inj hb
      exact absurd (by simp [hc]) ha'
  · cases cs with
    | nil => simp_all
    | cons c cs =>
      obtain ⟨rfl, -⟩ := List.cons.inj hb
      exact absurd (by simp [hc]) ha

theorem eq_of_append_cons_right (h : as ++ x :: bs = as' ++ x :: bs') (hb : x ∉ bs)
    (hb' : x ∉ bs') : as = as' ∧ bs = bs' := by
  have hr : bs.reverse ++ x :: as.reverse = bs'.reverse ++ x :: as'.reverse := by
    simpa using congrArg List.reverse h
  obtain ⟨hbs, has⟩ := eq_of_append_cons_left hr (by simpa using hb) (by simpa using hb')
  exact ⟨List.reverse_injective has, List.reverse_injective hbs⟩

end Separated

namespace Number

theorem toList_decimal_natCast (n : Nat) : (decimal n).toList = Nat.toDigits 10 n := by
  simp [decimal, Int.not_lt.2 (Int.natCast_nonneg n)]

theorem not_mem_decimal_natCast {c : Char} (hc : c.isDigit = false) (n : Nat) :
    c ∉ (decimal n).toList := by
  intro h
  rw [toList_decimal_natCast] at h
  have hdigit := Nat.isDigit_of_mem_toDigits (by decide) (by decide) h
  rw [hc] at hdigit
  cases hdigit

theorem decimal_natCast_injective {m n : Nat}
    (h : (decimal m).toList = (decimal n).toList) : m = n := by
  rw [toList_decimal_natCast, toList_decimal_natCast] at h
  calc
    m = Nat.ofDigitChars 10 (Nat.toDigits 10 m) 0 := Nat.ofDigitChars_ten_toDigits.symm
    _ = Nat.ofDigitChars 10 (Nat.toDigits 10 n) 0 := by rw [h]
    _ = n := Nat.ofDigitChars_ten_toDigits

end Number

namespace Ticket

/-- The character between the texts that name an action. -/
def separator : Char := '\x1f'

/-- The tickets that are issued: their texts are without the separator but for the key path, which
may be any. -/
structure IsPlain (t : Ticket) : Prop where
  scope : separator ∉ t.scope.toList
  storage : separator ∉ t.storage.toList
  operation : separator ∉ t.operation.toList
  ordinal : 0 ≤ t.ordinal

theorem toList_payload (t : Ticket) :
    t.payload.toList = t.scope.toList ++ separator :: (t.storage.toList ++ separator ::
      (t.operation.toList ++ separator :: (t.keyPath.toList ++ separator ::
        (Number.decimal t.ordinal).toList))) := by
  have hsep : "\x1f".toList = [separator] := rfl
  simp [payload, signature, hsep]

/-- The key path is what is left when the other texts are taken off on both sides. -/
theorem eq_of_payload_eq {t u : Ticket} (ht : t.IsPlain) (hu : u.IsPlain)
    (h : t.payload = u.payload) : t = u := by
  have hlist := congrArg String.toList h
  rw [toList_payload, toList_payload] at hlist
  obtain ⟨hscope, hlist⟩ := eq_of_append_cons_left hlist ht.scope hu.scope
  obtain ⟨hstorage, hlist⟩ := eq_of_append_cons_left hlist ht.storage hu.storage
  obtain ⟨hoperation, hlist⟩ := eq_of_append_cons_left hlist ht.operation hu.operation
  obtain ⟨m, hm⟩ := Int.eq_ofNat_of_zero_le ht.ordinal
  obtain ⟨n, hn⟩ := Int.eq_ofNat_of_zero_le hu.ordinal
  rw [hm, hn] at hlist
  obtain ⟨hpath, hdigits⟩ := eq_of_append_cons_right hlist
    (Number.not_mem_decimal_natCast (by decide) m) (Number.not_mem_decimal_natCast (by decide) n)
  have hordinal : t.ordinal = u.ordinal := by
    rw [hm, hn, Number.decimal_natCast_injective hdigits]
  cases t
  cases u
  simp_all [String.toList_inj]

/-- The digits of the digest that go into an identifier. -/
def digest (t : Ticket) : List Char := (Sha256.hex t.payload.toUTF8.toList).take 12

end Ticket

theorem Text.length_hexDigits {width n : Nat} (h : (Nat.toDigits 16 n).length ≤ width) :
    (Text.hexDigits width n).length = width := by
  simp [Text.hexDigits]
  omega

theorem Sha256.length_hex (message : List UInt8) : (Sha256.hex message).length = 64 := by
  have hword (w : UInt32) : (Text.hexDigits 8 w.toNat).length = 8 :=
    Text.length_hexDigits ((Nat.length_toDigits_le_iff (by decide) (by decide)).2 w.toNat_lt)
  have hwords (s : State) : (s.words.flatMap fun w => Text.hexDigits 8 w.toNat).length = 64 := by
    simp [State.words, hword]
  exact hwords _

namespace Ticket

theorem length_digest (t : Ticket) : t.digest.length = 12 := by
  simp [digest, Sha256.length_hex]

theorem digest_eq_of_id_eq {t u : Ticket} (h : t.id = u.id) : t.digest = u.digest := by
  have hlist := String.ofList_injective h
  have hlen : t.digest.length = u.digest.length := by rw [length_digest, length_digest]
  have htail := (List.append_inj' hlist (congrArg (· + 1) hlen)).2
  exact (List.cons.inj htail).2

end Ticket

namespace Action

variable {ι : Type}

mutual

/-- The actions of which an action consists at any depth, itself included. -/
def occurrences : Action ι → List (Action ι)
  | ⟨id, kind, scope, storage, keyPath, value, actions⟩ =>
    ⟨id, kind, scope, storage, keyPath, value, actions⟩ :: occurrencesSlot actions

def occurrencesSlot : Slot (List (Action ι)) → List (Action ι)
  | .unset => []
  | .null => []
  | .set actions => occurrencesAll actions

def occurrencesAll : List (Action ι) → List (Action ι)
  | [] => []
  | a :: more => occurrences a ++ occurrencesAll more

end

@[simp] theorem occurrencesAll_nil : occurrencesAll ([] : List (Action ι)) = [] := by
  rw [occurrencesAll]

@[simp] theorem occurrencesAll_cons (a : Action ι) (as : List (Action ι)) :
    occurrencesAll (a :: as) = a.occurrences ++ occurrencesAll as := by
  rw [occurrencesAll]

@[simp] theorem occurrencesAll_append (as bs : List (Action ι)) :
    occurrencesAll (as ++ bs) = occurrencesAll as ++ occurrencesAll bs := by
  induction as with
  | nil => simp
  | cons a as ih => simp [ih]

theorem occurrencesAll_flatten (ass : List (List (Action ι))) :
    occurrencesAll ass.flatten = ass.flatMap occurrencesAll := by
  induction ass with
  | nil => simp
  | cons as more ih => rw [List.flatten_cons, occurrencesAll_append, ih, List.flatMap_cons]

theorem occurrences_of_unset {a : Action ι} (h : a.actions = .unset) : a.occurrences = [a] := by
  cases a
  simp_all [occurrences, occurrencesSlot]

theorem occurrences_of_set {a : Action ι} {as : List (Action ι)} (h : a.actions = .set as) :
    a.occurrences = a :: occurrencesAll as := by
  cases a
  simp_all [occurrences, occurrencesSlot]

/-- The identifiers of an action and of all actions in it. -/
def ids (a : Action ι) : List ι := a.occurrences.map (·.id)

def idsAll (as : List (Action ι)) : List ι := (occurrencesAll as).map (·.id)

@[simp] theorem idsAll_nil : idsAll ([] : List (Action ι)) = [] := by simp [idsAll]

@[simp] theorem idsAll_cons (a : Action ι) (as : List (Action ι)) :
    idsAll (a :: as) = a.ids ++ idsAll as := by
  simp [idsAll, ids]

@[simp] theorem idsAll_append (as bs : List (Action ι)) :
    idsAll (as ++ bs) = idsAll as ++ idsAll bs := by
  simp [idsAll]

theorem ids_of_unset {a : Action ι} (h : a.actions = .unset) : a.ids = [a.id] := by
  rw [ids, occurrences_of_unset h, List.map_singleton]

theorem ids_of_set {a : Action ι} {as : List (Action ι)} (h : a.actions = .set as) :
    a.ids = a.id :: idsAll as := by
  rw [ids, occurrences_of_set h, List.map_cons, idsAll]

end Action

theorem ActionKind.separator_not_mem_name (k : ActionKind) : Ticket.separator ∉ k.name.toList := by
  cases k <;> decide

theorem Lifetime.separator_not_mem_name (l : Lifetime) : Ticket.separator ∉ l.name.toList := by
  cases l <;> decide

theorem Storage.separator_not_mem_name (s : Storage) : Ticket.separator ∉ s.name.toList := by
  cases s <;> decide

/-- Between two states of progress, tickets are issued once each, and each with a number that its
signature comes to in between. -/
structure Issues (p q : Progress) (ts : List Ticket) : Prop where
  count_le (g : Signature) : p.ordinals.count g ≤ q.ordinals.count g
  nodup : ts.Nodup
  plain : ∀ t ∈ ts, t.IsPlain
  from_le : ∀ t ∈ ts, (p.ordinals.count t.signature : Int) ≤ t.ordinal
  lt_until : ∀ t ∈ ts, t.ordinal < (q.ordinals.count t.signature : Int)

namespace Issues

variable {p q r : Progress} {ts us : List Ticket}

theorem none (h : q.ordinals = p.ordinals) : Issues p q [] where
  count_le g := by simp [h]
  nodup := List.nodup_nil
  plain := by simp
  from_le := by simp
  lt_until := by simp

theorem lose (h : Issues p q ts) : Issues p q [] where
  count_le := h.count_le
  nodup := List.nodup_nil
  plain := by simp
  from_le := by simp
  lt_until := by simp

theorem perm (h : Issues p q ts) (hp : ts.Perm us) : Issues p q us where
  count_le := h.count_le
  nodup := hp.nodup_iff.1 h.nodup
  plain t ht := h.plain t (hp.mem_iff.2 ht)
  from_le t ht := h.from_le t (hp.mem_iff.2 ht)
  lt_until t ht := h.lt_until t (hp.mem_iff.2 ht)

/-- What is issued later has a higher number, or another signature. -/
theorem append (h : Issues p q ts) (h' : Issues q r us) : Issues p r (ts ++ us) where
  count_le g := Nat.le_trans (h.count_le g) (h'.count_le g)
  nodup := by
    refine List.nodup_append.2 ⟨h.nodup, h'.nodup, ?_⟩
    rintro t ht _ hu rfl
    have hlt := h.lt_until t ht
    have hle := h'.from_le t hu
    omega
  plain := List.forall_mem_append.2 ⟨h.plain, h'.plain⟩
  from_le t ht := by
    rcases List.mem_append.1 ht with ht | ht
    · exact h.from_le t ht
    · have hle := h.count_le t.signature
      have hfrom := h'.from_le t ht
      omega
  lt_until t ht := by
    rcases List.mem_append.1 ht with ht | ht
    · have hle := h'.count_le t.signature
      have hlt := h.lt_until t ht
      omega
    · exact h'.lt_until t ht

theorem ticket (kind : ActionKind) {scope storage : String} (keyPath : String) (p : Progress)
    (hscope : Ticket.separator ∉ scope.toList) (hstorage : Ticket.separator ∉ storage.toList) :
    Issues p ((Collect.ticket kind scope storage keyPath).outcome p).2
      [((Collect.ticket kind scope storage keyPath).outcome p).1] where
  count_le g := by
    change _ ≤ (p.ordinals.add _).count g
    rw [Ordinals.count_add]
    split <;> omega
  nodup := by simp
  plain := by
    refine List.forall_mem_singleton.2 ⟨hscope, hstorage, kind.separator_not_mem_name, ?_⟩
    exact Int.natCast_nonneg _
  from_le := List.forall_mem_singleton.2 (Int.le_refl _)
  lt_until := by
    let g : Signature := [scope, storage, kind.name, keyPath]
    have hcount : (p.ordinals.add g).count g = p.ordinals.count g + 1 := by
      rw [Ordinals.count_add, if_pos rfl]
    refine List.forall_mem_singleton.2 ?_
    change (p.ordinals.count g : Int) < ((p.ordinals.add g).count g : Nat)
    omega

end Issues

section Making

open Scenario.Action

variable {p q : Progress} {as bs : List Act} {w : List Ticket}

/-- An action that is made of others, in front of further tickets. -/
theorem Issues.compose {kind : ActionKind} {scope storage keyPath : String}
    (hscope : Ticket.separator ∉ scope.toList) (hstorage : Ticket.separator ∉ storage.toList)
    (h : Issues p q (idsAll as ++ w)) {a : Act} (ha : a.actions = .set as)
    (hid : a.id = ((Collect.ticket kind scope storage keyPath).outcome q).1) :
    Issues p ((Collect.ticket kind scope storage keyPath).outcome q).2 (a.ids ++ w) := by
  have hall := h.append (.ticket kind keyPath q hscope hstorage)
  rw [ids_of_set ha, hid]
  exact hall.perm List.perm_append_comm

theorem Issues.whole {kind : ActionKind} {scope storage keyPath : String}
    (hscope : Ticket.separator ∉ scope.toList) (hstorage : Ticket.separator ∉ storage.toList)
    (h : Issues p q (idsAll as)) {a : Act} (ha : a.actions = .set as)
    (hid : a.id = ((Collect.ticket kind scope storage keyPath).outcome q).1) :
    Issues p ((Collect.ticket kind scope storage keyPath).outcome q).2 a.ids := by
  have hall := Issues.compose (w := []) hscope hstorage (by rwa [List.append_nil]) ha hid
  rwa [List.append_nil] at hall

theorem issues_mutation {kind : ActionKind} {value : Option Value} (store : Store) (path : String) :
    Issues p ((Act.mutation kind store path value).outcome p).2
      (idsAll [((Act.mutation kind store path value).outcome p).1]) := by
  have hids : ((Act.mutation kind store path value).outcome p).1.ids =
      [((Act.mutation kind store path value).outcome p).1.id] := ids_of_unset rfl
  rw [idsAll_cons, idsAll_nil, List.append_nil, hids]
  exact .ticket kind path p store.scope.separator_not_mem_name store.storage.separator_not_mem_name

theorem issues_effect (kind : ActionKind) (payload : Fields Value) :
    Issues p ((Act.effect kind payload).outcome p).2
      (idsAll [((Act.effect kind payload).outcome p).1]) := by
  have hids : ((Act.effect kind payload).outcome p).1.ids =
      [((Act.effect kind payload).outcome p).1.id] := ids_of_unset rfl
  rw [idsAll_cons, idsAll_nil, List.append_nil, hids]
  exact .ticket kind (Act.discriminator payload) p (by decide) (by decide)

theorem issues_sequence (h : Issues p q (idsAll as ++ w)) :
    Issues p ((Act.sequence as).outcome q).2 (((Act.sequence as).outcome q).1.ids ++ w) :=
  h.compose (by decide) (by decide) rfl rfl

theorem issues_single (h : Issues p q (idsAll as ++ w)) :
    Issues p ((Act.single as).outcome q).2 (((Act.single as).outcome q).1.ids ++ w) := by
  match as, h with
  | [], h => exact issues_sequence h
  | [a], h =>
    rw [idsAll_cons, idsAll_nil, List.append_nil] at h
    exact h
  | a :: b :: more, h => exact issues_sequence h

theorem issues_transaction (store : Store) (h : Issues p q (idsAll as)) :
    Issues p ((Act.transaction store as).outcome q).2
      ((Act.transaction store as).outcome q).1.ids :=
  h.whole store.scope.separator_not_mem_name store.storage.separator_not_mem_name rfl rfl

theorem issues_request (payload : Fields Value) {a b : Act} (h : Issues p q (a.ids ++ b.ids)) :
    Issues p ((Act.request payload a b).outcome q).2
      ((Act.request payload a b).outcome q).1.ids := by
  have hboth : Issues p q (idsAll [a, b]) := by simpa using h
  exact hboth.whole (by decide) (by decide) rfl rfl

theorem issues_conditional (condition : Value) {a : Act} {b : Option Act}
    (h : Issues p q (idsAll (a :: b.toList))) :
    Issues p ((Act.conditional condition a b).outcome q).2
      ((Act.conditional condition a b).outcome q).1.ids :=
  h.whole (by decide) (by decide) rfl rfl

theorem issues_choice (condition : Value) (h : Issues p q (idsAll as ++ idsAll bs)) :
    Issues p ((Act.choice condition as bs).outcome q).2
      ((Act.choice condition as bs).outcome q).1.ids := by
  have hfirst := issues_single h
  cases bs with
  | nil =>
    have hone : Issues p ((Act.single as).outcome q).2
        (idsAll (((Act.single as).outcome q).1 :: (none : Option Act).toList)) := by
      simpa using hfirst
    exact issues_conditional condition hone
  | cons b more =>
    have hsecond := issues_single (hfirst.perm List.perm_append_comm)
    have hboth : Issues p ((Act.single (b :: more)).outcome ((Act.single as).outcome q).2).2
        (idsAll (((Act.single as).outcome q).1 ::
          (some ((Act.single (b :: more)).outcome ((Act.single as).outcome q).2).1).toList)) := by
      simpa using hsecond.perm List.perm_append_comm
    exact issues_conditional condition hboth

theorem issues_branches {branches : List (List Act)}
    (h : Issues p q (branches.flatMap idsAll ++ w)) :
    Issues p ((branches.mapM Act.single).outcome q).2
      (idsAll ((branches.mapM Act.single).outcome q).1 ++ w) := by
  induction branches generalizing q w with
  | nil => exact h
  | cons as more ih =>
    rw [List.flatMap_cons, List.append_assoc] at h
    have hfirst := issues_single h
    -- The action of the first branch waits behind the other branches until these are made.
    have hmore := ih (w := w ++ ((Act.single as).outcome q).1.ids)
      (hfirst.perm (List.perm_iff_count.2 fun t => by simp only [List.count_append]; omega))
    rw [List.mapM_cons, Collect.outcome_bind, Collect.outcome_bind, Collect.outcome_pure,
      idsAll_cons]
    exact hmore.perm (List.perm_iff_count.2 fun t => by simp only [List.count_append]; omega)

theorem issues_switch (d : Value) (tests : List Value) (h : Issues p q (idsAll as)) :
    Issues p ((Act.switch d tests as).outcome q).2 ((Act.switch d tests as).outcome q).1.ids :=
  h.whole (by decide) (by decide) rfl rfl

theorem issues_selection (d : Value) (tests : List Value) {branches : List (List Act)}
    (h : Issues p q (branches.flatMap idsAll)) :
    Issues p ((Act.selection d tests branches).outcome q).2
      ((Act.selection d tests branches).outcome q).1.ids := by
  have hbranches := issues_branches (w := []) (by rwa [List.append_nil])
  rw [List.append_nil] at hbranches
  exact issues_switch d tests hbranches

end Making

namespace Likeness

open Scenario.Action

/-- A run with itself, where the tickets of what it makes are issued in it. -/
def issuing : Likeness where
  start := Eq
  made x x' := x = x' ∧ Issues x.before x.after (idsAll x.result)
  changed _ x x' := x = x' ∧ Issues x.before x.after (idsAll x.result)
  called x x' := x = x' ∧ Issues x.before x.after x.result.ids

theorem issuing_append {p p' q q' r r' : Progress} {as as' bs bs' : List Act}
    (ha : issuing.made ⟨p, as, q⟩ ⟨p', as', q'⟩) (hb : issuing.made ⟨q, bs, r⟩ ⟨q', bs', r'⟩) :
    issuing.made ⟨p, as ++ bs, r⟩ ⟨p', as' ++ bs', r'⟩ := by
  obtain ⟨hx, ha⟩ := ha
  obtain ⟨hy, hb⟩ := hb
  cases hx
  cases hy
  refine ⟨rfl, ?_⟩
  change Issues p r (idsAll (as ++ bs))
  rw [idsAll_append]
  exact ha.append hb

theorem Branches.of_issuing {x x' : Run (List (List Act))} (h : issuing.Branches x x') :
    x = x' ∧ Issues x.before x.after (x.result.flatMap idsAll) := by
  induction h with
  | nil hs =>
    cases hs
    exact ⟨rfl, .none rfl⟩
  | cons hm _ ih =>
    obtain ⟨hx, ha⟩ := hm
    obtain ⟨hy, hb⟩ := ih
    cases hx
    cases hy
    exact ⟨rfl, ha.append hb⟩

theorem issuing_one {p q : Progress} {a : Act} (h : Issues p q a.ids) :
    issuing.made ⟨p, [a], q⟩ ⟨p, [a], q⟩ := by
  refine ⟨rfl, ?_⟩
  change Issues p q (idsAll [a])
  rwa [idsAll_cons, idsAll_nil, List.append_nil]

theorem lawful_issuing : issuing.Lawful where
  next hm := by rw [hm.1]; rfl
  length_eq hm := by rw [hm.1]
  nil hp := by
    cases hp
    exact ⟨rfl, .none rfl⟩
  append := issuing_append
  lose hm := ⟨by rw [hm.1], hm.2.lose⟩
  report r hp := by
    cases hp
    exact ⟨rfl, .none rfl⟩
  unchanged store hp := by
    cases hp
    exact ⟨rfl, .none rfl⟩
  change := issuing_append
  made_of_changed hc := hc
  mutation store path _ hp := by
    cases hp
    exact ⟨rfl, issues_mutation store path⟩
  transaction _ hc := by
    obtain ⟨hx, ht⟩ := hc
    cases hx
    exact issuing_one (issues_transaction _ ht)
  effect payload _ hp := by
    cases hp
    exact ⟨rfl, issues_effect _ payload⟩
  handler _ hm := by
    obtain ⟨hx, ht⟩ := hm
    cases hx
    have hall := issues_single (w := []) (by rwa [List.append_nil])
    exact issuing_one (by rwa [List.append_nil] at hall)
  sequence hm := by
    obtain ⟨hx, ht⟩ := hm
    cases hx
    have hall := issues_sequence (w := []) (by rwa [List.append_nil])
    exact ⟨rfl, by rwa [List.append_nil] at hall⟩
  behind hc := ⟨by rw [hc.1], hc.2.lose⟩
  request _ ha hb := by
    obtain ⟨hx, hs⟩ := ha
    obtain ⟨hy, he⟩ := hb
    cases hx
    cases hy
    exact issuing_one (issues_request _ (hs.append he))
  choice c ha hb := by
    obtain ⟨hx, ha⟩ := ha
    obtain ⟨hy, hb⟩ := hb
    cases hx
    cases hy
    exact issuing_one (issues_choice c.toValue (ha.append hb))
  selection d _ hb := by
    obtain ⟨hx, ht⟩ := hb.of_issuing
    cases hx
    exact issuing_one (issues_selection d _ ht)

end Likeness

open Scenario.Action

/-- No two actions of a program, at any depth, are named by the same text. So their identifiers
differ unless the digests of two texts do not. -/
theorem pairwise_payload_ne (options : Options) (body : List Node) :
    (occurrencesAll (extract options body).parts.actions).Pairwise fun a b =>
      a.id.payload ≠ b.id.payload ∧ (a.id.digest ≠ b.id.digest → a.id.id ≠ b.id.id) := by
  obtain ⟨-, h⟩ := Likeness.lawful_issuing.everywhere.walkAll (Scope.module.hoist body) body
    ((declareAllStores body).outcome {}).2 _ rfl
  have hnodup := List.pairwise_map.1 h.nodup
  refine hnodup.imp_of_mem ?_
  intro a b ha hb hne
  constructor
  · intro hpayload
    have hplain {c : Act} (hc : c ∈ occurrencesAll (extract options body).parts.actions) :
        c.id.IsPlain := h.plain c.id (List.mem_map_of_mem hc)
    exact hne (Ticket.eq_of_payload_eq (hplain ha) (hplain hb) hpayload)
  · intro hdigest hid
    exact hdigest (Ticket.digest_eq_of_id_eq hid)

end Scenario

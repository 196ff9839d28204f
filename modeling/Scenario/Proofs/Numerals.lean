import Mathlib.Data.List.Forall2
import Mathlib.Data.Nat.Digits.Defs
import Mathlib.Tactic.FieldSimp
import Scenario.Proofs.Escaping
import Scenario.Proofs.Rounding
import Scenario.Syntax.Numeral

namespace Scenario.Syntax.Numeral

/-- A digit of a base, in either case. -/
def IsDigit (base v : Nat) (c : Char) : Prop := v < base ∧ IsHexDigit v c

instance (base v : Nat) (c : Char) : Decidable (IsDigit base v c) :=
  inferInstanceAs (Decidable (_ ∧ (_ ∨ _)))

/-- Digits of a base by their values, at least one. -/
structure Digits (base : Nat) (values : List Nat) (digits : List Char) : Prop where
  ne_nil : values ≠ []
  spelled : List.Forall₂ (IsDigit base) values digits

/-- The number that has digits of the given values, the highest place first. -/
def positional (base : Nat) (values : List Nat) : Nat := Nat.ofDigits base values.reverse

/-- The letters behind a zero that name a base. -/
def baseLetters : List (Char × Nat) :=
  [('x', 16), ('X', 16), ('o', 8), ('O', 8), ('b', 2), ('B', 2)]

/-- What stands in front of the point: a single zero, or digits of which the first is no zero. -/
inductive Whole : ℚ → List Char → Prop where
  | zero : Whole 0 ['0']
  | digits {values : List Nat} {digits : List Char} : Digits 10 values digits →
    digits.head? ≠ some '0' → Whole (positional 10 values) digits

/-- The point and what stands behind it, which may all be left out. -/
inductive Fraction : ℚ → List Char → Prop where
  | none : Fraction 0 []
  | point : Fraction 0 ['.']
  | places {values : List Nat} {digits : List Char} : Digits 10 values digits →
    Fraction (positional 10 values / 10 ^ values.length) ('.' :: digits)

/-- The exponent of a power of ten, which may be left out. -/
inductive Exponent : Int → List Char → Prop where
  | none : Exponent 0 []
  | unsigned {e : Char} {values : List Nat} {digits : List Char} : e ∈ ['e', 'E'] →
    Digits 10 values digits → Exponent (positional 10 values) (e :: digits)
  | positive {e : Char} {values : List Nat} {digits : List Char} : e ∈ ['e', 'E'] →
    Digits 10 values digits → Exponent (positional 10 values) (e :: '+' :: digits)
  | negative {e : Char} {values : List Nat} {digits : List Char} : e ∈ ['e', 'E'] →
    Digits 10 values digits → Exponent (-positional 10 values) (e :: '-' :: digits)

/-- Decimal numerals with their exact values. -/
inductive Decimal : ℚ → List Char → Prop where
  | whole {w f : ℚ} {e : Int} {whole fraction exponent : List Char} : Whole w whole →
    Fraction f fraction → Exponent e exponent →
    Decimal ((w + f) * 10 ^ e) (whole ++ fraction ++ exponent)
  | places {values : List Nat} {e : Int} {digits exponent : List Char} : Digits 10 values digits →
    Exponent e exponent →
    Decimal (positional 10 values / 10 ^ values.length * 10 ^ e) ('.' :: digits ++ exponent)

/-- A text with any number of separators between any two digits. -/
inductive Separated (base : Nat) : List Char → List Char → Prop where
  | nil : Separated base [] []
  | cons {c : Char} {text cs : List Char} : Separated base text cs →
    Separated base (c :: text) (c :: cs)
  | between {c d : Char} {v w : Nat} {text cs : List Char} (count : Nat) : IsDigit base v c →
    IsDigit base w d → Separated base (d :: text) cs →
    Separated base (c :: d :: text) (c :: List.replicate count '_' ++ cs)

/-- The numerals that spell a natural number. -/
inductive Spells : Nat → List Char → Prop where
  | inBase {letter : Char} {base : Nat} {values : List Nat} {digits cs : List Char} :
    (letter, base) ∈ baseLetters → Digits base values digits → Separated base digits cs →
    Spells (positional base values) ('0' :: letter :: cs)
  | octal {values : List Nat} {digits cs : List Char} : Digits 8 values digits →
    Separated 8 ('0' :: digits) cs → Spells (positional 8 values) cs
  | decimal {n : Nat} {text cs : List Char} : Decimal n text → Separated 10 text cs → Spells n cs

/-- The characters that are read as they stand: they are no blanks, separators or marks of big integers. -/
def IsPlain (c : Char) : Prop := c.toNat < 0x80 ∧ isSpace c = false ∧ c ≠ '_' ∧ c ≠ 'n'

instance (c : Char) : Decidable (IsPlain c) := inferInstanceAs (Decidable (_ ∧ _))

/-- The characters that neither a sign nor a word starts with. -/
def IsStart (c : Char) : Prop := c ≠ '-' ∧ c ≠ '+' ∧ c.toLower ≠ 'i' ∧ c.toLower ≠ 'n'

instance (c : Char) : Decidable (IsStart c) := inferInstanceAs (Decidable (_ ∧ _))

theorem isPlain_of_isHexDigit {v : Nat} {c : Char} (h : IsHexDigit v c) : IsPlain c :=
  of_isHexDigit (P := fun _ c => IsPlain c) (by decide) (by decide) h

theorem isStart_of_isHexDigit {v : Nat} {c : Char} (h : IsHexDigit v c) : IsStart c :=
  of_isHexDigit (P := fun _ c => IsStart c) (by decide) (by decide) h

theorem digitValue?_of_isDigit {base v : Nat} {c : Char} (h : IsDigit base v c) :
    (digitValue? c).filter (· < base) = some v := by
  have hvalue : digitValue? c = some v :=
    of_isHexDigit (P := fun v c => digitValue? c = some v) (by decide) (by decide) h.2
  simp [hvalue, h.1]

/-- The only digits that are letters of a base stand for 11, which is no digit of that base. -/
theorem prefixBase?_of_isDigit {base v : Nat} {c : Char} (h : IsDigit base v c) :
    prefixBase? c ≠ some base := by
  have hletter : prefixBase? c = none ∨ prefixBase? c = some 2 ∧ v = 11 :=
    of_isHexDigit (P := fun v c => prefixBase? c = none ∨ prefixBase? c = some 2 ∧ v = 11)
      (by decide) (by decide) h.2
  intro hbase
  have hlt := h.1
  rcases hletter with hnone | ⟨hsome, rfl⟩
  · rw [hnone] at hbase
    cases hbase
  · rw [hsome, Option.some.injEq] at hbase
    omega

theorem decimal_of_isDigit {v : Nat} {c : Char} (h : IsDigit 10 v c) :
    Text.decimalValue? c = some v ∧ c.isDigit = true := by
  have hten : v < 10 → Text.decimalValue? c = some v ∧ c.isDigit = true :=
    of_isHexDigit (P := fun v c => v < 10 → Text.decimalValue? c = some v ∧ c.isDigit = true)
      (by decide) (by decide) h.2
  exact hten h.1

theorem octal_of_isDigit {v : Nat} {c : Char} (h : IsDigit 8 v c) :
    isOctal c = true ∧ Text.isDigit c = true ∧ prefixBase? c = none := by
  have height : v < 8 → isOctal c = true ∧ Text.isDigit c = true ∧ prefixBase? c = none :=
    of_isHexDigit
      (P := fun v c => v < 8 → isOctal c = true ∧ Text.isDigit c = true ∧ prefixBase? c = none)
      (by decide) (by decide) h.2
  exact height h.1

variable {base : Nat} {values : List Nat} {digits : List Char}

theorem exists_isDigit (h : List.Forall₂ (IsDigit base) values digits) {c : Char} (hc : c ∈ digits) :
    ∃ v, IsDigit base v c := by
  induction h with
  | nil => cases hc
  | cons hdigit _ ih =>
    rcases List.mem_cons.1 hc with rfl | hc
    · exact ⟨_, hdigit⟩
    · exact ih hc

theorem ofDigits_eq_positional (base : Nat) (values : List Nat) :
    Text.ofDigits base values = positional base values := by
  rw [positional, Nat.ofDigits_eq_foldr, List.foldr_reverse, Text.ofDigits]
  simp only [Nat.cast_id, Nat.add_comm]

theorem positional_append (base : Nat) (values more : List Nat) :
    positional base (values ++ more) =
      positional base values * base ^ more.length + positional base more := by
  rw [positional, List.reverse_append, Nat.ofDigits_append, List.length_reverse, Nat.add_comm,
    Nat.mul_comm]
  rfl

theorem mapM_digitValue? (h : List.Forall₂ (IsDigit base) values digits) :
    digits.mapM (fun c => (digitValue? c).filter (· < base)) = some values := by
  induction h with
  | nil => rfl
  | cons hdigit _ ih => simp [digitValue?_of_isDigit hdigit, ih]

theorem Digits.digits?_eq (h : Digits base values digits) :
    digits? base digits = some (positional base values) := by
  obtain ⟨v, more, rfl⟩ := List.exists_cons_of_ne_nil h.ne_nil
  rw [digits?, mapM_digitValue? h.spelled]
  exact congrArg some (ofDigits_eq_positional base (v :: more))

theorem decimalNumber_eq (h : List.Forall₂ (IsDigit 10) values digits) :
    Text.decimalNumber digits = positional 10 values := by
  have hvalues : digits.filterMap Text.decimalValue? = values := by
    induction h with
    | nil => rfl
    | cons hdigit _ ih => rw [List.filterMap_cons_some (decimal_of_isDigit hdigit).1, ih]
  rw [Text.decimalNumber, hvalues, ofDigits_eq_positional]

theorem Digits.isPlain (h : Digits base values digits) : ∀ c ∈ digits, IsPlain c := by
  intro c hc
  obtain ⟨v, hdigit⟩ := exists_isDigit h.spelled hc
  exact isPlain_of_isHexDigit hdigit.2

/-- Digits start with one. -/
theorem Digits.exists_cons (h : Digits base values digits) :
    ∃ v c more, digits = c :: more ∧ IsDigit base v c := by
  cases h.spelled with
  | nil => exact absurd rfl h.ne_nil
  | cons hdigit _ => exact ⟨_, _, _, rfl, hdigit⟩

theorem dropWhile_isSpace {text : List Char} (h : ∀ c ∈ text, IsPlain c) :
    text.dropWhile isSpace = text := by
  cases text with
  | nil => rfl
  | cons c rest => rw [List.dropWhile_cons, (h c List.mem_cons_self).2.1, if_neg Bool.false_ne_true]

theorem trimmed_of_isPlain {text : List Char} (h : ∀ c ∈ text, IsPlain c) : trimmed text = text := by
  have hascii : text.map toAscii = text := by
    refine (List.map_congr_left fun c hc => ?_).trans text.map_id
    exact if_pos (h c hc).1
  have hreverse : ∀ c ∈ text.reverse, IsPlain c := by
    intro c hc
    exact h c (List.mem_reverse.1 hc)
  rw [trimmed, hascii, dropWhile_isSpace h, dropWhile_isSpace hreverse, List.reverse_reverse]

theorem signed_of_isStart {c : Char} (h : IsStart c) (rest : List Char) :
    signed (c :: rest) = (false, c :: rest) := by
  unfold signed
  split
  · exact absurd (List.cons.inj ‹_›).1 h.1
  · exact absurd (List.cons.inj ‹_›).1 h.2.1
  · rfl

theorem Digits.signed_eq (h : Digits base values digits) : signed digits = (false, digits) := by
  obtain ⟨v, c, more, rfl, hfirst⟩ := h.exists_cons
  exact signed_of_isStart (isStart_of_isHexDigit hfirst.2) more

theorem Digits.integer_eq (h : Digits base values digits) :
    integer base digits = .ok (positional base values) := by
  have hsigned : signed (trimmed digits) = (false, digits) := by
    rw [trimmed_of_isPlain h.isPlain, h.signed_eq]
  have hread (body : List Char) (hbody : body = digits) :
      digits? base body = some (positional base values) := by
    rw [hbody, h.digits?_eq]
  simp only [integer, hsigned, Bool.false_eq_true, if_false]
  rw [hread]
  split
  · rename_i p rest
    obtain ⟨w, hdigit⟩ := exists_isDigit h.spelled (List.mem_cons_of_mem _ List.mem_cons_self)
    exact if_neg (prefixBase?_of_isDigit hdigit)
  · rfl

theorem span_digits {rest : List Char} (h : List.Forall₂ (IsDigit 10) values digits)
    (hrest : ∀ c, rest.head? = some c → c.isDigit = false) :
    (digits ++ rest).takeWhile Char.isDigit = digits ∧
      (digits ++ rest).dropWhile Char.isDigit = rest := by
  induction h with
  | nil =>
    cases rest with
    | nil => exact ⟨rfl, rfl⟩
    | cons c rest => simp [hrest c rfl]
  | cons hdigit _ ih => simp [(decimal_of_isDigit hdigit).2, ih.1, ih.2]

theorem all_isDigit (h : List.Forall₂ (IsDigit 10) values digits) :
    digits.all Char.isDigit = true := by
  rw [List.all_eq_true]
  intro c hc
  obtain ⟨v, hdigit⟩ := exists_isDigit h hc
  exact (decimal_of_isDigit hdigit).2

/-- An exponent is left out, or its letter is followed by a sign and digits. -/
theorem Exponent.eq_nil_or_signed {e : Int} {text : List Char} (h : Exponent e text) :
    text = [] ∧ e = 0 ∨ ∃ letter rest, text = letter :: rest ∧ (letter = 'e' ∨ letter = 'E') ∧
      (signed rest).2 ≠ [] ∧ (signed rest).2.all Char.isDigit = true ∧
      (if (signed rest).1 then -(Text.decimalNumber (signed rest).2 : Int)
        else Text.decimalNumber (signed rest).2) = e := by
  have hne {values : List Nat} {digits : List Char} (h : Digits 10 values digits) : digits ≠ [] := by
    obtain ⟨v, c, more, rfl, -⟩ := h.exists_cons
    exact List.cons_ne_nil c more
  have hletter {letter : Char} (h : letter ∈ ['e', 'E']) : letter = 'e' ∨ letter = 'E' := by
    simpa using h
  cases h with
  | none => exact .inl ⟨rfl, rfl⟩
  | unsigned he hdigits =>
    refine .inr ⟨_, _, rfl, hletter he, ?_⟩
    rw [hdigits.signed_eq]
    exact ⟨hne hdigits, all_isDigit hdigits.spelled,
      congrArg Nat.cast (decimalNumber_eq hdigits.spelled)⟩
  | positive he hdigits =>
    exact .inr ⟨_, _, rfl, hletter he, hne hdigits, all_isDigit hdigits.spelled,
      congrArg Nat.cast (decimalNumber_eq hdigits.spelled)⟩
  | negative he hdigits =>
    exact .inr ⟨_, _, rfl, hletter he, hne hdigits, all_isDigit hdigits.spelled,
      congrArg (fun n : Nat => -(n : Int)) (decimalNumber_eq hdigits.spelled)⟩

/-- A whole part, a fraction that has a point unless it is empty, and an exponent are read as the digits of
both parts and a power of ten. -/
theorem fraction?_eq {ws ps : List Nat} {whole places fraction exponent : List Char} {e : Int}
    (hwhole : List.Forall₂ (IsDigit 10) ws whole) (hplaces : List.Forall₂ (IsDigit 10) ps places)
    (hfraction : fraction = [] ∧ places = [] ∨ fraction = '.' :: places) (hne : whole ++ places ≠ [])
    (hexponent : Exponent e exponent) :
    fraction? (whole ++ fraction ++ exponent) = some (positional 10 (ws ++ ps), e - ps.length) := by
  have hmantissa : Text.decimalNumber (whole ++ places) = positional 10 (ws ++ ps) :=
    decimalNumber_eq (List.rel_append hwhole hplaces)
  have hlength : places.length = ps.length := hplaces.length_eq.symm
  have hstop : ∀ c, exponent.head? = some c → c.isDigit = false := by
    rcases hexponent.eq_nil_or_signed with ⟨rfl, -⟩ | ⟨letter, rest, rfl, hletter, -⟩
    · simp
    · rcases hletter with rfl | rfl <;> simp
  rcases hfraction with ⟨rfl, rfl⟩ | rfl
  · obtain ⟨htake, hdrop⟩ := span_digits hwhole hstop
    rw [List.append_nil] at hne hmantissa ⊢
    rcases hexponent.eq_nil_or_signed with ⟨rfl, rfl⟩ | ⟨letter, rest, rfl, hletter, hpower, hall, hvalue⟩
    · rw [List.append_nil] at htake hdrop ⊢
      simp [fraction?, htake, hdrop, hmantissa, hne, ← hlength]
    · rcases hletter with rfl | rfl <;>
        simp [fraction?, htake, hdrop, hmantissa, hne, hpower, hall, hvalue, ← hlength]
  · have hpoint : ∀ c, ('.' :: (places ++ exponent)).head? = some c → c.isDigit = false := by simp
    obtain ⟨htake, hdrop⟩ := span_digits hwhole hpoint
    obtain ⟨htake', hdrop'⟩ := span_digits hplaces hstop
    rw [List.append_assoc, List.cons_append]
    simp only [fraction?, htake, hdrop, htake', hdrop', hmantissa, if_neg hne, hlength]
    rcases hexponent.eq_nil_or_signed with ⟨rfl, rfl⟩ | ⟨letter, rest, rfl, hletter, hpower, hall, hvalue⟩
    · simp
    · simp only [hletter, ne_eq, hpower, not_false_eq_true, hall, and_self, if_true, hvalue]

/-- The value of digits on both sides of the point. -/
theorem positional_mul_zpow (ws ps : List Nat) (e : Int) :
    (positional 10 (ws ++ ps) : ℚ) * 10 ^ (e - ps.length) =
      (positional 10 ws + positional 10 ps / 10 ^ ps.length) * 10 ^ e := by
  rw [positional_append, zpow_sub₀ (by norm_num), zpow_natCast]
  push_cast
  field_simp

theorem Whole.exists_digits {w : ℚ} {whole : List Char} (h : Whole w whole) :
    ∃ values, Digits 10 values whole ∧ w = positional 10 values := by
  cases h with
  | zero => exact ⟨[0], ⟨List.cons_ne_nil 0 [], .cons ⟨by decide, .inl rfl⟩ .nil⟩, by simp [positional]⟩
  | digits hdigits _ => exact ⟨_, hdigits, rfl⟩

theorem Fraction.exists_places {f : ℚ} {fraction : List Char} (h : Fraction f fraction) :
    ∃ values places, List.Forall₂ (IsDigit 10) values places ∧
      (fraction = [] ∧ places = [] ∨ fraction = '.' :: places) ∧
      f = positional 10 values / 10 ^ values.length := by
  cases h with
  | none => exact ⟨[], [], .nil, .inl ⟨rfl, rfl⟩, by simp [positional]⟩
  | point => exact ⟨[], [], .nil, .inr rfl, by simp [positional]⟩
  | places hdigits => exact ⟨_, _, hdigits.spelled, .inr rfl, rfl⟩

/-- A decimal numeral is split into digits and a power of ten of its exact value. -/
theorem Decimal.exists_fraction? {q : ℚ} {text : List Char} (h : Decimal q text) :
    ∃ (m : Nat) (e : Int), fraction? text = some (m, e) ∧ (m : ℚ) * 10 ^ e = q := by
  cases h with
  | whole hwhole hfraction hexponent =>
    obtain ⟨ws, hdigits, rfl⟩ := hwhole.exists_digits
    obtain ⟨ps, places, hplaces, hmark, rfl⟩ := hfraction.exists_places
    obtain ⟨v, c, more, rfl, -⟩ := hdigits.exists_cons
    refine ⟨_, _, fraction?_eq hdigits.spelled hplaces hmark ?_ hexponent, positional_mul_zpow ws ps _⟩
    exact List.cons_ne_nil c _
  | @places ps e digits exponent hdigits hexponent =>
    obtain ⟨v, c, more, rfl, -⟩ := hdigits.exists_cons
    have hread : fraction? ([] ++ '.' :: c :: more ++ exponent) = _ :=
      fraction?_eq .nil hdigits.spelled (.inr rfl) (List.cons_ne_nil c more) hexponent
    refine ⟨_, _, hread, ?_⟩
    rw [positional_mul_zpow]
    simp [positional]

theorem Whole.isPlain {w : ℚ} {whole : List Char} (h : Whole w whole) : ∀ c ∈ whole, IsPlain c := by
  obtain ⟨values, hdigits, -⟩ := h.exists_digits
  exact hdigits.isPlain

theorem Fraction.isPlain {f : ℚ} {fraction : List Char} (h : Fraction f fraction) :
    ∀ c ∈ fraction, IsPlain c := by
  cases h with
  | none => exact List.forall_mem_nil _
  | point => exact List.forall_mem_singleton.2 (by decide)
  | places hdigits => exact List.forall_mem_cons.2 ⟨by decide, hdigits.isPlain⟩

theorem Exponent.isPlain {e : Int} {text : List Char} (h : Exponent e text) :
    ∀ c ∈ text, IsPlain c := by
  have hletter : ∀ c ∈ ['e', 'E'], IsPlain c :=
    List.forall_mem_cons.2 ⟨by decide, List.forall_mem_singleton.2 (by decide)⟩
  cases h with
  | none => exact List.forall_mem_nil _
  | unsigned he hdigits => exact List.forall_mem_cons.2 ⟨hletter _ he, hdigits.isPlain⟩
  | positive he hdigits =>
    exact List.forall_mem_cons.2 ⟨hletter _ he, List.forall_mem_cons.2 ⟨by decide, hdigits.isPlain⟩⟩
  | negative he hdigits =>
    exact List.forall_mem_cons.2 ⟨hletter _ he, List.forall_mem_cons.2 ⟨by decide, hdigits.isPlain⟩⟩

theorem Decimal.isPlain {q : ℚ} {text : List Char} (h : Decimal q text) : ∀ c ∈ text, IsPlain c := by
  cases h with
  | whole hwhole hfraction hexponent =>
    exact List.forall_mem_append.2
      ⟨List.forall_mem_append.2 ⟨hwhole.isPlain, hfraction.isPlain⟩, hexponent.isPlain⟩
  | places hdigits hexponent =>
    exact List.forall_mem_append.2
      ⟨List.forall_mem_cons.2 ⟨by decide, hdigits.isPlain⟩, hexponent.isPlain⟩

/-- A decimal numeral starts with a digit or a point. -/
theorem Decimal.exists_start {q : ℚ} {text : List Char} (h : Decimal q text) :
    ∃ c rest, text = c :: rest ∧ IsStart c := by
  cases h with
  | whole hwhole _ _ =>
    obtain ⟨values, hdigits, -⟩ := hwhole.exists_digits
    obtain ⟨v, c, more, rfl, hfirst⟩ := hdigits.exists_cons
    exact ⟨_, _, rfl, isStart_of_isHexDigit hfirst.2⟩
  | places _ _ => exact ⟨_, _, rfl, by decide⟩

/-- Behind a zero at the start comes the point or the exponent. -/
theorem Decimal.behind_zero {q : ℚ} {c : Char} {rest : List Char} (h : Decimal q ('0' :: c :: rest)) :
    prefixBase? c = none ∧ Text.isDigit c = false := by
  have hmarks : ∀ c ∈ ['.', 'e', 'E'], prefixBase? c = none ∧ Text.isDigit c = false :=
    List.forall_mem_cons.2 ⟨by decide,
      List.forall_mem_cons.2 ⟨by decide, List.forall_mem_singleton.2 (by decide)⟩⟩
  apply hmarks
  generalize htext : '0' :: c :: rest = text at h
  cases h with
  | whole hwhole hfraction hexponent =>
    cases hwhole with
    | zero =>
      have hbehind := (List.cons.inj htext).2
      cases hfraction with
      | none =>
        cases hexponent with
        | none => cases hbehind
        | unsigned he _ | positive he _ | negative he _ =>
          rw [(List.cons.inj hbehind).1]
          exact List.mem_cons_of_mem _ he
      | point | places _ =>
        rw [(List.cons.inj hbehind).1]
        exact List.mem_cons_self
    | digits hdigits hfirst =>
      obtain ⟨v, d, more, rfl, -⟩ := hdigits.exists_cons
      cases (List.cons.inj htext).1
      exact absurd rfl hfirst
  | places _ _ => exact absurd (List.cons.inj htext).1 (by decide)

theorem lower_ne {c : Char} (h : IsStart c) (rest : List Char) :
    ¬(lower (c :: rest) = "inf" ∨ lower (c :: rest) = "infinity") ∧ lower (c :: rest) ≠ "nan" := by
  have hhead (word : String) (hword : lower (c :: rest) = word) :
      word.toList.head? = some c.toLower := by
    rw [← hword, lower, String.toList_ofList]
    rfl
  refine ⟨?_, ?_⟩
  · rintro (hword | hword)
    · exact h.2.2.1 (Option.some.inj (hhead _ hword)).symm
    · exact h.2.2.1 (Option.some.inj (hhead _ hword)).symm
  · intro hword
    exact h.2.2.2 (Option.some.inj (hhead _ hword)).symm

/-- A decimal numeral is read as the number nearest to its exact value. -/
theorem Decimal.exists_real {q : ℚ} {text : List Char} (h : Decimal q text) :
    ∃ (m : Nat) (e : Int), real text = .ok (.ofDecimal false m e) ∧ (m : ℚ) * 10 ^ e = q := by
  obtain ⟨m, e, hfraction, hvalue⟩ := h.exists_fraction?
  obtain ⟨c, rest, rfl, hstart⟩ := h.exists_start
  obtain ⟨hinf, hnan⟩ := lower_ne hstart rest
  refine ⟨m, e, ?_, hvalue⟩
  simp only [real, trimmed_of_isPlain h.isPlain, signed_of_isStart hstart, if_neg hinf, if_neg hnan,
    hfraction]

theorem Separated.filter_eq {text cs : List Char} (h : Separated base text cs)
    (hplain : ∀ c ∈ text, IsPlain c) : cs.filter (· != '_') = text := by
  induction h with
  | nil => rfl
  | cons _ ih =>
    obtain ⟨hc, hrest⟩ := List.forall_mem_cons.1 hplain
    rw [List.filter_cons_of_pos (by simpa using hc.2.2.1), ih hrest]
  | between count _ _ _ ih =>
    obtain ⟨hc, hrest⟩ := List.forall_mem_cons.1 hplain
    have hseparators : (List.replicate count '_').filter (· != '_') = [] := by simp
    rw [List.cons_append, List.filter_cons_of_pos (by simpa using hc.2.2.1), List.filter_append,
      hseparators, ih hrest, List.nil_append]

theorem Separated.refl (text : List Char) : Separated base text text := by
  induction text with
  | nil => exact .nil
  | cons _ _ ih => exact ih.cons

theorem getLast?_ne {text : List Char} (h : ∀ c ∈ text, IsPlain c) : ¬text.getLast? = some 'n' := by
  intro hlast
  exact (h 'n' (List.mem_of_getLast? hlast)).2.2.2 rfl

theorem of_mem_baseLetters {letter : Char} (h : (letter, base) ∈ baseLetters) :
    prefixBase? letter = some base ∧ IsPlain letter := by
  have hletters : ∀ p ∈ baseLetters, prefixBase? p.1 = some p.2 ∧ IsPlain p.1 := by decide
  exact hletters (letter, base) h

theorem read_inBase {raw : String} {letter : Char} (hletter : (letter, base) ∈ baseLetters)
    (hplain : ∀ c ∈ '0' :: letter :: digits, IsPlain c)
    (hfilter : raw.toList.filter (· != '_') = '0' :: letter :: digits) :
    read raw = .int <$> integer base digits := by
  simp only [read, hfilter, if_neg (getLast?_ne hplain), (of_mem_baseLetters hletter).1]

theorem Digits.all_octal (h : Digits 8 values digits) :
    digits.all isOctal = true ∧ digits.all Text.isDigit = true := by
  have heach : ∀ c ∈ digits, isOctal c = true ∧ Text.isDigit c = true := by
    intro c hc
    obtain ⟨v, hdigit⟩ := exists_isDigit h.spelled hc
    exact ⟨(octal_of_isDigit hdigit).1, (octal_of_isDigit hdigit).2.1⟩
  exact ⟨List.all_eq_true.2 fun c hc => (heach c hc).1, List.all_eq_true.2 fun c hc => (heach c hc).2⟩

theorem read_octal {raw : String} (h : Digits 8 values digits)
    (hfilter : raw.toList.filter (· != '_') = '0' :: digits) :
    read raw = .int <$> integer 8 ('0' :: digits) := by
  have hzero : IsPlain '0' := by decide
  have hlast := getLast?_ne (List.forall_mem_cons.2 ⟨hzero, h.isPlain⟩)
  obtain ⟨hoctal, hall⟩ := h.all_octal
  have hoctal' : ('0' :: digits).all isOctal = true := by
    rw [List.all_cons, hoctal]
    decide
  obtain ⟨v, c, more, rfl, hfirst⟩ := h.exists_cons
  simp only [read, hfilter, if_neg hlast, (octal_of_isDigit hfirst).2.2, hall, hoctal', if_true]

theorem read_decimal {raw : String} {q : ℚ} {text : List Char} (h : Decimal q text)
    (hfilter : raw.toList.filter (· != '_') = text) : read raw = exact <$> real text := by
  have hlast := getLast?_ne h.isPlain
  simp only [read, hfilter, if_neg hlast]
  split
  · obtain ⟨hbase, hdigit⟩ := h.behind_zero
    simp [hbase, hdigit]
  · rfl

theorem exact_of_toInt? {x : Binary64} {n : Nat} (hn : n ≤ 2 ^ 53)
    (h : x.toInt? = some (n : Int)) : exact x = .int n := by
  have hexact : (n : Int).natAbs ≤ maxExact := hn
  simp only [exact, h, if_pos hexact]

/-- A numeral that spells a number up to `2 ^ 53` is read as that integer, in every base, with any zeros in
front of its digits, as any decimal fraction and power of ten, and with separators between digits. -/
theorem read_of_spells {n : Nat} {cs : List Char} (hn : n ≤ 2 ^ 53) (h : Spells n cs) :
    read (String.ofList cs) = .ok (.int n) := by
  cases h with
  | @inBase letter base values digits cs hletter hdigits hseparated =>
    have hzero : IsPlain '0' := by decide
    have hplain : ∀ c ∈ '0' :: letter :: digits, IsPlain c :=
      List.forall_mem_cons.2 ⟨hzero,
        List.forall_mem_cons.2 ⟨(of_mem_baseLetters hletter).2, hdigits.isPlain⟩⟩
    have hfilter : (String.ofList ('0' :: letter :: cs)).toList.filter (· != '_') =
        '0' :: letter :: digits := by
      rw [String.toList_ofList]
      exact hseparated.cons.cons.filter_eq hplain
    rw [read_inBase hletter hplain hfilter, hdigits.integer_eq]
    rfl
  | @octal values digits cs hdigits hseparated =>
    have hzero : IsPlain '0' := by decide
    have hfilter : (String.ofList cs).toList.filter (· != '_') = '0' :: digits := by
      rw [String.toList_ofList]
      exact hseparated.filter_eq (List.forall_mem_cons.2 ⟨hzero, hdigits.isPlain⟩)
    have hwhole : Digits 8 (0 :: values) ('0' :: digits) :=
      ⟨List.cons_ne_nil 0 values, .cons ⟨by decide, .inl rfl⟩ hdigits.spelled⟩
    have hvalue : positional 8 (0 :: values) = positional 8 values := Nat.ofDigits_reverse_zero_cons values
    rw [read_octal hdigits hfilter, hwhole.integer_eq, hvalue]
    rfl
  | @decimal n text cs hdecimal hseparated =>
    have hfilter : (String.ofList cs).toList.filter (· != '_') = text := by
      rw [String.toList_ofList]
      exact hseparated.filter_eq hdecimal.isPlain
    obtain ⟨m, e, hreal, hvalue⟩ := hdecimal.exists_real
    rw [read_decimal hdecimal hfilter, hreal]
    exact congrArg Except.ok (exact_of_toInt? hn (Binary64.toInt?_ofDecimal hn hvalue))

-- The greatest of these numbers, with a separator, a zero behind its places and one in its exponent.
theorem read_of_spells_greatest :
    9007199254740992 ≤ 2 ^ 53 ∧ Spells 9007199254740992 "9_007199254740.9920e+03".toList ∧
      read "9_007199254740.9920e+03" = .ok (.int 9007199254740992) := by
  have hwhole : Digits 10 [9, 0, 0, 7, 1, 9, 9, 2, 5, 4, 7, 4, 0] "9007199254740".toList :=
    ⟨by decide, by decide⟩
  have hplaces : Digits 10 [9, 9, 2, 0] "9920".toList := ⟨by decide, by decide⟩
  have hpower : Digits 10 [0, 3] "03".toList := ⟨by decide, by decide⟩
  have hvalue : ((positional 10 [9, 0, 0, 7, 1, 9, 9, 2, 5, 4, 7, 4, 0] : ℚ) +
      positional 10 [9, 9, 2, 0] / 10 ^ [9, 9, 2, 0].length) * 10 ^ (positional 10 [0, 3] : Int) =
        (9007199254740992 : Nat) := by
    norm_num [positional, Nat.ofDigits_cons]
  have hdecimal : Decimal (9007199254740992 : Nat) "9007199254740.9920e+03".toList :=
    hvalue ▸ .whole (.digits hwhole (by decide)) (.places hplaces) (.positive (by decide) hpower)
  have hseparated : Separated 10 "9007199254740.9920e+03".toList "9_007199254740.9920e+03".toList :=
    .between (v := 9) (w := 0) 1 (by decide) (by decide) (.refl "007199254740.9920e+03".toList)
  have hspells : Spells 9007199254740992 "9_007199254740.9920e+03".toList :=
    .decimal hdecimal hseparated
  have hread := read_of_spells (by decide) hspells
  exact ⟨by decide, hspells, hread⟩

-- The next number is none of the format, and only a base of its own keeps it.
example : read "9007199254740993" = .ok (.int 9007199254740992) ∧
    read "0x20000000000001" = .ok (.int 9007199254740993) := by decide +kernel

end Scenario.Syntax.Numeral

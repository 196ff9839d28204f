import Mathlib.Algebra.Order.Field.Power
import Mathlib.Tactic.NormNum
import Mathlib.Tactic.Positivity
import Scenario.Number.Binary64

namespace Scenario.Binary64

/-- The magnitudes of the normal numbers. -/
structure IsNormal (m : Nat) (e : Int) : Prop where
  least : 2 ^ 52 ≤ m
  below : m < 2 ^ 53
  minExponent_le : minExponent ≤ e
  le_maxExponent : e ≤ maxExponent

theorem scale_snd_pos {den : Nat} (hden : 0 < den) (num : Nat) (e : Int) :
    0 < (scale num den e).2 := by
  rw [scale]
  split
  · exact Nat.mul_pos hden (Nat.two_pow_pos _)
  · exact hden

theorem scale_div (num den : Nat) (e : Int) :
    ((scale num den e).1 : ℚ) / (scale num den e).2 = num / den / 2 ^ e := by
  rw [scale]
  split
  · rename_i he
    obtain ⟨k, rfl⟩ := Int.eq_ofNat_of_zero_le he
    simp [div_div]
  · rename_i he
    obtain ⟨k, rfl⟩ : ∃ k : Nat, e = -k := ⟨(-e).toNat, by omega⟩
    simp [mul_div_right_comm]

/-- Whether the whole part of a scaled fraction is below a bound can be seen from the fraction. -/
theorem scale_div_lt_iff {den : Nat} (hden : 0 < den) (num bound : Nat) (e : Int) :
    (scale num den e).1 / (scale num den e).2 < bound ↔ (num : ℚ) / den / 2 ^ e < bound := by
  have hpos := scale_snd_pos hden num e
  rw [Nat.div_lt_iff_lt_mul hpos, ← scale_div, div_lt_iff₀ (by exact_mod_cast hpos)]
  norm_cast

theorem roundDiv_of_div_eq {num den m : Nat} (hden : 0 < den) (h : (num : ℚ) / den = m) :
    roundDiv num den = m := by
  have hne : (den : ℚ) ≠ 0 := by exact_mod_cast hden.ne'
  have hnum : num = m * den := by
    rw [div_eq_iff hne] at h
    exact_mod_cast h
  have hexact : ¬(2 * (num % den) > den ∨ 2 * (num % den) = den ∧ num / den % 2 = 1) := by
    rw [hnum, Nat.mul_mod_left]
    omega
  rw [roundDiv, if_neg hexact, hnum, Nat.mul_div_cancel m hden]

/-- A fraction lies within a factor of two of the powers that its two sides have. -/
theorem zpow_log2_bounds {num den : Nat} (hnum : 0 < num) (hden : 0 < den) :
    (2 : ℚ) ^ ((num.log2 : Int) - den.log2 - 1) < num / den ∧
      (num : ℚ) / den < 2 ^ ((num.log2 : Int) - den.log2 + 1) := by
  have hlow : (2 : ℚ) ^ num.log2 ≤ num := by exact_mod_cast Nat.log2_self_le hnum.ne'
  have hhigh : (num : ℚ) < 2 ^ (num.log2 + 1) := by exact_mod_cast Nat.lt_log2_self
  have hlow' : (2 : ℚ) ^ den.log2 ≤ den := by exact_mod_cast Nat.log2_self_le hden.ne'
  have hhigh' : (den : ℚ) < 2 ^ (den.log2 + 1) := by exact_mod_cast Nat.lt_log2_self
  have hden' : (0 : ℚ) < den := by exact_mod_cast hden
  have hleft : (2 : ℚ) ^ ((num.log2 : Int) - den.log2 - 1) = 2 ^ num.log2 / 2 ^ (den.log2 + 1) := by
    rw [sub_sub, zpow_sub₀ two_ne_zero]
    norm_cast
  have hright : (2 : ℚ) ^ ((num.log2 : Int) - den.log2 + 1) = 2 ^ (num.log2 + 1) / 2 ^ den.log2 := by
    rw [sub_add_eq_add_sub, zpow_sub₀ two_ne_zero]
    norm_cast
  rw [hleft, hright]
  constructor
  · rw [div_lt_div_iff₀ (by positivity) hden']
    calc (2 : ℚ) ^ num.log2 * den < 2 ^ num.log2 * 2 ^ (den.log2 + 1) := by gcongr
      _ ≤ num * 2 ^ (den.log2 + 1) := by gcongr
  · rw [div_lt_div_iff₀ hden' (by positivity)]
    calc (num : ℚ) * 2 ^ den.log2 < 2 ^ (num.log2 + 1) * 2 ^ den.log2 := by gcongr
      _ ≤ 2 ^ (num.log2 + 1) * den := by gcongr

theorem IsNormal.zpow_bounds {m : Nat} {e : Int} (h : IsNormal m e) :
    (2 : ℚ) ^ (e + 52) ≤ m * 2 ^ e ∧ (m : ℚ) * 2 ^ e < 2 ^ (e + 53) := by
  have hleast : (2 : ℚ) ^ (52 : Int) ≤ m := by exact_mod_cast h.least
  have hbelow : (m : ℚ) < 2 ^ (53 : Int) := by exact_mod_cast h.below
  rw [add_comm e, add_comm e, zpow_add₀ two_ne_zero, zpow_add₀ two_ne_zero]
  have hpos : (0 : ℚ) < 2 ^ e := zpow_pos two_pos e
  exact ⟨mul_le_mul_of_nonneg_right hleast hpos.le, mul_lt_mul_of_pos_right hbelow hpos⟩

/-- The exponent of a normal number is found. -/
theorem exponentFor_of_eq {num den m : Nat} {e : Int} (hden : 0 < den) (h : IsNormal m e)
    (heq : (num : ℚ) / den = m * 2 ^ e) : exponentFor num den = e := by
  obtain ⟨hlow, hhigh⟩ := h.zpow_bounds
  have hnum : 0 < num := by
    have hpos : (0 : ℚ) < num / den := heq ▸ lt_of_lt_of_le (zpow_pos two_pos _) hlow
    have hne : num ≠ 0 := by
      rintro rfl
      simp at hpos
    omega
  obtain ⟨hleft, hright⟩ := zpow_log2_bounds hnum hden
  rw [heq] at hleft hright
  have hupper : (num.log2 : Int) - den.log2 - 1 < e + 53 :=
    (zpow_lt_zpow_iff_right₀ one_lt_two).1 (hleft.trans hhigh)
  have hlower : e + 52 < (num.log2 : Int) - den.log2 + 1 :=
    (zpow_lt_zpow_iff_right₀ one_lt_two).1 (hlow.trans_lt hright)
  -- The first guess is the exponent or one more, and the whole part tells which.
  have hguess : (num.log2 : Int) - den.log2 - 52 = e ∨ (num.log2 : Int) - den.log2 - 52 = e + 1 := by
    omega
  have hmax : max minExponent e = e := max_eq_right h.minExponent_le
  simp only [exponentFor]
  rcases hguess with hguess | hguess
  · have hwhole : ¬(scale num den e).1 / (scale num den e).2 < Nat.pow 2 52 := by
      rw [scale_div_lt_iff hden, heq, mul_div_cancel_right₀ _ (zpow_pos two_pos e).ne', Nat.cast_lt]
      exact Nat.not_lt.2 h.least
    rw [hguess, if_neg hwhole, hmax]
  · have hwhole : (scale num den (e + 1)).1 / (scale num den (e + 1)).2 < Nat.pow 2 52 := by
      have hbelow : (m : ℚ) < 2 ^ 53 := by exact_mod_cast h.below
      rw [scale_div_lt_iff hden, heq, zpow_add_one₀ two_ne_zero, ← div_div,
        mul_div_cancel_right₀ _ (zpow_pos two_pos e).ne', div_lt_iff₀ two_pos]
      calc (m : ℚ) < 2 ^ 53 := hbelow
        _ = (Nat.pow 2 52 : Nat) * 2 := by norm_num
    rw [hguess, if_pos hwhole, Int.add_sub_cancel, hmax]

/-- A fraction that is equal to a normal number is rounded to it. -/
theorem ofRatio_of_eq {num den m : Nat} {e : Int} (negative : Bool) (hden : 0 < den)
    (h : IsNormal m e) (heq : (num : ℚ) / den = m * 2 ^ e) :
    ofRatio negative num den = .finite negative m e := by
  have hleast := h.least
  have hbelow := h.below
  have hnum : num ≠ 0 := by
    rintro rfl
    have hpos : (0 : ℚ) < m * 2 ^ e := lt_of_lt_of_le (zpow_pos two_pos _) h.zpow_bounds.1
    simp [← heq] at hpos
  have hround : roundDiv (scale num den e).1 (scale num den e).2 = m := by
    apply roundDiv_of_div_eq (scale_snd_pos hden num e)
    rw [scale_div, heq, mul_div_cancel_right₀ _ (zpow_pos two_pos e).ne']
  have hcarry : ¬m = Nat.pow 2 53 := hbelow.ne
  have hzero : ¬m = 0 := by omega
  have hlarge : ¬e > maxExponent := Int.not_lt.2 h.le_maxExponent
  simp only [ofRatio, exponentFor_of_eq hden h heq, hround, if_neg hnum, if_neg hcarry, if_neg hzero,
    if_neg hlarge]

theorem pow_length_toDigits_bounds {n : Nat} (hn : n ≠ 0) :
    10 ^ ((Nat.toDigits 10 n).length - 1) ≤ n ∧ n < 10 ^ (Nat.toDigits 10 n).length := by
  have hlength : 0 < (Nat.toDigits 10 n).length := Nat.length_toDigits_pos
  constructor
  · by_contra hlow
    have hpos : 0 < (Nat.toDigits 10 n).length - 1 := by
      apply Nat.pos_of_ne_zero
      intro hzero
      rw [hzero] at hlow
      omega
    have hle := (Nat.length_toDigits_le_iff (by decide) hpos).2 (Nat.not_le.1 hlow)
    omega
  · exact (Nat.length_toDigits_le_iff (by decide) hlength).1 le_rfl

/-- The places in front of the point bound a decimal fraction. -/
theorem zpow_places_bounds {digits : Nat} (hdigits : digits ≠ 0) (exponent : Int) :
    (10 : ℚ) ^ ((Nat.toDigits 10 digits).length + exponent - 1) ≤ digits * 10 ^ exponent ∧
      (digits : ℚ) * 10 ^ exponent < 10 ^ ((Nat.toDigits 10 digits).length + exponent) := by
  obtain ⟨hlow, hhigh⟩ := pow_length_toDigits_bounds hdigits
  have hlength : 0 < (Nat.toDigits 10 digits).length := Nat.length_toDigits_pos
  have hpos : (0 : ℚ) < 10 ^ exponent := zpow_pos (by norm_num) exponent
  have hleft : (10 : ℚ) ^ ((Nat.toDigits 10 digits).length + exponent - 1) =
      10 ^ ((Nat.toDigits 10 digits).length - 1) * 10 ^ exponent := by
    rw [← zpow_natCast, ← zpow_add₀ (by norm_num)]
    congr 1
    omega
  rw [hleft, zpow_add₀ (by norm_num), zpow_natCast]
  constructor
  · exact mul_le_mul_of_nonneg_right (by exact_mod_cast hlow) hpos.le
  · exact mul_lt_mul_of_pos_right (by exact_mod_cast hhigh) hpos

/-- Normal numbers are far within the places that are looked at. -/
theorem IsNormal.zpow_ten_bounds {m : Nat} {e : Int} (h : IsNormal m e) :
    (10 : ℚ) ^ (-(341 : Nat) : Int) ≤ m * 2 ^ e ∧ (m : ℚ) * 2 ^ e < 10 ^ ((342 : Nat) : Int) := by
  have hpow (k : Nat) : (2 : ℚ) ^ ((3 * k : Nat) : Int) ≤ 10 ^ (k : Int) := by
    rw [zpow_natCast, zpow_natCast, pow_mul]
    exact pow_le_pow_left₀ (by norm_num) (by norm_num) k
  have hinv (k : Nat) : (10 : ℚ) ^ (-(k : Int)) ≤ 2 ^ (-((3 * k : Nat) : Int)) := by
    rw [zpow_neg, zpow_neg]
    exact inv_anti₀ (zpow_pos two_pos _) (hpow k)
  obtain ⟨hlow, hhigh⟩ := h.zpow_bounds
  have hmin : -1074 ≤ e := h.minExponent_le
  have hmax : e ≤ 971 := h.le_maxExponent
  constructor
  · calc (10 : ℚ) ^ (-(341 : Nat) : Int) ≤ 2 ^ (-((3 * 341 : Nat) : Int)) := hinv 341
      _ ≤ 2 ^ (e + 52) := zpow_le_zpow_right₀ one_le_two (by omega)
      _ ≤ m * 2 ^ e := hlow
  · calc (m : ℚ) * 2 ^ e < 2 ^ (e + 53) := hhigh
      _ ≤ 2 ^ ((3 * 342 : Nat) : Int) := zpow_le_zpow_right₀ one_le_two (by omega)
      _ ≤ 10 ^ ((342 : Nat) : Int) := hpow 342

/-- A decimal fraction that is equal to a normal number is rounded to it. -/
theorem ofDecimal_of_eq {digits m : Nat} {exponent e : Int} (negative : Bool) (h : IsNormal m e)
    (heq : (digits : ℚ) * 10 ^ exponent = m * 2 ^ e) :
    ofDecimal negative digits exponent = .finite negative m e := by
  obtain ⟨hlow, hhigh⟩ := h.zpow_ten_bounds
  have hdigits : digits ≠ 0 := by
    rintro rfl
    have hpos : (0 : ℚ) < m * 2 ^ e := lt_of_lt_of_le (zpow_pos (by norm_num) _) hlow
    simp [← heq] at hpos
  obtain ⟨hleft, hright⟩ := zpow_places_bounds hdigits exponent
  rw [heq] at hleft hright
  have hmost : (Nat.toDigits 10 digits).length + exponent - 1 < 342 :=
    (zpow_lt_zpow_iff_right₀ (by norm_num)).1 (hleft.trans_lt hhigh)
  have hleast : -341 < (Nat.toDigits 10 digits).length + exponent :=
    (zpow_lt_zpow_iff_right₀ (by norm_num)).1 (hlow.trans_lt hright)
  have hsmall : ¬(digits = 0 ∨ (Nat.toDigits 10 digits).length + exponent < -400) := by omega
  have hlarge : ¬(Nat.toDigits 10 digits).length + exponent > 400 := by omega
  simp only [ofDecimal, if_neg hsmall, if_neg hlarge]
  split
  · rename_i hexponent
    obtain ⟨k, rfl⟩ := Int.eq_ofNat_of_zero_le hexponent
    apply ofRatio_of_eq negative one_pos h
    simpa using heq
  · rename_i hexponent
    obtain ⟨k, rfl⟩ : ∃ k : Nat, exponent = -k := ⟨(-exponent).toNat, by omega⟩
    apply ofRatio_of_eq negative (Nat.pow_pos (by decide)) h
    rw [← heq]
    simp [div_eq_mul_inv]

/-- A number is an integer if its value is one. -/
theorem toInt?_of_eq {m n : Nat} {e : Int} (h : (m : ℚ) * 2 ^ e = n) :
    (finite false m e).toInt? = some (n : Int) := by
  rw [toInt?]
  split
  · rename_i he
    obtain ⟨k, rfl⟩ := Int.eq_ofNat_of_zero_le he
    have hn : m * 2 ^ k = n := by
      rw [zpow_natCast] at h
      exact_mod_cast h
    simp [← hn]
  · rename_i he
    obtain ⟨k, rfl⟩ : ∃ k : Nat, e = -k := ⟨(-e).toNat, by omega⟩
    have hm : m = n * 2 ^ k := by
      rw [zpow_neg, zpow_natCast, ← div_eq_mul_inv, div_eq_iff (by positivity)] at h
      exact_mod_cast h
    simp [hm]

/-- The natural numbers up to `2 ^ 53` are normal numbers. -/
theorem exists_isNormal {n : Nat} (hpos : 0 < n) (hn : n ≤ 2 ^ 53) :
    ∃ m e, IsNormal m e ∧ (m : ℚ) * 2 ^ e = n := by
  rcases hn.lt_or_eq with hn | rfl
  · have hlow := Nat.log2_self_le hpos.ne'
    have hhigh : n < 2 ^ (n.log2 + 1) := Nat.lt_log2_self
    have hlog : n.log2 < 53 := (Nat.log2_lt hpos.ne').2 hn
    have hleast : 2 ^ 52 = 2 ^ n.log2 * 2 ^ (52 - n.log2) := by
      rw [← Nat.pow_add]
      congr 1
      omega
    have hbelow : 2 ^ 53 = 2 ^ (n.log2 + 1) * 2 ^ (52 - n.log2) := by
      rw [← Nat.pow_add]
      congr 1
      omega
    refine ⟨n * 2 ^ (52 - n.log2), -(52 - n.log2 : Nat), ⟨?_, ?_, ?_, ?_⟩, ?_⟩
    · exact hleast ▸ Nat.mul_le_mul_right _ hlow
    · exact hbelow ▸ Nat.mul_lt_mul_of_pos_right hhigh (Nat.two_pow_pos _)
    · rw [minExponent]
      omega
    · rw [maxExponent]
      omega
    · push_cast
      rw [zpow_neg, zpow_natCast, mul_assoc, mul_inv_cancel₀ (by positivity), mul_one]
  · exact ⟨2 ^ 52, 1, ⟨le_rfl, by decide, by decide, by decide⟩, by norm_num⟩

/-- A decimal fraction that is equal to a natural number up to `2 ^ 53` is rounded to that number. -/
theorem toInt?_ofDecimal {digits n : Nat} {exponent : Int} (hn : n ≤ 2 ^ 53)
    (heq : (digits : ℚ) * 10 ^ exponent = n) :
    (ofDecimal false digits exponent).toInt? = some (n : Int) := by
  rcases Nat.eq_zero_or_pos n with rfl | hpos
  · have hdigits : digits = 0 := by simpa [zpow_ne_zero] using heq
    rw [ofDecimal, if_pos (.inl hdigits)]
    exact toInt?_of_eq (by simp)
  · obtain ⟨m, e, hnormal, hvalue⟩ := exists_isNormal hpos hn
    rw [ofDecimal_of_eq false hnormal (heq.trans hvalue.symm)]
    exact toInt?_of_eq hvalue

end Scenario.Binary64

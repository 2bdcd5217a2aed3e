/-
The digits that a number is written with read back as the number. Seventeen digits always do: the power of ten that
leads a number is at most the number, so that half a unit of the seventeenth digit is less than what two numbers differ
by. Digits read back alike when they stand for the same quotient.

Results:
- `toFloat_congr`: digits of one quotient read alike.
- `toFloat_of_near`: digits near to a number read as its magnitude.
- `tens_leadingPower_le`: the leading power of ten is at most the quotient.
- `toFloat_shortestDigits`: the fewest digits read back.
-/
import Mathlib
import UnitAlgebra.Proofs.Decimal.Nearest

namespace UnitAlgebra.Decimal

open Binary64 (Parts leadingBit leadingBit_bounds ofQuotient quotientBits quotientBits_congr quotientBits_of_near
  roundHalfEven roundHalfEven_error)

/-! ## Quotients of digits -/

theorem tens_cast (k : Nat) : (tens k : ℚ) = 10 ^ (k : ℤ) := by
  rw [zpow_natCast]
  exact Nat.cast_pow 10 k

theorem tens_ne_zero (k : Nat) : tens k ≠ 0 := (Nat.pow_pos (by decide)).ne'

theorem shifted_value (num : Nat) {den : Nat} (hd : den ≠ 0) (shift : ℤ) :
    (shifted num den shift).2 ≠ 0 ∧
      ((shifted num den shift).1 / (shifted num den shift).2 : ℚ) = num / den * 10 ^ shift := by
  unfold shifted
  split
  · next h =>
    refine ⟨hd, ?_⟩
    simp only [Nat.cast_mul, tens_cast, Int.toNat_of_nonneg h]
    ring
  · next h =>
    refine ⟨Nat.mul_ne_zero hd (tens_ne_zero _), ?_⟩
    simp only [Nat.cast_mul, tens_cast, Int.toNat_of_nonneg (show 0 ≤ -shift by omega), zpow_neg]
    field_simp

theorem digitCount_bounds {n : Nat} (h : n ≠ 0) :
    (10 : ℚ) ^ ((digitCount n : ℤ) - 1) ≤ n ∧ (n : ℚ) < 10 ^ (digitCount n : ℤ) := by
  have hpos : 0 < digitCount n := Nat.length_toDigits_pos
  have hhigh : n < 10 ^ digitCount n := (Nat.length_toDigits_le_iff (by decide) hpos).1 (Nat.le_refl _)
  have hlow : 10 ^ (digitCount n - 1) ≤ n := by
    rcases Nat.eq_or_lt_of_le (show 1 ≤ digitCount n from hpos) with hone | hmore
    · rw [← hone]
      exact Nat.pos_of_ne_zero h
    · rw [← Nat.not_lt, ← Nat.length_toDigits_le_iff (by decide) (by omega)]
      change ¬digitCount n ≤ digitCount n - 1
      omega
  constructor
  · rw [show (digitCount n : ℤ) - 1 = ((digitCount n - 1 : ℕ) : ℤ) by omega, zpow_natCast]
    exact_mod_cast hlow
  · rw [zpow_natCast]
    exact_mod_cast hhigh

theorem magnitude_eq_iff {d : Nat} (hd : d ≠ 0) (e k : ℤ) :
    (digitCount d : ℤ) + e = k ↔ (10 : ℚ) ^ (k - 1) ≤ d * 10 ^ e ∧ (d * 10 ^ e : ℚ) < 10 ^ k := by
  have hunit : (0 : ℚ) < 10 ^ e := zpow_pos (by norm_num) e
  obtain ⟨hlow, hhigh⟩ := digitCount_bounds hd
  have hl : (10 : ℚ) ^ ((digitCount d : ℤ) + e - 1) ≤ d * 10 ^ e := by
    rw [show (digitCount d : ℤ) + e - 1 = (digitCount d : ℤ) - 1 + e by ring, zpow_add₀ (by norm_num)]
    exact mul_le_mul_of_nonneg_right hlow hunit.le
  have hh : (d * 10 ^ e : ℚ) < 10 ^ ((digitCount d : ℤ) + e) := by
    rw [zpow_add₀ (by norm_num)]
    exact mul_lt_mul_of_pos_right hhigh hunit
  constructor
  · rintro rfl
    exact ⟨hl, hh⟩
  · rintro ⟨hl', hh'⟩
    have h1 := (zpow_lt_zpow_iff_right₀ (show (1 : ℚ) < 10 by norm_num)).1 (hl.trans_lt hh')
    have h2 := (zpow_lt_zpow_iff_right₀ (show (1 : ℚ) < 10 by norm_num)).1 (hl'.trans_lt hh)
    omega

/-! ## Reading digits -/

theorem toFloat_eq {d : Nat} {e : ℤ} (hd : d ≠ 0) (hlow : -330 ≤ digitCount d + e) (hhigh : digitCount d + e ≤ 310) :
    toFloat d e = ofQuotient (shifted d 1 e).1 (shifted d 1 e).2 := by
  have hstart : ¬(d = 0 ∨ (digitCount d : ℤ) + e < -330) := by omega
  have hend : ¬310 < (digitCount d : ℤ) + e := by omega
  simp only [toFloat, hstart, hend, if_false, shifted, Nat.one_mul]
  split <;> rfl

/-- **Digits of one quotient** read alike. -/
theorem toFloat_congr {d d' : Nat} {e e' : ℤ} (h : (d * 10 ^ e : ℚ) = d' * 10 ^ e') : toFloat d e = toFloat d' e' := by
  have hunit (k : ℤ) : (10 : ℚ) ^ k ≠ 0 := zpow_ne_zero k (by norm_num)
  by_cases hd : d = 0
  · have hd' : d' = 0 := by
      rw [hd, Nat.cast_zero, zero_mul] at h
      exact_mod_cast (mul_eq_zero.1 h.symm).resolve_right (hunit e')
    simp only [toFloat, hd, hd', true_or, if_true]
  · have hd' : d' ≠ 0 := by
      rintro rfl
      rw [Nat.cast_zero, zero_mul] at h
      exact hd (by exact_mod_cast (mul_eq_zero.1 h).resolve_right (hunit e))
    have hplace : (digitCount d : ℤ) + e = digitCount d' + e' := by
      rw [magnitude_eq_iff hd, h]
      exact (magnitude_eq_iff hd' e' _).1 rfl
    by_cases hlow : (digitCount d : ℤ) + e < -330
    · have hlow' : (digitCount d' : ℤ) + e' < -330 := by omega
      simp only [toFloat, hlow, hlow', or_true, if_true]
    · by_cases hhigh : 310 < (digitCount d : ℤ) + e
      · have hhigh' : 310 < (digitCount d' : ℤ) + e' := by omega
        have hlow' : ¬(digitCount d' : ℤ) + e' < -330 := by omega
        simp only [toFloat, hd, hd', hlow, hlow', hhigh, hhigh', or_self, if_false, if_true]
      · rw [toFloat_eq hd (by omega) (by omega), toFloat_eq hd' (by omega) (by omega)]
        obtain ⟨hb, hvalue⟩ := shifted_value d one_ne_zero e
        obtain ⟨hb', hvalue'⟩ := shifted_value d' one_ne_zero e'
        unfold ofQuotient
        rw [quotientBits_congr hb hb' ?_]
        rw [Nat.cast_one, div_one] at hvalue hvalue'
        have hsame := hvalue.trans (h.trans hvalue'.symm)
        rw [div_eq_div_iff (by exact_mod_cast hb) (by exact_mod_cast hb')] at hsame
        exact_mod_cast hsame

/-! ## Digits near to a number -/

/-- where the finite numbers lie that are not zero -/
theorem value_bounds {p : Parts} (hp : p.IsProper) (hm : p.mantissa ≠ 0) :
    (2 : ℚ) ^ (-1074 : ℤ) ≤ p.mantissa * 2 ^ p.power ∧ (p.mantissa * 2 ^ p.power : ℚ) < 2 ^ (1024 : ℤ) := by
  have hunit : (0 : ℚ) < 2 ^ p.power := zpow_pos two_pos _
  have hone : (1 : ℚ) ≤ p.mantissa := by exact_mod_cast Nat.pos_of_ne_zero hm
  have hm53 : (p.mantissa : ℚ) < 2 ^ (53 : ℤ) := by exact_mod_cast hp.mantissa_lt
  have hpower : p.power ≤ 971 := by
    have hfinite : (p.power + 1074).toNat * 2 ^ 52 + p.mantissa < 2047 * 2 ^ 52 := hp.finite
    have hnormal := hp.normal
    omega
  constructor
  · calc (2 : ℚ) ^ (-1074 : ℤ) ≤ 2 ^ p.power := zpow_le_zpow_right₀ one_le_two hp.lowest_le
      _ ≤ p.mantissa * 2 ^ p.power := le_mul_of_one_le_left hunit.le hone
  · calc (p.mantissa * 2 ^ p.power : ℚ) < 2 ^ (53 : ℤ) * 2 ^ p.power := mul_lt_mul_of_pos_right hm53 hunit
      _ = 2 ^ (53 + p.power) := (zpow_add₀ two_ne_zero _ _).symm
      _ ≤ 2 ^ (1024 : ℤ) := zpow_le_zpow_right₀ one_le_two (by omega)

/-- the range of finite numbers within powers of ten -/
theorem twos_lt_tens : (10 : ℚ) ^ (-331 : ℤ) < 2 ^ (-1074 : ℤ) / 2 ∧ (2 : ℚ) ^ (1024 : ℤ) * 2 < 10 ^ (310 : ℤ) := by
  have hlow : (2 ^ 1075 : ℕ) < 10 ^ 331 := by decide +kernel
  have hhigh : (2 ^ 1025 : ℕ) < 10 ^ 310 := by decide +kernel
  constructor
  · have hcast : (2 : ℚ) ^ 1075 < 10 ^ 331 := by exact_mod_cast hlow
    calc (10 : ℚ) ^ (-331 : ℤ) = (10 ^ 331)⁻¹ := rfl
      _ < (2 ^ 1075)⁻¹ := inv_strictAnti₀ (by positivity) hcast
      _ = 2 ^ (-1074 : ℤ) / 2 := by
        rw [pow_succ, mul_inv, div_eq_mul_inv]
        rfl
  · have hcast : (2 : ℚ) ^ 1025 < 10 ^ 310 := by exact_mod_cast hhigh
    rwa [pow_succ] at hcast

theorem digitCount_of_near {p : Parts} (hp : p.IsProper) (hm : p.mantissa ≠ 0) {d : Nat} {e : ℤ}
    (h : |(d * 10 ^ e : ℚ) - p.mantissa * 2 ^ p.power| * (2 * 10 ^ 16) ≤ p.mantissa * 2 ^ p.power) :
    d ≠ 0 ∧ -330 ≤ (digitCount d : ℤ) + e ∧ (digitCount d : ℤ) + e ≤ 310 := by
  obtain ⟨hlow, hhigh⟩ := value_bounds hp hm
  obtain ⟨x, hx⟩ : ∃ x : ℚ, (p.mantissa * 2 ^ p.power : ℚ) = x := ⟨_, rfl⟩
  obtain ⟨y, hy⟩ : ∃ y : ℚ, (d * 10 ^ e : ℚ) = y := ⟨_, rfl⟩
  rw [hx, hy, ← le_div_iff₀ (by norm_num), abs_le] at h
  rw [hx] at hlow hhigh
  have hpos : (0 : ℚ) < 2 ^ (-1074 : ℤ) := zpow_pos two_pos _
  have hbelow : x / 2 ≤ y := by linarith
  have habove : y ≤ x * 2 := by linarith
  have hd : d ≠ 0 := by
    rintro rfl
    rw [Nat.cast_zero, zero_mul] at hy
    linarith
  obtain ⟨hdlow, hdhigh⟩ := (magnitude_eq_iff hd e _).1 rfl
  rw [hy] at hdlow hdhigh
  have hstart : (10 : ℚ) ^ (-331 : ℤ) < 10 ^ ((digitCount d : ℤ) + e) := by
    calc (10 : ℚ) ^ (-331 : ℤ) < 2 ^ (-1074 : ℤ) / 2 := twos_lt_tens.1
      _ ≤ x / 2 := by linarith
      _ < 10 ^ ((digitCount d : ℤ) + e) := hbelow.trans_lt hdhigh
  have hend : (10 : ℚ) ^ ((digitCount d : ℤ) + e - 1) < 10 ^ (310 : ℤ) := by
    calc (10 : ℚ) ^ ((digitCount d : ℤ) + e - 1) ≤ x * 2 := hdlow.trans habove
      _ < 2 ^ (1024 : ℤ) * 2 := by linarith
      _ < 10 ^ (310 : ℤ) := twos_lt_tens.2
  have hten : (1 : ℚ) < 10 := by norm_num
  rw [zpow_lt_zpow_iff_right₀ hten] at hstart hend
  exact ⟨hd, by omega, by omega⟩

/-- **Digits near to a number** read as its magnitude. -/
theorem toFloat_of_near {p : Parts} (hp : p.IsProper) (hm : p.mantissa ≠ 0) {d : Nat} {e : ℤ}
    (h : |(d * 10 ^ e : ℚ) - p.mantissa * 2 ^ p.power| * (2 * 10 ^ 16) ≤ p.mantissa * 2 ^ p.power) :
    toFloat d e = Float.ofBits ((p.power + 1074).toNat * 2 ^ 52 + p.mantissa).toUInt64 := by
  obtain ⟨hd, hstart, hend⟩ := digitCount_of_near hp hm h
  obtain ⟨hden, hvalue⟩ := shifted_value d one_ne_zero e
  rw [Nat.cast_one, div_one] at hvalue
  rw [toFloat_eq hd hstart hend, ofQuotient, quotientBits_of_near hp hm hden (by rwa [hvalue])]

/-! ## The leading power -/

theorem le_shifted_iff (num : Nat) {den : Nat} (hd : den ≠ 0) (k : ℤ) :
    (shifted num den (-k)).2 ≤ (shifted num den (-k)).1 ↔ (10 : ℚ) ^ k ≤ num / den := by
  obtain ⟨hb, hvalue⟩ := shifted_value num hd (-k)
  have hpos : (0 : ℚ) < (shifted num den (-k)).2 := by exact_mod_cast Nat.pos_of_ne_zero hb
  rw [← Nat.cast_le (α := ℚ), ← one_le_div hpos, hvalue, zpow_neg, ← div_eq_mul_inv,
    one_le_div (zpow_pos (by norm_num) k)]

/-- 30103 / 100000 is so near to the logarithm of two that the powers of ten it gives are at most one too high -/
theorem tens_le_twos {l : ℤ} (hlow : -1100 < l) (hhigh : l < 1100) :
    (10 : ℚ) ^ (l * 30103 / 100000 - 1) ≤ 2 ^ l := by
  have habove : ∀ n < 1100, 10 ^ (n * 30103 / 100000) ≤ 2 ^ n * 10 := by decide +kernel
  have hbelow : ∀ n < 1100, 2 ^ n ≤ 10 ^ ((n * 30103 + 99999) / 100000 + 1) := by decide +kernel
  rcases Int.le_total 0 l with hl | hl
  · obtain ⟨n, rfl⟩ := Int.eq_ofNat_of_zero_le hl
    have h : (10 : ℚ) ^ (n * 30103 / 100000) ≤ 2 ^ n * 10 := by exact_mod_cast habove n (by omega)
    rw [zpow_sub_one₀ (by norm_num), ← div_eq_mul_inv, div_le_iff₀ (by norm_num), zpow_natCast]
    exact_mod_cast h
  · obtain ⟨n, hn⟩ := Int.eq_ofNat_of_zero_le (show 0 ≤ -l by omega)
    have h : (2 : ℚ) ^ n ≤ 10 ^ ((n * 30103 + 99999) / 100000 + 1) := by exact_mod_cast hbelow n (by omega)
    have hexponent : l * 30103 / 100000 - 1 = -(((n * 30103 + 99999) / 100000 + 1 : ℕ) : ℤ) := by omega
    rw [hexponent, show l = -(n : ℤ) by omega, zpow_neg, zpow_neg, zpow_natCast, zpow_natCast]
    exact inv_anti₀ (by positivity) h

/-- **The leading power of ten** is at most the quotient. -/
theorem tens_leadingPower_le {num den : Nat} (hn : num ≠ 0) (hd : den ≠ 0)
    (hlow : (2 : ℚ) ^ (-1074 : ℤ) ≤ num / den) (hhigh : (num / den : ℚ) < 2 ^ (1024 : ℤ)) :
    (10 : ℚ) ^ leadingPower num den ≤ num / den := by
  obtain ⟨hbit, hnext⟩ := leadingBit_bounds hn hd
  have hl : leadingBit num den < 1024 := (zpow_lt_zpow_iff_right₀ (one_lt_two (α := ℚ))).1 (hbit.trans_lt hhigh)
  have hl' : -1074 < leadingBit num den + 1 :=
    (zpow_lt_zpow_iff_right₀ (one_lt_two (α := ℚ))).1 (hlow.trans_lt hnext)
  simp only [leadingPower, decide_eq_true_eq]
  split
  · next h => exact (le_shifted_iff num hd _).1 h
  · split
    · next h => exact (le_shifted_iff num hd _).1 h
    · exact (tens_le_twos (by omega) (by omega)).trans hbit

/-! ## The fewest digits -/

theorem quotient_value (p : Parts) :
    p.quotient.2 ≠ 0 ∧ (p.quotient.1 / p.quotient.2 : ℚ) = p.mantissa * 2 ^ p.power := by
  unfold Parts.quotient
  split
  · next h =>
    refine ⟨one_ne_zero, ?_⟩
    rw [Binary64.shiftLeft_cast, Int.toNat_of_nonneg h, Nat.cast_one, div_one]
  · next h =>
    have hone : 1 <<< (-p.power).toNat ≠ 0 := by
      rw [Nat.one_shiftLeft]
      exact (Nat.two_pow_pos _).ne'
    refine ⟨hone, ?_⟩
    rw [Binary64.shiftLeft_cast, Int.toNat_of_nonneg (by omega), zpow_neg, Nat.cast_one, one_mul, div_inv_eq_mul]

theorem quotient_eq_zero_iff (p : Parts) : p.quotient.1 = 0 ↔ p.mantissa = 0 := by
  unfold Parts.quotient
  split
  · simp [Nat.shiftLeft_eq]
  · exact Iff.rfl

variable {p : Parts}

theorem ofQuotient_parts (hp : p.IsProper) (hm : p.mantissa ≠ 0) :
    ofQuotient p.quotient.1 p.quotient.2 = Float.ofBits ((p.power + 1074).toNat * 2 ^ 52 + p.mantissa).toUInt64 := by
  obtain ⟨hd, hvalue⟩ := quotient_value p
  have hnear : |(p.quotient.1 / p.quotient.2 : ℚ) - p.mantissa * 2 ^ p.power| * (2 * 10 ^ 16) ≤
      p.mantissa * 2 ^ p.power := by
    rw [hvalue, sub_self, abs_zero, zero_mul]
    positivity
  rw [ofQuotient, quotientBits_of_near hp hm hd hnear]

theorem near_of_seventeen {a b : Nat} (hb : b ≠ 0) {x : ℚ} {k : ℤ} (hgrid : (a / b : ℚ) = x * 10 ^ (16 - k))
    (hk : (10 : ℚ) ^ k ≤ x) : |(roundHalfEven a b * 10 ^ (-(16 - k)) : ℚ) - x| * (2 * 10 ^ 16) ≤ x := by
  have hunit : (0 : ℚ) < 10 ^ (-(16 - k)) := zpow_pos (by norm_num) _
  have hback : x = a / b * 10 ^ (-(16 - k)) := by
    rw [hgrid, zpow_neg, mul_inv_cancel_right₀ (zpow_ne_zero _ (by norm_num))]
  have hsixteen : (10 : ℚ) ^ (-(16 - k)) * 10 ^ 16 = 10 ^ k := by
    rw [show -(16 - k) = k - 16 by ring, zpow_sub₀ (by norm_num)]
    exact div_mul_cancel₀ _ (by norm_num)
  calc |(roundHalfEven a b * 10 ^ (-(16 - k)) : ℚ) - x| * (2 * 10 ^ 16)
      = |(roundHalfEven a b : ℚ) - a / b| * (2 * (10 ^ (-(16 - k)) * 10 ^ 16)) := by
        conv_lhs => rw [hback, ← sub_mul, abs_mul, abs_of_pos hunit]
        ring
    _ ≤ 1 / 2 * (2 * (10 ^ (-(16 - k)) * 10 ^ 16)) := by
        gcongr
        exact Binary64.roundHalfEven_near a hb
    _ = 10 ^ k := by
        rw [hsixteen]
        ring
    _ ≤ x := hk

/-- a number is hit on the grid of seventeen digits -/
theorem exists_hit (hp : p.IsProper) (hm : p.mantissa ≠ 0) :
    ∃ hit, hitAt p.quotient.1 p.quotient.2 17 = some hit := by
  obtain ⟨hd, hvalue⟩ := quotient_value p
  obtain ⟨hlow, hhigh⟩ := value_bounds hp hm
  have hn : p.quotient.1 ≠ 0 := mt (quotient_eq_zero_iff p).1 hm
  obtain ⟨k, hk⟩ : ∃ k, leadingPower p.quotient.1 p.quotient.2 = k := ⟨_, rfl⟩
  have hleading : (10 : ℚ) ^ k ≤ p.mantissa * 2 ^ p.power := by
    rw [← hvalue, ← hk]
    exact tens_leadingPower_le hn hd (by rwa [hvalue]) (by rwa [hvalue])
  obtain ⟨hb, hgrid⟩ := shifted_value p.quotient.1 hd (16 - k)
  obtain ⟨a, ha⟩ : ∃ a, (shifted p.quotient.1 p.quotient.2 (16 - k)).1 = a := ⟨_, rfl⟩
  obtain ⟨b, hb'⟩ : ∃ b, (shifted p.quotient.1 p.quotient.2 (16 - k)).2 = b := ⟨_, rfl⟩
  rw [ha, hb', hvalue] at hgrid
  rw [hb'] at hb
  have hreads : readsBack p.quotient.1 p.quotient.2 (roundHalfEven a b) (-(16 - k)) = true := by
    rw [readsBack, toFloat_of_near hp hm (near_of_seventeen hb hgrid hleading), ofQuotient_parts hp hm]
    exact beq_self_eq_true _
  refine ⟨(roundHalfEven a b, -(16 - k)), ?_⟩
  have hshift : ((17 : ℕ) : ℤ) - 1 - leadingPower p.quotient.1 p.quotient.2 = 16 - k := by
    rw [hk]
    rfl
  simp only [hitAt, hshift, ha, hb', gridNeighbours, List.findSome?_cons, hreads, if_true]

/-- **The fewest digits** of a number read as its magnitude. -/
theorem toFloat_shortestDigits (hp : p.IsProper) (hm : p.mantissa ≠ 0) :
    toFloat (shortestDigits p.quotient.1 p.quotient.2).1 (shortestDigits p.quotient.1 p.quotient.2).2 =
      Float.ofBits ((p.power + 1074).toNat * 2 ^ 52 + p.mantissa).toUInt64 := by
  obtain ⟨hit, hhit⟩ := exists_hit hp hm
  have hsome : ((List.range 17).findSome? fun n => hitAt p.quotient.1 p.quotient.2 (n + 1)).isSome := by
    rw [List.findSome?_isSome_iff]
    exact ⟨16, List.mem_range.2 (by decide), by rw [hhit]; rfl⟩
  obtain ⟨found, hfound⟩ := Option.isSome_iff_exists.1 hsome
  obtain ⟨n, -, hn⟩ := List.exists_of_findSome?_eq_some hfound
  have hreads := readsBack_of_hitAt hn
  rw [readsBack, beq_iff_eq, Float.toBits_inj] at hreads
  rw [shortestDigits, hfound, Option.getD_some, hreads]
  exact ofQuotient_parts hp hm

end UnitAlgebra.Decimal

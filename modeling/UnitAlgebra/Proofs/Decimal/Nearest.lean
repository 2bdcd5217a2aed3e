/-
Which bits a quotient is rounded to. It has its leading bit between two powers of two, is taken to the grid that 53 bits
from there leave, and rounded on it. What lies so near to a number that sixteen decimal digits cannot tell them apart
is rounded to that number, also just below a power of two, where the grid is twice as fine.

Results:
- `leadingBit_eq_iff`: the exponent of the leading bit.
- `quotientBits_congr`: equal quotients have equal bits.
- `quotientBits_of_near`: the bits of what lies near to a number.
-/
import Mathlib
import UnitAlgebra.Proofs.Decimal.Bits

namespace UnitAlgebra.Binary64

/-! ## The leading bit -/

theorem shiftLeft_cast (n k : Nat) : ((n <<< k : Nat) : ℚ) = n * 2 ^ (k : ℤ) := by
  rw [Nat.shiftLeft_eq, Nat.cast_mul, Nat.cast_pow, zpow_natCast]
  rfl

theorem log2_bounds {n : Nat} (h : n ≠ 0) :
    (2 : ℚ) ^ (Nat.log2 n : ℤ) ≤ n ∧ (n : ℚ) < 2 ^ ((Nat.log2 n : ℤ) + 1) := by
  have hlow : 2 ^ Nat.log2 n ≤ n := Nat.log2_self_le h
  have hhigh : n < 2 ^ (Nat.log2 n + 1) := Nat.lt_log2_self
  constructor
  · rw [zpow_natCast]
    exact_mod_cast hlow
  · rw [← Nat.cast_succ, zpow_natCast]
    exact_mod_cast hhigh

/-- powers of two are compared with a quotient by shifting one of its parts -/
theorem shifted_le_iff (num : Nat) {den : Nat} (hd : den ≠ 0) (e : ℤ) :
    (if 0 ≤ e then den <<< e.toNat ≤ num else den ≤ num <<< (-e).toNat) ↔ (2 : ℚ) ^ e ≤ num / den := by
  have hden : (0 : ℚ) < den := by exact_mod_cast Nat.pos_of_ne_zero hd
  rw [le_div_iff₀ hden]
  split
  · next he =>
    rw [← Nat.cast_le (α := ℚ), shiftLeft_cast, Int.toNat_of_nonneg he, mul_comm]
  · next he =>
    rw [← Nat.cast_le (α := ℚ), shiftLeft_cast, Int.toNat_of_nonneg (by omega), zpow_neg, ← div_eq_mul_inv,
      le_div_iff₀ (zpow_pos two_pos e), mul_comm]

/-- A positive quotient has its leading bit between two powers of two. -/
theorem leadingBit_bounds {num den : Nat} (hn : num ≠ 0) (hd : den ≠ 0) :
    (2 : ℚ) ^ leadingBit num den ≤ num / den ∧ (num / den : ℚ) < 2 ^ (leadingBit num den + 1) := by
  have hden : (0 : ℚ) < den := by exact_mod_cast Nat.pos_of_ne_zero hd
  obtain ⟨hnl, hnh⟩ := log2_bounds hn
  obtain ⟨hdl, hdh⟩ := log2_bounds hd
  have hreached := shifted_le_iff num hd ((Nat.log2 num : ℤ) - Nat.log2 den)
  have hlow : (2 : ℚ) ^ ((Nat.log2 num : ℤ) - Nat.log2 den - 1) ≤ num / den := by
    rw [le_div_iff₀ hden]
    calc (2 : ℚ) ^ ((Nat.log2 num : ℤ) - Nat.log2 den - 1) * den
        ≤ 2 ^ ((Nat.log2 num : ℤ) - Nat.log2 den - 1) * 2 ^ ((Nat.log2 den : ℤ) + 1) := by gcongr
      _ = 2 ^ (Nat.log2 num : ℤ) := by rw [← zpow_add₀ two_ne_zero]; congr 1; ring
      _ ≤ num := hnl
  have hhigh : (num / den : ℚ) < 2 ^ ((Nat.log2 num : ℤ) - Nat.log2 den + 1) := by
    rw [div_lt_iff₀ hden]
    calc (num : ℚ) < 2 ^ ((Nat.log2 num : ℤ) + 1) := hnh
      _ = 2 ^ ((Nat.log2 num : ℤ) - Nat.log2 den + 1) * 2 ^ (Nat.log2 den : ℤ) := by
        rw [← zpow_add₀ two_ne_zero]; congr 1; ring
      _ ≤ 2 ^ ((Nat.log2 num : ℤ) - Nat.log2 den + 1) * den := by gcongr
  simp only [leadingBit]
  by_cases h : (2 : ℚ) ^ ((Nat.log2 num : ℤ) - Nat.log2 den) ≤ num / den
  · rw [if_pos (hreached.2 h)]
    exact ⟨h, hhigh⟩
  · rw [if_neg (mt hreached.1 h), sub_add_cancel]
    exact ⟨hlow, not_le.1 h⟩

/-- The exponent of the leading bit. -/
theorem leadingBit_eq_iff {num den : Nat} (hn : num ≠ 0) (hd : den ≠ 0) (e : ℤ) :
    leadingBit num den = e ↔ (2 : ℚ) ^ e ≤ num / den ∧ (num / den : ℚ) < 2 ^ (e + 1) := by
  have hbounds := leadingBit_bounds hn hd
  constructor
  · rintro rfl
    exact hbounds
  · rintro ⟨hlow, hhigh⟩
    have hle := (zpow_lt_zpow_iff_right₀ one_lt_two).1 (hbounds.1.trans_lt hhigh)
    have hge := (zpow_lt_zpow_iff_right₀ one_lt_two).1 (hlow.trans_lt hbounds.2)
    omega

/-! ## Rounding -/

theorem roundHalfEven_near (num : Nat) {den : Nat} (hd : den ≠ 0) :
    |(roundHalfEven num den : ℚ) - num / den| ≤ 1 / 2 := by
  have hden : (0 : ℚ) < den := by exact_mod_cast Nat.pos_of_ne_zero hd
  obtain ⟨hbelow, habove⟩ := roundHalfEven_error num (Nat.pos_of_ne_zero hd)
  have hb : (2 * num : ℚ) ≤ (2 * roundHalfEven num den + 1) * den := by exact_mod_cast hbelow
  have ha : (2 * roundHalfEven num den * den : ℚ) ≤ 2 * num + den := by exact_mod_cast habove
  have hlow : (num / den : ℚ) ≤ roundHalfEven num den + 1 / 2 := by
    rw [div_le_iff₀ hden]
    linarith
  have hhigh : (roundHalfEven num den : ℚ) - 1 / 2 ≤ num / den := by
    rw [le_div_iff₀ hden]
    linarith
  rw [abs_le]
  constructor <;> linarith

/-- a quotient within less than half a unit of a natural is rounded to it -/
theorem roundHalfEven_of_near {num den n : Nat} (hd : den ≠ 0) (h : |(num / den : ℚ) - n| < 1 / 2) :
    roundHalfEven num den = n := by
  have hclose : |(roundHalfEven num den : ℚ) - n| < 1 := by
    calc |(roundHalfEven num den : ℚ) - n|
        ≤ |(roundHalfEven num den : ℚ) - num / den| + |(num / den : ℚ) - n| := abs_sub_le _ _ _
      _ < 1 / 2 + 1 / 2 := add_lt_add_of_le_of_lt (roundHalfEven_near num hd) h
      _ = 1 := by norm_num
  have hint : |(roundHalfEven num den : ℤ) - n| < 1 := by exact_mod_cast hclose
  rw [Int.abs_lt_one_iff] at hint
  omega

theorem roundHalfEven_congr {a b c d : Nat} (hb : b ≠ 0) (hd : d ≠ 0) (h : a * d = c * b) :
    roundHalfEven a b = roundHalfEven c d := by
  -- both quotients are rounded as the one with the product of the divisors
  have hscale (x y k : Nat) (hk : k ≠ 0) : roundHalfEven (x * k) (y * k) = roundHalfEven x y := by
    have hpos := Nat.pos_of_ne_zero hk
    have hlt (m n : Nat) : m * k < n * k ↔ m < n := Nat.mul_lt_mul_right hpos
    simp only [roundHalfEven, Nat.mul_div_mul_right _ _ hpos, Nat.mul_mod_mul_right, ← Nat.mul_assoc, hlt]
  rw [← hscale a b d hd, ← hscale c d b hb, h, Nat.mul_comm b d]

theorem round_of_near {num den n : Nat} (hd : den ≠ 0) {q : ℤ} (h : |(num / den : ℚ) / 2 ^ q - n| < 1 / 2) :
    (if 0 ≤ q then roundHalfEven num (den <<< q.toNat) else roundHalfEven (num <<< (-q).toNat) den) = n := by
  split
  · next hq =>
    have hshift : den <<< q.toNat ≠ 0 := by
      rw [Nat.shiftLeft_eq]
      exact Nat.mul_ne_zero hd (Nat.two_pow_pos _).ne'
    refine roundHalfEven_of_near hshift ?_
    rwa [shiftLeft_cast, Int.toNat_of_nonneg hq, ← div_div]
  · next hq =>
    refine roundHalfEven_of_near hd ?_
    rwa [shiftLeft_cast, Int.toNat_of_nonneg (by omega), zpow_neg, ← div_eq_mul_inv, div_right_comm]

/-! ## Bits -/

theorem quotientBits_zero (den : Nat) : quotientBits 0 den = 0 := if_pos rfl

/-- Equal quotients have equal bits. -/
theorem quotientBits_congr {a b c d : Nat} (hb : b ≠ 0) (hd : d ≠ 0) (h : a * d = c * b) :
    quotientBits a b = quotientBits c d := by
  by_cases ha : a = 0
  · have hc : c = 0 := by
      rw [ha, Nat.zero_mul] at h
      exact (Nat.mul_eq_zero.1 h.symm).resolve_right hb
    rw [ha, hc, quotientBits_zero, quotientBits_zero]
  · have hc : c ≠ 0 := by
      rintro rfl
      rw [Nat.zero_mul] at h
      exact (Nat.mul_eq_zero.1 h).elim ha hd
    have hb0 : (b : ℚ) ≠ 0 := by exact_mod_cast hb
    have hd0 : (d : ℚ) ≠ 0 := by exact_mod_cast hd
    have hquotient : (a / b : ℚ) = c / d := by
      rw [div_eq_div_iff hb0 hd0]
      exact_mod_cast h
    have hleading : leadingBit a b = leadingBit c d := by
      rw [leadingBit_eq_iff ha hb, hquotient]
      exact leadingBit_bounds hc hd
    have hround (q : ℤ) :
        (if 0 ≤ q then roundHalfEven a (b <<< q.toNat) else roundHalfEven (a <<< (-q).toNat) b) =
          if 0 ≤ q then roundHalfEven c (d <<< q.toNat) else roundHalfEven (c <<< (-q).toNat) d := by
      have hpow (k : Nat) : 2 ^ k ≠ 0 := (Nat.two_pow_pos k).ne'
      simp only [Nat.shiftLeft_eq]
      split
      · refine roundHalfEven_congr (Nat.mul_ne_zero hb (hpow _)) (Nat.mul_ne_zero hd (hpow _)) ?_
        rw [← Nat.mul_assoc, h, Nat.mul_assoc]
      · refine roundHalfEven_congr hb hd ?_
        rw [Nat.mul_right_comm, h, Nat.mul_right_comm]
    simp only [quotientBits, ha, hc, if_false, hleading, hround]

/-- the bits of a quotient, from the place of its leading bit and its rounding on the grid there -/
theorem quotientBits_eq {num den m : Nat} {q : ℤ} (hn : num ≠ 0) (hd : den ≠ 0)
    (hq : max (leadingBit num den - 52) (-1074) = q) (hm : |(num / den : ℚ) / 2 ^ q - m| < 1 / 2)
    (hfinite : (q + 1074).toNat * 2 ^ 52 + m < 0x7FF <<< 52) :
    quotientBits num den = (q + 1074).toNat * 2 ^ 52 + m := by
  simp only [quotientBits, hn, if_false, hq, round_of_near hd hm]
  rw [Nat.shiftLeft_eq]
  exact Nat.min_eq_left hfinite.le

theorem le_leadingBit_iff {num den : Nat} (hn : num ≠ 0) (hd : den ≠ 0) (q k : ℤ) :
    q + k ≤ leadingBit num den ↔ (2 : ℚ) ^ k ≤ (num / den : ℚ) / 2 ^ q := by
  obtain ⟨hlow, hhigh⟩ := leadingBit_bounds hn hd
  rw [le_div_iff₀ (zpow_pos two_pos q), ← zpow_add₀ two_ne_zero, add_comm k q]
  constructor
  · intro h
    exact (zpow_le_zpow_right₀ one_le_two h).trans hlow
  · intro h
    have hlt := (zpow_lt_zpow_iff_right₀ one_lt_two).1 (h.trans_lt hhigh)
    omega

/-- the bits of a quotient of 53 bits, or on the lowest grid, that lies near to a place of the grid -/
theorem quotientBits_on_grid {num den m : Nat} {q : ℤ} (hn : num ≠ 0) (hd : den ≠ 0)
    (hlow : (2 : ℚ) ^ 52 ≤ (num / den : ℚ) / 2 ^ q ∨ q = -1074) (hhigh : (num / den : ℚ) / 2 ^ q < 2 ^ 53)
    (hlowest : -1074 ≤ q) (hm : |(num / den : ℚ) / 2 ^ q - m| < 1 / 2)
    (hfinite : (q + 1074).toNat * 2 ^ 52 + m < 0x7FF <<< 52) :
    quotientBits num den = (q + 1074).toNat * 2 ^ 52 + m := by
  have hlt : leadingBit num den < q + 53 := not_le.1 (mt (le_leadingBit_iff hn hd q 53).1 (not_le.2 hhigh))
  have hplace : max (leadingBit num den - 52) (-1074) = q := by
    rcases hlow with h52 | hq
    · have hge : q + 52 ≤ leadingBit num den := (le_leadingBit_iff hn hd q 52).2 h52
      omega
    · omega
  exact quotientBits_eq hn hd hplace hm hfinite

/-- how far a value lies from a number nearby, in units of its last place -/
theorem near_in_units {x : ℚ} {m : Nat} {q : ℤ} (h : |x - m * 2 ^ q| * (2 * 10 ^ 16) ≤ m * 2 ^ q) :
    -(m / (2 * 10 ^ 16)) ≤ x / 2 ^ q - m ∧ x / 2 ^ q - m ≤ m / (2 * 10 ^ 16) := by
  have hunit : (0 : ℚ) < 2 ^ q := zpow_pos two_pos q
  have hvalue : x = x / 2 ^ q * 2 ^ q := (div_mul_cancel₀ _ hunit.ne').symm
  rw [hvalue, ← sub_mul, abs_mul, abs_of_pos hunit, mul_right_comm] at h
  rw [← abs_le, le_div_iff₀ (by norm_num)]
  exact le_of_mul_le_mul_right h hunit

/-- **The number nearby.** What sixteen decimal digits cannot tell from a number has its bits. -/
theorem quotientBits_of_near {num den : Nat} {p : Parts} (hp : p.IsProper) (hm : p.mantissa ≠ 0) (hd : den ≠ 0)
    (h : |(num / den : ℚ) - p.mantissa * 2 ^ p.power| * (2 * 10 ^ 16) ≤ p.mantissa * 2 ^ p.power) :
    quotientBits num den = (p.power + 1074).toNat * 2 ^ 52 + p.mantissa := by
  obtain ⟨neg, m, q⟩ := p
  simp only at *
  have hpos : (1 : ℚ) ≤ m := by exact_mod_cast Nat.pos_of_ne_zero hm
  have hm53 : (m : ℚ) + 1 ≤ 2 ^ 53 := by
    have hlt : m + 1 ≤ 2 ^ 53 := hp.mantissa_lt
    exact_mod_cast hlt
  have hlowest : -1074 ≤ q := hp.lowest_le
  have hfinite : (q + 1074).toNat * 2 ^ 52 + m < 0x7FF <<< 52 := hp.finite
  obtain ⟨hbelow, habove⟩ := near_in_units h
  have htiny : (m : ℚ) / (2 * 10 ^ 16) < 1 / 2 := by
    rw [div_lt_iff₀ (by norm_num)]
    linarith
  have hn : num ≠ 0 := by
    rintro rfl
    rw [Nat.cast_zero, zero_div, zero_div] at hbelow
    linarith
  by_cases hgrid : (2 : ℚ) ^ 52 ≤ (num / den : ℚ) / 2 ^ q ∨ q = -1074
  · -- the grid is that of the number
    refine quotientBits_on_grid hn hd hgrid (by linarith) hlowest ?_ hfinite
    rw [abs_lt]
    constructor <;> linarith
  · -- just below a power of two, where the grid is twice as fine
    obtain ⟨h52, hq⟩ := not_or.1 hgrid
    rw [not_le] at h52
    have hm52 : m = 2 ^ 52 := by
      have hle : 2 ^ 52 ≤ m := hp.normal.resolve_left hq
      have hlt : (m : ℚ) < 2 ^ 52 + 1 := by linarith
      have hlt : m < 2 ^ 52 + 1 := by exact_mod_cast hlt
      omega
    have htwice : (num / den : ℚ) / 2 ^ (q - 1) = 2 * ((num / den : ℚ) / 2 ^ q) := by
      rw [zpow_sub_one₀ two_ne_zero]
      field_simp
    have hbits : (q - 1 + 1074).toNat * 2 ^ 52 + 2 ^ 53 = (q + 1074).toNat * 2 ^ 52 + m := by omega
    rw [hm52] at hbelow habove
    push_cast at hbelow habove
    rw [← hbits] at hfinite ⊢
    refine quotientBits_on_grid hn hd (.inl ?_) ?_ (by omega) ?_ hfinite
    · rw [htwice]
      linarith
    · rw [htwice]
      linarith
    · rw [htwice, abs_lt]
      push_cast
      constructor <;> linarith

end UnitAlgebra.Binary64

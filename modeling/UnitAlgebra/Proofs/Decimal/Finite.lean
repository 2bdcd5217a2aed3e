/-
When a floating point number is finite, read off its exponent bits, and what the number one does. An integer below
`10^300` has a finite floating point number next to it, so that one may be raised to its power.

Results:
- `isInf_ofInt`: an integer below `10^300` is not rounded to infinity.
- `isZero_of_isOne`: what compares equal to one does not compare equal to zero.
- `power_of_isOne`: one may be raised to every power with an exponent below `10^300`.
-/
import Mathlib
import UnitAlgebra.Decimal.Functions

namespace UnitAlgebra.Binary64

open Float.Model UnpackedFloat

/-! ## Exponent bits -/

/-- a number whose exponent, written with its bias, leaves the largest one free -/
def Moderate : UnpackedFloat → Prop
  | .zero _ => True
  | .finite _ _ e _ => e + 1075 < 2047
  | _ => False

theorem isInf_of_moderate {f : UnpackedFloat} (h : Moderate f) : f.isInf = false := by
  cases f with
  | zero _ => rfl
  | finite _ _ _ _ => rfl
  | infinity _ => exact h.elim
  | notANumber => exact h.elim

theorem Moderate.neg {f : UnpackedFloat} (h : Moderate f) : Moderate f.neg := by
  cases f with
  | zero _ => trivial
  | finite _ _ _ _ => exact h
  | infinity _ => exact h.elim
  | notANumber => exact h.elim

theorem moderate_unpack {b : BitVec Format.binary64.numBits} (h : unpackExponent b ≠ -1#_) :
    Moderate (UnpackedFloat.unpack .binary64 b) := by
  have hlt : (unpackExponent b : BitVec Format.binary64.exponentBits).toNat < 2047 := by
    have hne : (unpackExponent b : BitVec Format.binary64.exponentBits).toNat ≠ 2047 := fun heq =>
      h (BitVec.eq_of_toNat_eq heq)
    have := (unpackExponent b : BitVec Format.binary64.exponentBits).isLt
    change _ < 2 ^ 11 at this
    omega
  have hbias : ((Format.binary64.exponentBias : Nat) : Int) + (Format.binary64.mantissaBitsWithoutImplicit : Nat) =
    1075 := rfl
  unfold UnpackedFloat.unpack
  simp only [h, if_false, hbias]
  split
  · next hzero =>
    rw [hzero]
    split
    · trivial
    · change (((0#_ : BitVec Format.binary64.exponentBits).toNat : Int) - 1075 + 1) + 1075 < 2047
      decide
  · change (_ : Int) - 1075 + 1075 < 2047
    omega

theorem unpackExponent_pack {f : UnpackedFloat} (h : Moderate f) :
    unpackExponent (UnpackedFloat.pack .binary64 f) ≠ -1#(Format.binary64.exponentBits) := by
  cases f with
  | infinity _ => exact h.elim
  | notANumber => exact h.elim
  | zero s =>
    rw [UnpackedFloat.pack, packedZero, unpackExponent_packComponents]
    decide
  | finite s m e hm =>
    have hbiased : (e + ((Format.binary64.exponentBias : Nat) : Int) +
        (Format.binary64.mantissaBitsWithoutImplicit : Nat)).toNat < 2047 := by
      change (e + 1023 + 52).toNat < 2047
      have : e + 1075 < 2047 := h
      omega
    simp only [UnpackedFloat.pack]
    split
    · next hle =>
      change 2048 ≤ (e + 1023 + 52).toNat + 1 at hle
      change (e + 1023 + 52).toNat < 2047 at hbiased
      omega
    · split
      · rw [unpackExponent_packComponents]
        intro heq
        have := congrArg BitVec.toNat heq
        rw [BitVec.toNat_ofNat, Nat.mod_eq_of_lt (Nat.lt_trans hbiased (by decide))] at this
        exact absurd this (Nat.ne_of_lt hbiased)
      · rw [unpackExponent_packComponents]
        decide

theorem moderate_pack {f : UnpackedFloat} (h : Moderate f) : Moderate (Float.Model.pack f).unpack :=
  moderate_unpack (unpackExponent_pack h)

theorem moderate_ofBits {b : Nat} (h : b < 0x7FF <<< 52) : Moderate (Float.ofBits b.toUInt64).toModel.unpack := by
  refine moderate_pack (moderate_unpack fun heq => ?_)
  have hexp := congrArg BitVec.toNat heq
  have hb : b.toUInt64.toBitVec.toNat = b := by
    rw [UInt64.toNat_toBitVec, Nat.toUInt64_eq, UInt64.toNat_ofNat']
    exact Nat.mod_eq_of_lt (Nat.lt_trans h (by decide))
  rw [unpackExponent, BitVec.toNat_cast, BitVec.extractLsb_toNat, hb] at hexp
  change b >>> 52 % 2 ^ 11 = 2047 at hexp
  rw [Nat.shiftRight_eq_div_pow] at hexp
  have : b < 2047 * 2 ^ 52 := h
  omega

theorem isInf_ofSignedQuotient {negative : Bool} {num den : Nat} (h : quotientBits num den < 0x7FF <<< 52) :
    (ofSignedQuotient negative num den).isInf = false := by
  have hm := moderate_ofBits h
  cases negative with
  | false => exact isInf_of_moderate hm
  | true => exact isInf_of_moderate (moderate_pack hm.neg)

/-! ## Integers -/

theorem leadingBit_one {n : Nat} (h : n ≠ 0) : leadingBit n 1 = Nat.log2 n := by
  have hlog : Nat.log2 1 = 0 := by decide
  have hreached : 1 <<< Nat.log2 n ≤ n := by
    rw [Nat.one_shiftLeft]
    exact Nat.log2_self_le h
  unfold leadingBit
  simp [hlog, hreached]

theorem roundHalfEven_le (num den : Nat) : roundHalfEven num den ≤ num / den + 1 := by
  unfold roundHalfEven
  simp only
  split_ifs <;> omega

/-- the integers below a power of two that is itself finite -/
theorem quotientBits_lt {n : Nat} (hlog : Nat.log2 n < 1000) : quotientBits n 1 < 0x7FF <<< 52 := by
  unfold quotientBits
  split
  · decide
  · next hn =>
    rw [leadingBit_one hn]
    refine Nat.lt_of_le_of_lt (Nat.min_le_left _ _) ?_
    -- the mantissa is rounded to 53 bits, or one more than that
    have hround : ∀ q : Int, q = max ((Nat.log2 n : Int) - 52) (-1074) →
        (if 0 ≤ q then roundHalfEven n (1 <<< q.toNat) else roundHalfEven (n <<< (-q).toNat) 1) ≤ 2 ^ 53 := by
      intro q hq
      have hself : n < 2 ^ (Nat.log2 n + 1) := Nat.lt_log2_self
      split
      · next hpos =>
        refine (roundHalfEven_le _ _).trans ?_
        rw [Nat.one_shiftLeft]
        have hdiv : n / 2 ^ q.toNat < 2 ^ 53 := by
          rw [Nat.div_lt_iff_lt_mul (Nat.two_pow_pos _), ← Nat.pow_add]
          exact Nat.lt_of_lt_of_le hself (Nat.pow_le_pow_right (by decide) (by omega))
        omega
      · next hneg =>
        refine (roundHalfEven_le _ _).trans ?_
        rw [Nat.div_one, Nat.shiftLeft_eq]
        have hmul : n * 2 ^ (-q).toNat < 2 ^ 53 := by
          calc n * 2 ^ (-q).toNat < 2 ^ (Nat.log2 n + 1) * 2 ^ (-q).toNat :=
                Nat.mul_lt_mul_of_pos_right hself (Nat.two_pow_pos _)
            _ = 2 ^ (Nat.log2 n + 1 + (-q).toNat) := (Nat.pow_add ..).symm
            _ = 2 ^ 53 := by rw [show Nat.log2 n + 1 + (-q).toNat = 53 by omega]
        omega
    have hm := hround _ rfl
    have hq : (max ((Nat.log2 n : Int) - 52) (-1074) + 1074).toNat ≤ 2021 := by omega
    calc _ ≤ 2021 * 2 ^ 52 + 2 ^ 53 := by
          rw [Nat.shiftLeft_eq _ 52]
          exact Nat.add_le_add (Nat.mul_le_mul_right _ hq) hm
      _ < 0x7FF * 2 ^ 52 := by norm_num
      _ = 0x7FF <<< 52 := rfl

theorem log2_lt_of_lt_pow {n : Nat} (k : Nat) (hk : 0 < k) (h : n < 10 ^ (3 * k)) : Nat.log2 n < 10 * k := by
  rcases Nat.eq_zero_or_pos n with rfl | hpos
  · rw [Nat.log2_zero]
    omega
  · refine (Nat.log2_lt (Nat.pos_iff_ne_zero.1 hpos)).2 (h.trans ?_)
    rw [Nat.pow_mul, Nat.pow_mul]
    exact Nat.pow_lt_pow_left (by decide) (Nat.pos_iff_ne_zero.1 hk)

/-- An integer below `10^300` is not rounded to infinity. -/
theorem isInf_ofInt {n : Int} (h : n.natAbs < 10 ^ 300) : (ofInt n).isInf = false := by
  rw [show 300 = 3 * 100 from rfl] at h
  exact isInf_ofSignedQuotient (quotientBits_lt (log2_lt_of_lt_pow 100 (by decide) h))

/-! ## One -/

/-- What compares equal to one does not compare equal to zero. -/
theorem isZero_of_isOne {x : Float} (h : Numeric.isOne x = true) : Numeric.isZero x = false := by
  have hone : x.toModel.unpack.beq (1.0 : Float).toModel.unpack = true := h
  change x.toModel.unpack.beq (0.0 : Float).toModel.unpack = false
  have one : (1.0 : Float).toModel.unpack = .finite .positive (2 ^ 52) (-52) (by decide) := rfl
  have zero : (0.0 : Float).toModel.unpack = .zero .positive := rfl
  rw [one] at hone
  rw [zero]
  cases hx : x.toModel.unpack with
  | finite s m e hm => cases s <;> rfl
  | zero s =>
    rw [hx] at hone
    cases hone
  | infinity s => cases s <;> rfl
  | notANumber => rfl

/-- **Powers of one.** One may be raised to every power with an exponent below `10^300`. -/
theorem power_of_isOne {x : Float} {n : Int} (hx : Numeric.isOne x = true) (hn : n.natAbs < 10 ^ 300) :
    Numeric.power x n = .ok 1.0 := by
  change power x n = .ok 1.0
  have hzero : (x == 0.0) = false := isZero_of_isOne hx
  have hone : (x == 1.0) = true := hx
  simp [power, isInf_ofInt hn, hzero, hone]

end UnitAlgebra.Binary64

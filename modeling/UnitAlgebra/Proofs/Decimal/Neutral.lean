/-
Numbers that change nothing: one as a factor, and negative zero as a summand. The product with one has the mantissa of
the other factor, which is shifted up and down again, so nothing of it is rounded off.

Results:
- `fits_of_unpack`: the mantissa and the exponent of a number fit its format.
- `round_scaled`: what fits is kept when it is rounded after being shifted up.
- `one_mul`, `negZero_add`: so floating point numbers have neutral numbers.
-/
import UnitAlgebra.Proofs.Decimal.Comparing
import UnitAlgebra.Proofs.Numeric.Sums

namespace UnitAlgebra.Binary64

open Float.Model UnpackedFloat

/-! ## Mantissas that fit -/

/-- a mantissa and an exponent as the format has them -/
def Fits (m : Nat) (e : Int) : Prop := Format.binary64.targetExponent (totalExponent m e) = e

theorem fits_iff {m : Nat} {e : Int} : Fits m e ↔ max ((m.log2 : Int) + 1 + e - 53) (-1074) = e := by
  have htarget (t : Int) : Format.binary64.targetExponent t = max (t - 53) (-1074) := rfl
  rw [Fits, htarget, totalExponent]

theorem fits_of_unpack {x : Float} {s : Sign} {m : Nat} {e : Int} {hm : 0 < m}
    (h : x.toModel.unpack = .finite s m e hm) : Fits m e := by
  change UnpackedFloat.unpack .binary64 x.toBits.toBitVec = _ at h
  have hbias : ((Format.binary64.exponentBias : Nat) : Int) + (Format.binary64.mantissaBitsWithoutImplicit : Nat) =
    1075 := rfl
  rw [fits_iff]
  unfold UnpackedFloat.unpack at h
  simp only [hbias] at h
  split at h
  · split at h <;> cases h
  · next htop =>
    have hlt : (@unpackMantissa .binary64 x.toBits.toBitVec).toNat < 2 ^ 52 := BitVec.isLt _
    split at h
    · next hzero =>
      split at h
      · cases h
      · cases h
        have hlog := (Nat.log2_lt hm.ne').2 hlt
        have hlowest : ((0#(Format.binary64.exponentBits)).toNat : Int) - 1075 + 1 = -1074 := rfl
        rw [hzero, hlowest]
        omega
    · next hzero =>
      cases h
      have hpos : (@unpackExponent .binary64 x.toBits.toBitVec).toNat ≠ 0 := fun hnull =>
        hzero (BitVec.eq_of_toNat_eq hnull)
      have hmantissa : (1#1 ++ @unpackMantissa .binary64 x.toBits.toBitVec).toNat =
          2 ^ 52 + (@unpackMantissa .binary64 x.toBits.toBitVec).toNat := by
        rw [BitVec.toNat_append, ← Nat.shiftLeft_add_eq_or_of_lt hlt]
        rfl
      have hlog : (1#1 ++ @unpackMantissa .binary64 x.toBits.toBitVec).toNat.log2 = 52 := by
        rw [hmantissa, Nat.log2_eq_iff (by omega)]
        omega
      rw [hlog]
      omega

/-! ## Products with one -/

theorem shiftRight_scaled (m n : Nat) : ExtendedMantissa.ofMantissaAndAccuracy (m * 2 ^ n) .exact >>> n =
    ExtendedMantissa.ofMantissaAndAccuracy m .exact := by
  induction n generalizing m with
  | zero => rw [Nat.pow_zero, Nat.mul_one]; rfl
  | succ n ih =>
    have hdouble : m * 2 ^ (n + 1) = m * 2 * 2 ^ n := by ring
    have hshift (a : ExtendedMantissa) : a >>> (n + 1) = (a >>> n).shiftRightOne := rfl
    rw [hdouble, hshift, ih]
    simp [ExtendedMantissa.shiftRightOne, ExtendedMantissa.ofMantissaAndAccuracy]

/-- what fits is kept when it is rounded after having been shifted up -/
theorem round_scaled (s : Sign) {m : Nat} {e : Int} (hm : 0 < m) (h : Fits m e) (n : Nat) :
    roundWithAccuracy .binary64 s (m * 2 ^ n) (e - n) .exact = .finite s m e hm := by
  have hlog : (m * 2 ^ n).log2 = m.log2 + n := by
    have hself := Nat.log2_self_le hm.ne'
    have hlt := Nat.lt_log2_self (n := m)
    rw [Nat.log2_eq_iff (Nat.mul_ne_zero hm.ne' (Nat.two_pow_pos n).ne'), Nat.pow_add, Nat.add_right_comm, Nat.pow_add]
    exact ⟨Nat.mul_le_mul_right _ hself, Nat.mul_lt_mul_of_pos_right hlt (Nat.two_pow_pos n)⟩
  have htotal : totalExponent (m * 2 ^ n) (e - n) = totalExponent m e := by
    rw [totalExponent, totalExponent, hlog]
    push_cast
    ring
  have hfirst : shiftToTargetExponent .binary64 (m * 2 ^ n) (e - n) .exact =
      (ExtendedMantissa.ofMantissaAndAccuracy m .exact, e) := by
    have hamount : (e - (e - n)).toNat = n := by omega
    simp only [shiftToTargetExponent, shiftToExponent, htotal, show Format.binary64.targetExponent _ = e from h,
      hamount, shiftRight_scaled, sub_add_cancel]
  have hsecond : shiftToTargetExponent .binary64 m e .exact = (ExtendedMantissa.ofMantissaAndAccuracy m .exact, e) := by
    have hamount : (e - e).toNat = 0 := by omega
    simp only [shiftToTargetExponent, shiftToExponent, show Format.binary64.targetExponent _ = e from h, hamount,
      Nat.cast_zero, add_zero]
    rfl
  have hrounded : (ExtendedMantissa.ofMantissaAndAccuracy m .exact).roundedMantissa = m := rfl
  rw [roundWithAccuracy, hfirst]
  simp only [hrounded, hsecond]
  exact dif_neg hm.ne'

theorem eq_of_toModel {x y : Float} (h : y.toModel = pack x.toModel.unpack) : y = x := by
  have hkept : x.toModel.unpack.pack .binary64 = x.toBits.toBitVec := pack_unpack_of_valid x.toModel.valid
  rw [← Float.toBits_inj, ← UInt64.toBitVec_inj, ← hkept]
  exact congrArg (fun f => f.toBits.toBitVec) h

/-- One changes no factor. -/
theorem one_mul (x : Float) : 1.0 * x = x := by
  have hone : (1.0 : Float).toModel.unpack = .finite .positive (2 ^ 52) (-52) (by decide) := rfl
  have hproduct : UnpackedFloat.mul .binary64 (1.0 : Float).toModel.unpack x.toModel.unpack = x.toModel.unpack := by
    rw [hone]
    cases hx : x.toModel.unpack with
    | notANumber => rfl
    | infinity s => cases s <;> rfl
    | zero s => cases s <;> rfl
    | finite s m e hm =>
      have hsign : Sign.positive * s = s := by cases s <;> rfl
      have hscaled := round_scaled s hm (fits_of_unpack hx) 52
      change roundWithAccuracy .binary64 (Sign.positive * s) (2 ^ 52 * m) (-52 + e) .exact = _
      rw [hsign, Nat.mul_comm, Int.add_comm]
      exact hscaled
  exact eq_of_toModel (congrArg pack hproduct)

/-- Negative zero changes no summand. -/
theorem negZero_add (x : Float) : -0.0 + x = x := by
  have hnull : (-0.0 : Float).toModel.unpack = .zero .negative := rfl
  have hsum : UnpackedFloat.add .binary64 (-0.0 : Float).toModel.unpack x.toModel.unpack = x.toModel.unpack := by
    rw [hnull]
    cases x.toModel.unpack with
    | zero s => cases s <;> rfl
    | _ => rfl
  exact eq_of_toModel (congrArg pack hsum)

/-- Floating point numbers have neutral numbers. -/
instance : Numeric.Neutral Float where
  one_mul := one_mul
  negZero_add := negZero_add

end UnitAlgebra.Binary64

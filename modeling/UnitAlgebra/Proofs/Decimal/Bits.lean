/-
Floating point numbers by their bits: a sign bit and 63 bits of magnitude, those above the magnitude of infinity left to
the one number that is not a number.

Results:
- `ofBits_magnitude`: sign and magnitude make the number again.
- `magnitude_parts`: the magnitude from mantissa and power.
-/
import Mathlib
import UnitAlgebra.Proofs.Decimal.Finite

namespace UnitAlgebra.Binary64

open Float.Model UnpackedFloat

/-! ## Fields of 64 bits -/

/-- the bits without the sign -/
def magnitude (x : Float) : Nat := x.toBits.toNat % 2 ^ 63

theorem toNat_unpackExponent (b : BitVec Format.binary64.numBits) :
    (unpackExponent b : BitVec Format.binary64.exponentBits).toNat = b.toNat / 2 ^ 52 % 2 ^ 11 := by
  rw [unpackExponent, BitVec.toNat_cast, BitVec.extractLsb_toNat, Nat.shiftRight_eq_div_pow]
  rfl

theorem toNat_unpackMantissa (b : BitVec Format.binary64.numBits) :
    (unpackMantissa b : BitVec Format.binary64.mantissaBitsWithoutImplicit).toNat = b.toNat % 2 ^ 52 := by
  rw [unpackMantissa, BitVec.toNat_cast, BitVec.extractLsb_toNat, Nat.shiftRight_zero]
  rfl

theorem unpackExponent_eq_iff (b : BitVec Format.binary64.numBits) :
    unpackExponent b = -1#(Format.binary64.exponentBits) ↔ b.toNat / 2 ^ 52 % 2 ^ 11 = 2047 := by
  rw [← toNat_unpackExponent, ← BitVec.toNat_inj]
  rfl

theorem unpackMantissa_eq_iff (b : BitVec Format.binary64.numBits) :
    unpackMantissa b = 0#(Format.binary64.mantissaBitsWithoutImplicit) ↔ b.toNat % 2 ^ 52 = 0 := by
  rw [← toNat_unpackMantissa, ← BitVec.toNat_inj]
  rfl

theorem toNat_packComponents (s : Sign) (e : BitVec Format.binary64.exponentBits)
    (m : BitVec Format.binary64.mantissaBitsWithoutImplicit) :
    (packComponents Format.binary64 s e m).toNat = s.toBitVec.toNat * 2 ^ 63 + (e.toNat * 2 ^ 52 + m.toNat) := by
  have he : e.toNat < 2 ^ 11 := e.isLt
  have hm : m.toNat < 2 ^ 52 := m.isLt
  rw [packComponents, BitVec.toNat_append, BitVec.toNat_append, ← Nat.shiftLeft_add_eq_or_of_lt he,
    ← Nat.shiftLeft_add_eq_or_of_lt hm, Nat.shiftLeft_eq, Nat.shiftLeft_eq]
  change (s.toBitVec.toNat * 2 ^ 11 + e.toNat) * 2 ^ 52 + m.toNat = _
  omega

/-! ## Bits and back -/

theorem toNat_toUInt64 {b : Nat} (h : b < 2 ^ 64) : b.toUInt64.toBitVec.toNat = b := by
  rw [UInt64.toNat_toBitVec, Nat.toUInt64_eq, UInt64.toNat_ofNat']
  exact Nat.mod_eq_of_lt h

/-- bits up to those of infinity are kept -/
theorem toBits_ofBits {b : Nat} (h : b ≤ 0x7FF <<< 52) : (Float.ofBits b.toUInt64).toBits.toNat = b := by
  have hb : b ≤ 2047 * 2 ^ 52 := h
  have hnat : b.toUInt64.toBitVec.toNat = b := toNat_toUInt64 (by omega)
  have hbits : (Float.ofBits b.toUInt64).toBits.toBitVec =
      (UnpackedFloat.unpack .binary64 b.toUInt64.toBitVec).pack .binary64 := rfl
  have hnumber : @isNaNBits .binary64 b.toUInt64.toBitVec = false := by
    unfold isNaNBits
    rw [decide_eq_false_iff_not, unpackExponent_eq_iff, ne_eq, unpackMantissa_eq_iff, hnat]
    omega
  rw [← UInt64.toNat_toBitVec, hbits, pack_unpack, hnumber]
  exact hnat

theorem pack_neg {f : UnpackedFloat} (h : f ≠ .notANumber) : ∃ s e m,
    f.pack .binary64 = packComponents .binary64 s e m ∧ f.neg.pack .binary64 = packComponents .binary64 (-s) e m := by
  cases f with
  | notANumber => exact absurd rfl h
  | infinity s => exact ⟨s, _, _, rfl, rfl⟩
  | zero s => exact ⟨s, _, _, rfl, rfl⟩
  | finite s m e hm =>
    simp only [UnpackedFloat.neg, UnpackedFloat.pack]
    split
    · exact ⟨s, _, _, rfl, rfl⟩
    · split <;> exact ⟨s, _, _, rfl, rfl⟩

/-! ## Infinity and what is not a number -/

/-- infinity and what is not a number, told by the magnitude -/
theorem status_magnitude (x : Float) :
    (x.isNaN = true ↔ 0x7FF <<< 52 < magnitude x) ∧ (x.isInf = true ↔ magnitude x = 0x7FF <<< 52) := by
  have hlt : x.toBits.toNat < 2 ^ 64 := x.toBits.toNat_lt
  have hexponent := unpackExponent_eq_iff x.toBits.toBitVec
  have hmantissa := unpackMantissa_eq_iff x.toBits.toBitVec
  rw [UInt64.toNat_toBitVec] at hexponent hmantissa
  have htop : (0x7FF <<< 52 : Nat) = 2047 * 2 ^ 52 := rfl
  change ((UnpackedFloat.unpack .binary64 x.toBits.toBitVec).isNaN = true ↔ _) ∧
    ((UnpackedFloat.unpack .binary64 x.toBits.toBitVec).isInf = true ↔ _)
  have hparts := Nat.div_add_mod x.toBits.toNat (2 ^ 52)
  have hrest := Nat.mod_lt x.toBits.toNat (Nat.two_pow_pos 52)
  rw [magnitude, htop]
  generalize x.toBits.toNat / 2 ^ 52 = high at *
  generalize x.toBits.toNat % 2 ^ 52 = low at *
  fun_cases UnpackedFloat.unpack with
  | case1 _ _ _ _ he hm =>
    have := hexponent.1 he
    have := hmantissa.1 hm
    exact ⟨iff_of_false Bool.false_ne_true (by omega), iff_of_true rfl (by omega)⟩
  | case2 _ _ he hm =>
    have := hexponent.1 he
    have := mt hmantissa.2 hm
    exact ⟨iff_of_true rfl (by omega), iff_of_false Bool.false_ne_true (by omega)⟩
  | case3 _ _ _ _ he =>
    have := mt hexponent.2 he
    exact ⟨iff_of_false Bool.false_ne_true (by omega), iff_of_false Bool.false_ne_true (by omega)⟩
  | case4 _ _ _ _ _ he _ _ =>
    have := mt hexponent.2 he
    exact ⟨iff_of_false Bool.false_ne_true (by omega), iff_of_false Bool.false_ne_true (by omega)⟩
  | case5 _ _ _ _ _ he =>
    have := mt hexponent.2 he
    exact ⟨iff_of_false Bool.false_ne_true (by omega), iff_of_false Bool.false_ne_true (by omega)⟩

theorem magnitude_le {x : Float} (h : x.isNaN = false) : magnitude x ≤ 0x7FF <<< 52 := by
  rw [← Nat.not_lt, ← (status_magnitude x).1, h]
  exact Bool.false_ne_true

theorem magnitude_lt {x : Float} (hnan : x.isNaN = false) (hinf : x.isInf = false) : magnitude x < 0x7FF <<< 52 := by
  refine Nat.lt_of_le_of_ne (magnitude_le hnan) fun heq => ?_
  rw [(status_magnitude x).2.2 heq] at hinf
  exact absurd hinf (by decide)

theorem isFinite_eq (x : Float) : x.isFinite = (!x.isNaN && !x.isInf) := by
  change x.toModel.unpack.isFinite = (!x.toModel.unpack.isNaN && !x.toModel.unpack.isInf)
  cases x.toModel.unpack <;> rfl

theorem eq_nan {x : Float} (h : x.isNaN = true) : x = nan := by
  rw [Float.isNaN_eq_decide_eq_nan, decide_eq_true_eq] at h
  rw [h]
  rfl

/-! ## Signs -/

theorem toBits_neg {x : Float} (h : x.isNaN = false) :
    (-x).toBits.toNat = if isNegative x then magnitude x else 2 ^ 63 + magnitude x := by
  have hnumber : UnpackedFloat.unpack .binary64 x.toBits.toBitVec ≠ .notANumber := fun heq => by
    change (UnpackedFloat.unpack .binary64 x.toBits.toBitVec).isNaN = false at h
    rw [heq] at h
    exact absurd h (by decide)
  obtain ⟨s, e, m, hpack, hneg⟩ := pack_neg hnumber
  have hkept : (UnpackedFloat.unpack .binary64 x.toBits.toBitVec).pack .binary64 = x.toBits.toBitVec :=
    pack_unpack_of_valid x.toModel.valid
  rw [hkept] at hpack
  have hbits : x.toBits.toNat = s.toBitVec.toNat * 2 ^ 63 + (e.toNat * 2 ^ 52 + m.toNat) := by
    rw [← toNat_packComponents, ← hpack]
    rfl
  have hflipped : (-x).toBits.toNat = (-s).toBitVec.toNat * 2 ^ 63 + (e.toNat * 2 ^ 52 + m.toNat) := by
    rw [← toNat_packComponents, ← hneg]
    rfl
  have he : e.toNat < 2 ^ 11 := e.isLt
  have hm : m.toNat < 2 ^ 52 := m.isLt
  rw [hflipped, isNegative, magnitude, Nat.shiftRight_eq_div_pow, hbits]
  cases s with
  | negative =>
    have hone : (Sign.negative).toBitVec.toNat = 1 := rfl
    have hzero : (-Sign.negative).toBitVec.toNat = 0 := rfl
    rw [hone, hzero]
    split <;> simp_all <;> omega
  | positive =>
    have hone : (-Sign.positive).toBitVec.toNat = 1 := rfl
    have hzero : (Sign.positive).toBitVec.toNat = 0 := rfl
    rw [hone, hzero]
    split <;> simp_all <;> omega

/-- **Sign and magnitude.** They make the number again. -/
theorem ofBits_magnitude {x : Float} (h : x.isNaN = false) :
    (if isNegative x then -Float.ofBits (magnitude x).toUInt64 else Float.ofBits (magnitude x).toUInt64) = x := by
  have hle := magnitude_le h
  have hbits := toBits_ofBits hle
  have hlt : x.toBits.toNat < 2 ^ 64 := x.toBits.toNat_lt
  have hsmall : magnitude x < 2 ^ 63 := Nat.mod_lt _ (Nat.two_pow_pos 63)
  have hsame : magnitude (Float.ofBits (magnitude x).toUInt64) = magnitude x := by
    rw [magnitude, hbits]
    exact Nat.mod_eq_of_lt hsmall
  have hpositive : isNegative (Float.ofBits (magnitude x).toUInt64) = false := by
    rw [isNegative, hbits, Nat.shiftRight_eq_div_pow, decide_eq_false_iff_not]
    omega
  have hnumber : (Float.ofBits (magnitude x).toUInt64).isNaN = false := by
    rw [← Bool.not_eq_true, (status_magnitude _).1, hsame, Nat.not_lt]
    exact hle
  rw [← Float.toBits_inj, ← UInt64.toNat_inj]
  split
  · next hneg =>
    rw [isNegative, decide_eq_true_eq, Nat.shiftRight_eq_div_pow] at hneg
    rw [toBits_neg hnumber, hpositive, hsame, magnitude]
    simp only [Bool.false_eq_true, if_false]
    omega
  · next hneg =>
    rw [isNegative, decide_eq_true_eq, Nat.shiftRight_eq_div_pow] at hneg
    rw [hbits, magnitude]
    omega

theorem eq_infinity {x : Float} (hnan : x.isNaN = false) (hinf : x.isInf = true) :
    x = if isNegative x then -infinity else infinity := by
  conv_lhs => rw [← ofBits_magnitude hnan, (status_magnitude x).2.1 hinf]
  rfl

/-! ## Mantissa and power -/

/-- what mantissas and powers of finite numbers keep to -/
structure Parts.IsProper (p : Parts) : Prop where
  mantissa_lt : p.mantissa < 2 ^ 53
  lowest_le : -1074 ≤ p.power
  normal : p.power = -1074 ∨ 2 ^ 52 ≤ p.mantissa
  finite : (p.power + 1074).toNat * 2 ^ 52 + p.mantissa < 0x7FF <<< 52

/-- The magnitude from mantissa and power. -/
theorem magnitude_parts (x : Float) : (parts x).negative = isNegative x ∧
    magnitude x = ((parts x).power + 1074).toNat * 2 ^ 52 + (parts x).mantissa := by
  have hparts := Nat.div_add_mod x.toBits.toNat (2 ^ 52)
  have hone : (1 <<< 52 : Nat) = 2 ^ 52 := rfl
  rw [parts, magnitude, hone, Nat.shiftRight_eq_div_pow]
  split
  · next hzero =>
    refine ⟨rfl, ?_⟩
    simp only
    omega
  · next hzero =>
    refine ⟨rfl, ?_⟩
    simp only
    omega

theorem isProper_parts {x : Float} (hnan : x.isNaN = false) (hinf : x.isInf = false) : (parts x).IsProper := by
  have hlt := magnitude_lt hnan hinf
  rw [(magnitude_parts x).2] at hlt
  have hone : (1 <<< 52 : Nat) = 2 ^ 52 := rfl
  have hfraction := Nat.mod_lt x.toBits.toNat (Nat.two_pow_pos 52)
  have hfields : (parts x).mantissa < 2 ^ 53 ∧ -1074 ≤ (parts x).power ∧
      ((parts x).power = -1074 ∨ 2 ^ 52 ≤ (parts x).mantissa) := by
    rw [parts, hone]
    split
    · exact ⟨Nat.lt_trans hfraction (by decide), Int.le_refl _, .inl rfl⟩
    · next hzero =>
      refine ⟨?_, ?_, .inr (Nat.le_add_left _ _)⟩ <;> simp only <;> omega
  exact ⟨hfields.1, hfields.2.1, hfields.2.2, hlt⟩

end UnitAlgebra.Binary64

/-
Floating point numbers that compare equal: they are one number, or zeros whose signs may differ. Of two such numbers
either may stand in a product for the other.

Results:
- `eq_or_isNull`: what compares equal is one number, or zero.
- `equal_self`, `equal_comm`: a number compares equal to itself, and two in either order.
- `equal_mul`: products of factors that compare equal compare equal.
-/
import UnitAlgebra.Proofs.Decimal.Bits

namespace UnitAlgebra.Binary64

open Float.Model UnpackedFloat

/-! ## What compares equal -/

/-- zero of either sign -/
def IsNull (x : Float) : Prop := ∃ s, x.toModel.unpack = .zero s

theorem unpack_inj {x y : Float} (h : x.toModel.unpack = y.toModel.unpack) : x = y := by
  have hpacked (z : Float) : z.toBits.toBitVec = (z.toModel.unpack).pack .binary64 :=
    (pack_unpack_of_valid z.toModel.valid).symm
  rw [← Float.toBits_inj, ← UInt64.toBitVec_inj, hpacked x, hpacked y, h]

theorem compare_sign_eq {s t : Sign} (h : compare s t = .eq) : s = t := by
  cases s <;> cases t <;> first | rfl | cases h

theorem compare_finite_eq {m n : Nat} {e f : Int} (h : (compare e f).then (compare m n) = .eq) : m = n ∧ e = f := by
  rw [Ordering.then_eq_eq, Int.compare_eq_eq, Nat.compare_eq_eq] at h
  exact h.symm

/-- what compares equal is the same, or zero -/
theorem unpacked_equal {f g : UnpackedFloat} (h : f.beq g = true) :
    f = g ∨ (∃ s, f = .zero s) ∧ ∃ t, g = .zero t := by
  have hcompare : f.compare g = some .eq := beq_iff_eq.1 h
  cases f with
  | notANumber => cases hcompare
  | infinity s =>
    cases g with
    | infinity t => exact .inl (by rw [compare_sign_eq (Option.some.inj hcompare)])
    | _ => cases s <;> cases hcompare
  | zero s =>
    cases g with
    | zero t => exact .inr ⟨⟨s, rfl⟩, t, rfl⟩
    | notANumber => cases hcompare
    | infinity t => cases t <;> cases hcompare
    | finite t _ _ _ => cases t <;> cases hcompare
  | finite s m e _ =>
    cases g with
    | notANumber => cases s <;> cases hcompare
    | infinity t => cases s <;> cases t <;> cases hcompare
    | zero t => cases s <;> cases hcompare
    | finite t n f _ =>
      cases s <;> cases t
      case negative.positive => cases hcompare
      case positive.negative => cases hcompare
      case positive.positive =>
        obtain ⟨rfl, rfl⟩ := compare_finite_eq (Option.some.inj hcompare)
        exact .inl rfl
      case negative.negative =>
        have hsame : (compare e f).then (compare m n) = .eq := by
          rw [← Ordering.swap_inj, Ordering.swap_eq]
          exact Option.some.inj hcompare
        obtain ⟨rfl, rfl⟩ := compare_finite_eq hsame
        exact .inl rfl

/-- **What compares equal.** It is one number, or zero twice. -/
theorem eq_or_isNull {x y : Float} (h : (x == y) = true) : x = y ∨ IsNull x ∧ IsNull y :=
  (unpacked_equal h).imp unpack_inj id

theorem isNull_iff {x : Float} : IsNull x ↔ x = 0.0 ∨ x = -0.0 := by
  constructor
  · rintro ⟨s, hs⟩
    cases s with
    | positive => exact .inl (unpack_inj hs)
    | negative => exact .inr (unpack_inj hs)
  · rintro (rfl | rfl)
    · exact ⟨.positive, rfl⟩
    · exact ⟨.negative, rfl⟩

theorem equal_of_isNull {x y : Float} (hx : IsNull x) (hy : IsNull y) : (x == y) = true := by
  obtain ⟨s, hs⟩ := hx
  obtain ⟨t, ht⟩ := hy
  change x.toModel.unpack.beq y.toModel.unpack = true
  rw [hs, ht]
  rfl

/-- A number compares equal to itself. -/
theorem equal_self {x : Float} (h : x.isNaN = false) : (x == x) = true := by
  change x.toModel.unpack.beq x.toModel.unpack = true
  have hnumber : x.toModel.unpack ≠ .notANumber := fun heq => by
    change x.toModel.unpack.isNaN = false at h
    rw [heq] at h
    cases h
  refine beq_iff_eq.2 ?_
  cases hx : x.toModel.unpack with
  | notANumber => exact absurd hx hnumber
  | infinity s => cases s <;> rfl
  | zero s => rfl
  | finite s m e _ => cases s <;> simp [UnpackedFloat.compare]

theorem isNaN_of_equal {x y : Float} (h : (x == y) = true) : x.isNaN = false := by
  change x.toModel.unpack.isNaN = false
  change x.toModel.unpack.beq y.toModel.unpack = true at h
  cases hx : x.toModel.unpack with
  | notANumber =>
    rw [hx] at h
    cases h
  | _ => rfl

theorem equal_symm {x y : Float} (h : (x == y) = true) : (y == x) = true := by
  rcases eq_or_isNull h with rfl | ⟨hx, hy⟩
  · exact h
  · exact equal_of_isNull hy hx

/-- The order of what is compared does not matter. -/
theorem equal_comm (x y : Float) : (x == y) = (y == x) := Bool.eq_iff_iff.2 ⟨equal_symm, equal_symm⟩

/-! ## Products -/

/-- zero times a number is zero or no number, by the number alone -/
theorem isNull_mul (k : Float) : (∀ x, IsNull x → IsNull (x * k)) ∨ ∀ x, IsNull x → (x * k).isNaN = true := by
  have hproduct (x : Float) : (x * k).toModel = pack (UnpackedFloat.mul .binary64 x.toModel.unpack k.toModel.unpack) :=
    rfl
  have hzero (s : Sign) : (pack (.zero s)).unpack = .zero s := by cases s <;> rfl
  have hnan {x : Float} (h : x.toModel = pack .notANumber) : x.isNaN = true := by
    change x.toModel.isNaN = true
    rw [h]
    rfl
  cases hk : k.toModel.unpack with
  | zero t | finite t _ _ _ =>
    refine .inl fun x ⟨s, hs⟩ => ⟨s * t, ?_⟩
    rw [hproduct, hs, hk]
    exact hzero _
  | infinity _ | notANumber =>
    refine .inr fun x ⟨s, hs⟩ => hnan ?_
    rw [hproduct, hs, hk]
    rfl

/-- **Products.** Factors that compare equal have products that compare equal, if these are numbers. -/
theorem equal_mul {x y k : Float} (h : (x == y) = true) (hk : (x * k).isNaN = false) : (x * k == y * k) = true := by
  rcases eq_or_isNull h with rfl | ⟨hx, hy⟩
  · exact equal_self hk
  · rcases isNull_mul k with hnull | hnan
    · exact equal_of_isNull (hnull x hx) (hnull y hy)
    · rw [hnan x hx] at hk
      cases hk

end UnitAlgebra.Binary64

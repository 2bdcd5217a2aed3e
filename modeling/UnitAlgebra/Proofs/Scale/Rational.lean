/-
The rational part of a scale. Scales are composed by their exponents alone, and nothing is lost by that: products,
quotients and powers of scales have the products, quotients and powers of the rational parts, and the exponents of two,
three and five can be read off the rational part again. So two scales with one power of pi are the same factor exactly
if they are the same scale.

Results:
- `regular_add`, `regular_sub`, `regular_neg`, `regular_mul`: products of powers are composed by their exponents.
- `padicValRat_regular`: every exponent can be read off the product.
- `encodes_of_reaches`: a scale is found for the exponents wanted exactly if there is one for their factor.
- `encodes_mul`, `encodes_div`, `encodes_pow`, `rational_neg`: operations on scales are operations on factors.
- `rational_faithful`: what operations on scales do to factors, and that factors tell scales apart.
-/
import Mathlib.NumberTheory.Padics.PadicVal.Basic
import UnitAlgebra.Proofs.Unit.Arithmetic

namespace UnitAlgebra

/-! ## Products of powers -/

/-- a product of powers of two, three and five -/
def regular (two three five : ℤ) : ℚ := 2 ^ two * 3 ^ three * 5 ^ five

section

variable (a b c a' b' c' n : ℤ)

theorem regular_pos : 0 < regular a b c := by
  unfold regular
  positivity

theorem regular_add : regular (a + a') (b + b') (c + c') = regular a b c * regular a' b' c' := by
  unfold regular
  have hfive : (5 : ℚ) ≠ 0 := by norm_num
  rw [zpow_add₀ two_ne_zero, zpow_add₀ three_ne_zero, zpow_add₀ hfive]
  ring

theorem regular_neg : regular (-a) (-b) (-c) = 1 / regular a b c := by
  unfold regular
  rw [zpow_neg, zpow_neg, zpow_neg, ← mul_inv, ← mul_inv, one_div]

theorem regular_sub : regular (a - a') (b - b') (c - c') = regular a b c / regular a' b' c' := by
  rw [sub_eq_add_neg, sub_eq_add_neg, sub_eq_add_neg, regular_add, regular_neg, mul_one_div]

theorem regular_mul : regular (n * a) (n * b) (n * c) = regular a b c ^ n := by
  unfold regular
  rw [mul_comm n, mul_comm n, mul_comm n, zpow_mul, zpow_mul, zpow_mul, ← mul_zpow, ← mul_zpow]

theorem regular_natCast (a b c : ℕ) : regular a b c = ((2 ^ a * 3 ^ b * 5 ^ c : ℕ) : ℚ) := by
  unfold regular
  push_cast
  simp only [zpow_natCast]

/-- a prime takes part in a power of another prime nowhere, and in its own as often as the exponent says -/
theorem padicValRat_zpow {p q : ℕ} (hp : p.Prime) (hq : q.Prime) :
    padicValRat p ((q : ℚ) ^ n) = if p = q then n else 0 := by
  have : Fact p.Prime := ⟨hp⟩
  have : Fact q.Prime := ⟨hq⟩
  rw [padicValRat.zpow, padicValRat.of_nat]
  split
  · next h =>
    subst h
    rw [padicValNat_self, Nat.cast_one, mul_one]
  · next h => rw [padicValNat_primes h, Nat.cast_zero, mul_zero]

/-- Every exponent can be read off the product. -/
theorem padicValRat_regular : padicValRat 2 (regular a b c) = a ∧ padicValRat 3 (regular a b c) = b ∧
    padicValRat 5 (regular a b c) = c := by
  have hval {p : ℕ} (hp : p.Prime) : padicValRat p (regular a b c) =
      (if p = 2 then a else 0) + (if p = 3 then b else 0) + if p = 5 then c else 0 := by
    have : Fact p.Prime := ⟨hp⟩
    have htwo : ((2 : ℕ) : ℚ) ^ a ≠ 0 := by positivity
    have hthree : ((3 : ℕ) : ℚ) ^ b ≠ 0 := by positivity
    have hfive : ((5 : ℕ) : ℚ) ^ c ≠ 0 := by positivity
    change padicValRat p (((2 : ℕ) : ℚ) ^ a * ((3 : ℕ) : ℚ) ^ b * ((5 : ℕ) : ℚ) ^ c) = _
    rw [padicValRat.mul (mul_ne_zero htwo hthree) hfive, padicValRat.mul htwo hthree,
      padicValRat_zpow a hp Nat.prime_two, padicValRat_zpow b hp Nat.prime_three, padicValRat_zpow c hp Nat.prime_five]
  refine ⟨?_, ?_, ?_⟩
  · simpa using hval Nat.prime_two
  · simpa using hval Nat.prime_three
  · simpa using hval Nat.prime_five

theorem regular_inj {a b c a' b' c' : ℤ} : regular a b c = regular a' b' c' ↔ a = a' ∧ b = b' ∧ c = c' := by
  constructor
  · intro h
    obtain ⟨htwo, hthree, hfive⟩ := padicValRat_regular a b c
    obtain ⟨htwo', hthree', hfive'⟩ := padicValRat_regular a' b' c'
    rw [h] at htwo hthree hfive
    exact ⟨htwo.symm.trans htwo', hthree.symm.trans hthree', hfive.symm.trans hfive'⟩
  · rintro ⟨rfl, rfl, rfl⟩
    rfl

end

/-! ## Rational parts -/

namespace Scale

theorem zpow_eq_div (x : ℚ) (n : ℤ) : x ^ n = x ^ n.toNat / x ^ (-n).toNat := by
  rcases Int.le_total 0 n with h | h
  · obtain ⟨k, rfl⟩ := Int.eq_ofNat_of_zero_le h
    simp
  · obtain ⟨k, hk⟩ := Int.eq_ofNat_of_zero_le (Int.neg_nonneg.2 h)
    obtain rfl : n = -k := by omega
    simp

theorem numerator_cast (s : Scale) :
    (s.numerator : ℚ) = 2 ^ s.two.val.toNat * 3 ^ s.three.val.toNat * 5 ^ s.five.val.toNat := by
  change ((2 ^ s.two.val.toNat * 3 ^ s.three.val.toNat * 5 ^ s.five.val.toNat : ℕ) : ℚ) = _
  push_cast
  rfl

/-- The rational part is the product of the powers. -/
theorem rational_eq (s : Scale) : s.rational = regular s.two.val s.three.val s.five.val := by
  have hdenominator : (s.denominator : ℚ) =
      2 ^ (-s.two.val).toNat * 3 ^ (-s.three.val).toNat * 5 ^ (-s.five.val).toNat := numerator_cast s.neg
  rw [rational, numerator_cast, hdenominator, regular, zpow_eq_div, zpow_eq_div 3, zpow_eq_div 5, div_mul_div_comm,
    div_mul_div_comm]

theorem rational_pos (s : Scale) : 0 < s.rational := by
  rw [rational_eq]
  exact regular_pos _ _ _

theorem rational_eq_regular_iff {s : Scale} {a b c : ℤ} :
    s.rational = regular a b c ↔ s.two.val = a ∧ s.three.val = b ∧ s.five.val = c := by
  rw [rational_eq, regular_inj]

theorem eq_iff_rational_and_pi {s t : Scale} : s = t ↔ s.rational = t.rational ∧ s.pi = t.pi := by
  constructor
  · rintro rfl
    exact ⟨rfl, rfl⟩
  · rintro ⟨hrational, hpi⟩
    rw [rational_eq t, rational_eq_regular_iff] at hrational
    obtain ⟨htwo, hthree, hfive⟩ := hrational
    refine ext_get fun b => Exponent.ext ?_
    cases b with
    | two => exact htwo
    | three => exact hthree
    | five => exact hfive
    | pi => exact congrArg Exponent.val hpi

/-! ## Operations -/

/-- the scale of a factor, given by its rational part and its power of pi; or an overflow, because no scale has it -/
def Encodes (factor : ℚ) (pi : ℤ) : Outcome Scale → Prop
  | .ok u => u.rational = factor ∧ u.pi.val = pi
  | .error fault => (∀ u : Scale, ¬ (u.rational = factor ∧ u.pi.val = pi)) ∧
      ∃ cause, fault = .unit (.scaleOverflow cause)

/-- A scale is found for the exponents wanted exactly if there is one for their factor. -/
theorem encodes_of_reaches {wanted : Base → ℤ} {o : Outcome Scale} (h : Reaches wanted o) :
    Encodes (regular (wanted .two) (wanted .three) (wanted .five)) (wanted .pi) o := by
  cases o with
  | ok u => exact ⟨rational_eq_regular_iff.2 ⟨h .two, h .three, h .five⟩, h .pi⟩
  | error fault =>
    obtain ⟨⟨b, hb⟩, hfault⟩ := h
    refine ⟨fun u ⟨hu, hpi⟩ => hb ?_, hfault⟩
    obtain ⟨htwo, hthree, hfive⟩ := rational_eq_regular_iff.1 hu
    have hget : (u.get b).val = wanted b := by
      cases b with
      | two => exact htwo
      | three => exact hthree
      | five => exact hfive
      | pi => exact hpi
    exact hget ▸ (u.get b).bounded

section

variable (s t : Scale) (n : ℤ)

theorem encodes_mul : Encodes (s.rational * t.rational) (s.pi.val + t.pi.val) (s.mul t) := by
  rw [rational_eq s, rational_eq t, ← regular_add]
  exact encodes_of_reaches (reaches_mul s t)

theorem encodes_div : Encodes (s.rational / t.rational) (s.pi.val - t.pi.val) (s.div t) := by
  rw [rational_eq s, rational_eq t, ← regular_sub]
  exact encodes_of_reaches (reaches_div s t)

theorem encodes_pow : Encodes (s.rational ^ n) (n * s.pi.val) (s.pow n) := by
  rw [rational_eq s, ← regular_mul]
  exact encodes_of_reaches (reaches_pow s n)

theorem rational_neg : s.neg.rational = 1 / s.rational := by
  rw [rational_eq s, ← regular_neg]
  exact rational_eq s.neg

/-- **Scales are their factors.** Products, quotients and powers of scales have the products, quotients and powers of
their rational parts, and the sums, differences and multiples of their powers of pi; they overflow only if no scale has
that factor. Inverses are always there. Of one power of pi, equal rational parts belong to equal scales. -/
theorem rational_faithful :
    Encodes (s.rational * t.rational) (s.pi.val + t.pi.val) (s.mul t) ∧
    Encodes (s.rational / t.rational) (s.pi.val - t.pi.val) (s.div t) ∧
    (s.neg.rational = 1 / s.rational ∧ s.neg.pi.val = -s.pi.val) ∧
    Encodes (s.rational ^ n) (n * s.pi.val) (s.pow n) ∧
    (s.pi = t.pi → (s.rational = t.rational ↔ s = t)) := by
  refine ⟨encodes_mul s t, encodes_div s t, ⟨rational_neg s, rfl⟩, encodes_pow s n, fun hpi => ?_⟩
  rw [eq_iff_rational_and_pi (s := s)]
  exact ⟨fun h => ⟨h, hpi⟩, And.left⟩

end

/-- a degree and a turn have one power of pi, and are not the same factor -/
theorem rational_faithful_degree :
    let degree : Scale := ⟨-2, -2, -1, 1⟩
    let turn : Scale := ⟨1, 0, 0, 1⟩
    degree.pi = turn.pi ∧ (degree.rational = turn.rational ↔ degree = turn) ∧ degree ≠ turn ∧
      Encodes (degree.rational / turn.rational) 0 (degree.div turn) := by
  intro degree turn
  obtain ⟨-, hdiv, -, -, hiff⟩ := rational_faithful degree turn 0
  exact ⟨rfl, hiff rfl, by decide, hdiv⟩

end Scale

end UnitAlgebra

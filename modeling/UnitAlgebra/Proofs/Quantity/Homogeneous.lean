/-
How functions of numbers take factors. When the numbers that a function is computed on all have a common positive
factor, so has the result, or else the result is a verdict or a sign and does not change; products and quotients take
the product and the quotient of the factors.

Results:
- `onNumber_weighs`, `onNumbers_weighs`: functions of one number, and of two.
- `onCells_weighs`: functions of cells, which count as numbers.
-/
import UnitAlgebra.Quantity.Elementwise
import UnitAlgebra.Proofs.Numeric.Exact

namespace UnitAlgebra.Elementwise

/-- the functions of which the result has a physical value, or is a verdict on physical values -/
def isPhysical : Elementwise → Bool
  | add | subtract | multiply | divide | negative | positive | absolute | remainder | fmod | maximum | minimum | fmax
  | fmin | sign | greater | greaterEqual | less | lessEqual | equal | notEqual => true
  | _ => false

/-- the factor of a result whose operands share one -/
noncomputable def weight (f : Elementwise) (a : ℝ) : ℝ := if (TensorFunction.each f).givesQuantity then a else 1

/-- factors of the operands, and the factor that the result has from them -/
inductive Weighs (f : Elementwise) : List ℝ → ℝ → Prop where
  | shared {as : List ℝ} {a : ℝ} (hr : (TensorFunction.each f).rule = .shared) (ha : 0 < a) (h : ∀ x ∈ as, x = a) :
      Weighs f as (f.weight a)
  | product {a b : ℝ} (hr : (TensorFunction.each f).rule = .product) : Weighs f [a, b] (a * b)
  | quotient {a b : ℝ} (hr : (TensorFunction.each f).rule = .quotient) : Weighs f [a, b] (a / b)

variable [Numeric ℝ] [Numeric.Exact]

/-- one cell each, and the second stands for the number of the first times a factor -/
def OneCell (cs ds : List (Cell ℝ)) (a : ℝ) : Prop := ∃ c d, cs = [c] ∧ ds = [d] ∧ d.toNumber = c.toNumber * a

omit [Numeric.Exact] in
theorem oneCell_real {x y a : ℝ} (h : y = x * a) : OneCell [.real x] [.real y] a := ⟨_, _, rfl, rfl, h⟩

omit [Numeric.Exact] in
theorem oneCell_quantity {f : Elementwise} (hf : (TensorFunction.each f).givesQuantity = true) {x y a : ℝ}
    (h : y = x * a) : OneCell [.real x] [.real y] (f.weight a) := by
  rw [weight, if_pos hf]
  exact oneCell_real h

omit [Numeric.Exact] in
theorem oneCell_verdict {f : Elementwise} (hf : (TensorFunction.each f).givesQuantity = false) {b c : Bool} {a : ℝ}
    (h : c = b) : OneCell [.flag b] [.flag c] (f.weight a) := by
  subst h
  refine ⟨_, _, rfl, rfl, ?_⟩
  rw [weight, hf, if_neg Bool.false_ne_true, mul_one]

/-! ## Comparisons -/

variable {a : ℝ} (ha : 0 < a) (x y : ℝ)

include ha

theorem lt_weighed : Numeric.lt (x * a) (y * a) = Numeric.lt x y := by
  rw [Bool.eq_iff_iff, Numeric.Exact.lt, Numeric.Exact.lt, mul_lt_mul_iff_left₀ ha]

theorem le_weighed : Numeric.le (x * a) (y * a) = Numeric.le x y := by
  rw [Bool.eq_iff_iff, Numeric.Exact.le, Numeric.Exact.le, mul_le_mul_iff_left₀ ha]

theorem eq_weighed : Numeric.eq (x * a) (y * a) = Numeric.eq x y := by
  rw [Bool.eq_iff_iff, Numeric.Exact.eq, Numeric.Exact.eq, mul_left_inj' ha.ne']

theorem signOf_weighed : signOf (x * a) = signOf x := by
  have hzero : (Numeric.zero : ℝ) = Numeric.zero * a := by rw [Numeric.Exact.zero, zero_mul]
  have hpos : Numeric.lt Numeric.zero (x * a) = Numeric.lt Numeric.zero x := by
    conv_lhs => rw [hzero]
    exact lt_weighed ha _ _
  have hneg : Numeric.lt (x * a) Numeric.zero = Numeric.lt x Numeric.zero := by
    conv_lhs => rw [hzero]
    exact lt_weighed ha _ _
  have hnone : Numeric.isZero (x * a) = Numeric.isZero x := by
    rw [Bool.eq_iff_iff, Numeric.isZero_iff, Numeric.isZero_iff, mul_eq_zero, or_iff_left ha.ne']
  unfold signOf
  rw [hpos, hneg, hnone]
  split
  · rfl
  · split
    · rfl
    · split
      · rfl
      · next hp hn hz =>
        -- a number is positive, negative or zero
        rw [Numeric.Exact.lt, Numeric.Exact.zero] at hp hn
        rw [Numeric.isZero_iff] at hz
        exact absurd (lt_trichotomy x 0) (by simp [hp, hn, hz])

/-! ## Functions of one number and of two -/

/-- Functions of one number. -/
theorem onNumber_weighs {f : Elementwise} (hf : f.isPhysical = true) (hn : f.arity = 1)  :
    OneCell (f.onNumber x) (f.onNumber (x * a)) (f.weight a) := by
  cases f <;> first | (cases hf; done) | (cases hn; done) | skip
  case negative =>
    refine oneCell_quantity rfl ?_
    rw [Numeric.Exact.neg, Numeric.Exact.neg, neg_mul]
  case positive => exact oneCell_quantity rfl rfl
  case absolute =>
    refine oneCell_quantity rfl ?_
    rw [Numeric.Exact.abs, Numeric.Exact.abs, abs_mul, abs_of_pos ha]
  case sign =>
    have hone : weight sign a = 1 := if_neg (by decide)
    rw [hone]
    refine oneCell_real ?_
    rw [signOf_weighed ha, mul_one]

/-- Functions of two numbers that share a factor. -/
theorem onNumbers_weighs {f : Elementwise} (hf : f.isPhysical = true) (hn : f.arity = 2)
    (hr : (TensorFunction.each f).rule = .shared) :
    OneCell (f.onNumbers x y) (f.onNumbers (x * a) (y * a)) (f.weight a) := by
  have hquotient : x * a / (y * a) = x / y := mul_div_mul_right x y ha.ne'
  have hnone : y * a = 0 ↔ y = 0 := by rw [mul_eq_zero, or_iff_left ha.ne']
  cases f <;> first | (cases hf; done) | (cases hn; done) | (cases hr; done) | skip
  case add =>
    refine oneCell_quantity rfl ?_
    rw [Numeric.Exact.add, Numeric.Exact.add, add_mul]
  case subtract =>
    refine oneCell_quantity rfl ?_
    rw [Numeric.Exact.sub, Numeric.Exact.sub, sub_mul]
  case remainder =>
    refine oneCell_quantity rfl ?_
    rw [Numeric.Exact.remainder, Numeric.Exact.remainder, hquotient, if_congr hnone rfl rfl, ite_mul, zero_mul]
    exact if_congr Iff.rfl rfl (by ring)
  case fmod =>
    refine oneCell_quantity rfl ?_
    rw [Numeric.Exact.fmod, Numeric.Exact.fmod, hquotient, if_congr hnone rfl rfl, ite_mul, zero_mul]
    exact if_congr Iff.rfl rfl (by ring)
  case maximum =>
    refine oneCell_quantity rfl ?_
    rw [larger, larger, le_weighed ha, Numeric.Exact.isNaN, Numeric.Exact.isNaN, ← ite_mul]
  case minimum =>
    refine oneCell_quantity rfl ?_
    rw [smaller, smaller, le_weighed ha, Numeric.Exact.isNaN, Numeric.Exact.isNaN, ← ite_mul]
  case fmax =>
    refine oneCell_quantity rfl ?_
    rw [largerNumber, largerNumber, le_weighed ha, Numeric.Exact.isNaN, Numeric.Exact.isNaN, ← ite_mul]
  case fmin =>
    refine oneCell_quantity rfl ?_
    rw [smallerNumber, smallerNumber, le_weighed ha, Numeric.Exact.isNaN, Numeric.Exact.isNaN, ← ite_mul]
  case greater => exact oneCell_verdict rfl (lt_weighed ha y x)
  case greaterEqual => exact oneCell_verdict rfl (le_weighed ha y x)
  case less => exact oneCell_verdict rfl (lt_weighed ha x y)
  case lessEqual => exact oneCell_verdict rfl (le_weighed ha x y)
  case equal => exact oneCell_verdict rfl (eq_weighed ha x y)
  case notEqual => exact oneCell_verdict rfl (congrArg not (eq_weighed ha x y))

omit ha

theorem multiply_weighs (b : ℝ) : OneCell (onNumbers multiply x y) (onNumbers multiply (x * a) (y * b)) (a * b) := by
  refine oneCell_real ?_
  rw [Numeric.Exact.mul, Numeric.Exact.mul]
  ring

theorem divide_weighs (b : ℝ) : OneCell (onNumbers divide x y) (onNumbers divide (x * a) (y * b)) (a / b) := by
  refine oneCell_real ?_
  rw [Numeric.Exact.div, Numeric.Exact.div]
  ring

/-! ## Functions of cells -/

omit [Numeric.Exact] in
theorem onCells_one {f : Elementwise} (c : Cell ℝ) : f.onCells .real [c] = .ok (f.onNumber c.toNumber) := by
  cases c <;> rfl

omit [Numeric.Exact] in
theorem onCells_two {f : Elementwise} (c d : Cell ℝ) :
    f.onCells .real [c, d] = .ok (f.onNumbers c.toNumber d.toNumber) := by
  cases c <;> cases d <;> rfl

/-- a cell as a number, times a factor -/
noncomputable def weighed (c : Cell ℝ) (a : ℝ) : Cell ℝ := .real (Numeric.mul c.toNumber a)

theorem toNumber_weighed (c : Cell ℝ) (a : ℝ) : (weighed c a).toNumber = c.toNumber * a := Numeric.Exact.mul _ _

/-- **Factors of results.** A function of cells that count as numbers gives the result that it has from the numbers
without their factors, times the factor that belongs to it. -/
theorem onCells_weighs {f : Elementwise} (hf : f.isPhysical = true) {as : List ℝ} {b : ℝ} (hw : f.Weighs as b)
    (hn : as.length = f.arity) {cs : List (Cell ℝ)} (hc : cs.length = as.length) :
    ∃ out out', f.onCells .real cs = .ok out ∧ f.onCells .real (List.zipWith weighed cs as) = .ok out' ∧
      OneCell out out' b := by
  have two : ∀ {c d : Cell ℝ} {a b r : ℝ},
      OneCell (f.onNumbers c.toNumber d.toNumber) (f.onNumbers (c.toNumber * a) (d.toNumber * b)) r →
      ∃ out out', f.onCells .real [c, d] = .ok out ∧ f.onCells .real (List.zipWith weighed [c, d] [a, b]) = .ok out' ∧
        OneCell out out' r := by
    intro c d a b r h
    refine ⟨_, _, onCells_two c d, onCells_two _ _, ?_⟩
    rwa [toNumber_weighed, toNumber_weighed]
  have harity : f.arity = 1 ∨ f.arity = 2 := by cases f <;> simp [arity]
  cases hw with
  | @shared _ a hr ha hall =>
    rcases harity with h | h
    · obtain ⟨x, rfl⟩ := List.length_eq_one_iff.1 (hn.trans h)
      obtain ⟨c, rfl⟩ := List.length_eq_one_iff.1 hc
      cases hall x (List.mem_singleton_self x)
      refine ⟨_, _, onCells_one c, onCells_one _, ?_⟩
      rw [toNumber_weighed]
      exact onNumber_weighs ha _ hf h
    · obtain ⟨x, y, rfl⟩ := List.length_eq_two.1 (hn.trans h)
      obtain ⟨c, d, rfl⟩ := List.length_eq_two.1 hc
      cases hall x (by simp)
      cases hall y (by simp)
      exact two (onNumbers_weighs ha _ _ hf h hr)
  | product hr =>
    obtain ⟨c, d, rfl⟩ := List.length_eq_two.1 hc
    have hmultiply : f = multiply := by
      cases f <;> first | rfl | (cases hf; done) | cases hr
    subst hmultiply
    exact two (multiply_weighs _ _ _)
  | quotient hr =>
    obtain ⟨c, d, rfl⟩ := List.length_eq_two.1 hc
    have hdivide : f = divide := by
      cases f <;> first | rfl | (cases hf; done) | cases hr
    subst hdivide
    exact two (divide_weighs _ _ _)

end UnitAlgebra.Elementwise

/-
Exact numbers. What a law of physical values says, it says of real numbers: a scale is a real factor, and the arithmetic
that the unit rules use has no rounding. A quotient by zero is what it is in the field, and a remainder by zero is zero,
as it is for whole numbers. Nothing is asked of the other functions of numbers.

Results:
- `Scale.real_mul`, `Scale.real_div`, `Scale.real_zpow`: factors of products, quotients and powers of scales.
- `Numeric.ratio_eq`: the ratio of two scales is the quotient of their factors.
- `Cell.toNumber_of_not_toBool`: a cell that counts as false is zero.
- `instExactReal`: real numbers with the functions of analysis are exact numbers.
-/
import Mathlib
import UnitAlgebra.Tensor.Cell
import UnitAlgebra.Proofs.Unit.Arithmetic

namespace UnitAlgebra

/-! ## Scales as factors -/

/-- the real number for a base -/
noncomputable def Base.real : Base → ℝ
  | .two => 2
  | .three => 3
  | .five => 5
  | .pi => Real.pi

theorem Base.real_pos (b : Base) : 0 < b.real := by
  cases b with
  | pi => exact Real.pi_pos
  | _ => norm_num [real]

namespace Scale

/-- the real number for a scale: every base raised to its exponent -/
noncomputable def real (s : Scale) : ℝ := (Base.all.map fun b => b.real ^ (s.get b).val).prod

theorem real_pos (s : Scale) : 0 < s.real := by
  refine List.prod_pos fun x hx => ?_
  obtain ⟨b, _, rfl⟩ := List.mem_map.1 hx
  exact zpow_pos b.real_pos _

theorem real_one : (one : Scale).real = 1 := by
  refine List.prod_eq_one fun x hx => ?_
  obtain ⟨b, _, rfl⟩ := List.mem_map.1 hx
  cases b <;> exact zpow_zero _

/-- The factor of a product. -/
theorem real_mul {s t u : Scale} (h : s.mul t = .ok u) : u.real = s.real * t.real := by
  have hget : ∀ b, (u.get b).val = (s.get b).val + (t.get b).val := by
    have := reaches_mul s t
    rwa [h] at this
  unfold real
  rw [← List.prod_map_mul]
  refine congrArg List.prod (List.map_congr_left fun b _ => ?_)
  rw [hget, zpow_add₀ b.real_pos.ne']

/-- The factor of a quotient. -/
theorem real_div {s t u : Scale} (h : s.div t = .ok u) : u.real = s.real / t.real := by
  have hget : ∀ b, (s.get b).val = (u.get b).val + (t.get b).val := by
    have := reaches_div s t
    rw [h] at this
    intro b
    have hb : (u.get b).val = (s.get b).val - (t.get b).val := this b
    omega
  rw [eq_div_iff t.real_pos.ne']
  unfold real
  rw [← List.prod_map_mul]
  refine congrArg List.prod (List.map_congr_left fun b _ => ?_)
  rw [hget, zpow_add₀ b.real_pos.ne']

theorem real_zpow {s t : Scale} {d n : ℤ} (h : ∀ b, d * (t.get b).val = n * (s.get b).val) :
    t.real ^ d = s.real ^ n := by
  have hpowers (l : List Base) : (l.map fun b => b.real ^ (t.get b).val).prod ^ d =
      (l.map fun b => b.real ^ (s.get b).val).prod ^ n := by
    induction l with
    | nil => simp
    | cons b l ih =>
      simp only [List.map_cons, List.prod_cons]
      rw [mul_zpow, mul_zpow, ih, ← zpow_mul, ← zpow_mul, mul_comm _ d, mul_comm _ n, h]
  exact hpowers Base.all

end Scale

/-! ## Exact arithmetic -/

/-- a real number without its fraction -/
noncomputable def towardZero (x : ℝ) : ℤ := if 0 ≤ x then ⌊x⌋ else ⌈x⌉

/-- real numbers, with exact arithmetic -/
class Numeric.Exact [Numeric ℝ] : Prop where
  zero : (Numeric.zero : ℝ) = 0
  one : (Numeric.one : ℝ) = 1
  ofInt? (n : ℤ) : Numeric.ofInt? n = some (n : ℝ)
  add (x y : ℝ) : Numeric.add x y = x + y
  sub (x y : ℝ) : Numeric.sub x y = x - y
  mul (x y : ℝ) : Numeric.mul x y = x * y
  div (x y : ℝ) : Numeric.div x y = x / y
  neg (x : ℝ) : Numeric.neg x = -x
  abs (x : ℝ) : Numeric.abs x = |x|
  eq (x y : ℝ) : Numeric.eq x y = true ↔ x = y
  lt (x y : ℝ) : Numeric.lt x y = true ↔ x < y
  le (x y : ℝ) : Numeric.le x y = true ↔ x ≤ y
  isNaN (x : ℝ) : Numeric.isNaN x = false
  remainder (x y : ℝ) : Numeric.operate .remainder x y = if y = 0 then 0 else x - y * ⌊x / y⌋
  fmod (x y : ℝ) : Numeric.operate .fmod x y = if y = 0 then 0 else x - y * towardZero (x / y)
  /-- a scale may be refused, but it is not rounded -/
  factor? (s : Scale) (x : ℝ) : Numeric.factor? s = some x → x = s.real

section Laws

variable [Numeric ℝ] [Numeric.Exact]

namespace Numeric

theorem isZero_iff (x : ℝ) : isZero x = true ↔ x = 0 := by
  rw [isZero, Exact.eq, Exact.zero]

/-- The ratio of two scales is the quotient of their factors. -/
theorem ratio_eq {s t : Scale} {x : ℝ} (h : ratio s t = .ok x) : x = s.real / t.real := by
  unfold ratio at h
  cases hdiv : s.div t with
  | error fault =>
    rw [hdiv] at h
    cases h
  | ok u =>
    rw [hdiv] at h
    change factor u = .ok x at h
    unfold factor at h
    split at h
    · next y hy =>
      cases h
      rw [Exact.factor? u x hy, Scale.real_div hdiv]
    · cases h

end Numeric

namespace Cell

theorem toNumber_integer (n : Int) : (integer n : Cell ℝ).toNumber = n := by
  rw [toNumber, Numeric.Exact.ofInt?]
  rfl

omit [Numeric.Exact] in
theorem toNumber_cast_real (c : Cell ℝ) : (c.cast .real).toNumber = c.toNumber := by cases c <;> rfl

/-- A cell that counts as false is zero. -/
theorem toNumber_of_not_toBool {c : Cell ℝ} (h : c.toBool = false) : c.toNumber = 0 := by
  cases c with
  | flag b =>
    cases h
    exact Numeric.Exact.zero
  | integer n =>
    have hn : n = 0 := by simpa [toBool] using h
    rw [toNumber_integer, hn, Int.cast_zero]
  | real x =>
    have hx : Numeric.isZero x = true := by simpa [toBool] using h
    exact (Numeric.isZero_iff x).1 hx

end Cell

end Laws

/-! ## Real numbers

Their functions are those of analysis; where floating point numbers have gaps or infinities, real numbers have none. -/

namespace RealFunction

/-- the exponent of the power of two above a number -/
noncomputable def binaryExponent (x : ℝ) : ℤ := if x = 0 then 0 else Int.log 2 |x| + 1

/-- functions of a real number -/
noncomputable def exact (f : RealFunction) (x : ℝ) : ℝ :=
  match f with
  | sqrt => Real.sqrt x
  | cbrt => if x < 0 then -(-x) ^ (1 / 3 : ℝ) else x ^ (1 / 3 : ℝ)
  | exp => Real.exp x
  | exp2 => 2 ^ x
  | expm1 => Real.exp x - 1
  | log => Real.log x
  | log2 => Real.logb 2 x
  | log10 => Real.logb 10 x
  | log1p => Real.log (1 + x)
  | sin => Real.sin x
  | cos => Real.cos x
  | tan => Real.tan x
  | arcsin => Real.arcsin x
  | arccos => Real.arccos x
  | arctan => Real.arctan x
  | sinh => Real.sinh x
  | cosh => Real.cosh x
  | tanh => Real.tanh x
  | arcsinh => Real.arsinh x
  | arccosh => Real.arcosh x
  | arctanh => Real.artanh x
  | floor => ⌊x⌋
  | ceil => ⌈x⌉
  | trunc => towardZero x
  -- halves go to the even neighbour
  | rint => if Int.fract x = 1 / 2 then 2 * round (x / 2) else round x
  | degrees | rad2deg => x * 180 / Real.pi
  | radians | deg2rad => x * Real.pi / 180
  | spacing => 0
  | mantissa => x / 2 ^ binaryExponent x
  | binaryPower => binaryExponent x

end RealFunction

namespace RealOperation

/-- functions of two real numbers -/
noncomputable def exact (f : RealOperation) (x y : ℝ) : ℝ :=
  match f with
  | power => x ^ y
  | arctan2 => Complex.arg ⟨y, x⟩
  | hypot => Real.sqrt (x ^ 2 + y ^ 2)
  | logaddexp => Real.log (Real.exp x + Real.exp y)
  | logaddexp2 => Real.logb 2 (2 ^ x + 2 ^ y)
  | copysign => if y < 0 then -|x| else |x|
  | nextafter => x
  | heaviside => if x < 0 then 0 else if x = 0 then y else 1
  | fmod => if y = 0 then 0 else x - y * towardZero (x / y)
  | remainder => if y = 0 then 0 else x - y * ⌊x / y⌋
  | floorDivide => ⌊x / y⌋

end RealOperation

namespace Numeric

open Classical in
/-- real numbers -/
noncomputable instance : Numeric ℝ where
  ofDecimal n e := n * 10 ^ e
  quotient? m n := some (m / n)
  add x y := x + y
  sub x y := x - y
  mul x y := x * y
  div x y := x / y
  neg x := -x
  abs x := |x|
  eq x y := decide (x = y)
  lt x y := decide (x < y)
  le x y := decide (x ≤ y)
  isNaN _ := false
  isInfinite _ := false
  isNegative x := decide (x < 0)
  nan := 0
  infinity := 0
  apply := RealFunction.exact
  operate := RealOperation.exact
  power x n := if x = 0 ∧ n < 0 then .error .divisionByZero else .ok (x ^ n)
  factor? s := some s.real
  truncated := towardZero
  fraction? limit x := if h : ∃ q : ℚ, q.den ≤ limit ∧ (q : ℝ) = x then some (h.choose.num, h.choose.den) else none

/-- The arithmetic of real numbers is exact. -/
instance : Exact where
  zero := by simp [zero, ofDecimal]
  one := by simp [one, ofDecimal]
  ofInt? n := by simp [ofInt?, quotient?]
  add _ _ := rfl
  sub _ _ := rfl
  mul _ _ := rfl
  div _ _ := rfl
  neg _ := rfl
  abs _ := rfl
  eq _ _ := decide_eq_true_iff
  lt _ _ := decide_eq_true_iff
  le _ _ := decide_eq_true_iff
  isNaN _ := rfl
  remainder _ _ := rfl
  fmod _ _ := rfl
  factor? _ _ h := (Option.some.inj h).symm

end Numeric

end UnitAlgebra

/-
What the library asks of its numbers. Every definition that computes with values is written over this class: the
instance for 64 bit floating point numbers is what runs, and an exact field can stand in its place when a law of
physical values is at stake.
-/
import UnitAlgebra.Fault

namespace UnitAlgebra

/-! ## Functions of real numbers -/

inductive RealFunction where
  | sqrt | cbrt | exp | exp2 | expm1 | log | log2 | log10 | log1p
  | sin | cos | tan | arcsin | arccos | arctan | sinh | cosh | tanh | arcsinh | arccosh | arctanh
  | floor | ceil | trunc | rint | degrees | radians | rad2deg | deg2rad | spacing
  /-- the number over the power of two above it, from a half to one -/
  | mantissa
  /-- the exponent of that power -/
  | binaryPower
deriving DecidableEq, Repr

inductive RealOperation where
  | power | arctan2 | hypot | logaddexp | logaddexp2 | copysign | nextafter | heaviside
  /-- the remainder with the sign of the first operand -/
  | fmod
  /-- the remainder with the sign of the second operand -/
  | remainder
  /-- the quotient that belongs to that remainder -/
  | floorDivide
deriving DecidableEq, Repr

/-! ## Numbers -/

class Numeric (κ : Type) where
  /-- the number for `digits · 10^exponent` -/
  ofDecimal : Int → Int → κ
  /-- the number for a quotient of integers with a nonzero divisor, unless that is too large -/
  quotient? : Int → Int → Option κ
  add : κ → κ → κ
  sub : κ → κ → κ
  mul : κ → κ → κ
  div : κ → κ → κ
  neg : κ → κ
  abs : κ → κ
  eq : κ → κ → Bool
  lt : κ → κ → Bool
  le : κ → κ → Bool
  isNaN : κ → Bool
  isInfinite : κ → Bool
  /-- the sign, which zero has too -/
  isNegative : κ → Bool
  nan : κ
  infinity : κ
  apply : RealFunction → κ → κ
  operate : RealOperation → κ → κ → κ
  /-- a power with an integer exponent -/
  power : κ → Int → Outcome κ
  /-- the number for a scale, unless it is too large or too small -/
  factor? : Scale → Option κ
  /-- the finite number without its fraction -/
  truncated : κ → Int
  /-- the fraction with a denominator up to the limit that the finite number stands for, in lowest terms -/
  fraction? : Nat → κ → Option (Int × Nat)

namespace Numeric

variable {κ : Type} [Numeric κ]

def zero : κ := ofDecimal 0 0

def one : κ := ofDecimal 1 0

def isZero (x : κ) : Bool := eq x zero

def isOne (x : κ) : Bool := eq x one

def isFinite (x : κ) : Bool := !isNaN x && !isInfinite x

/-- the number for an integer, unless that is too large -/
def ofInt? (n : Int) : Option κ := quotient? n 1

/-- the number for an integer -/
def ofInt (n : Int) : Outcome κ :=
  match ofInt? n with
  | some x => .ok x
  | none => .error .tooLarge

/-- the number for a scale -/
def factor (s : Scale) : Outcome κ :=
  match factor? s with
  | some x => .ok x
  | none => .error (.unit (.scaleOverflow (.value s)))

/-- the factor that takes values in scale `s` to scale `t` -/
def ratio (s t : Scale) : Outcome κ := do factor (← s.div t)

end Numeric

end UnitAlgebra

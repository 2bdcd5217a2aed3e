/-
Functions of floating point numbers that the core library lacks, and the number instance for floating point numbers.
Remainders, roundings and neighbours are exact; the others keep the accuracy of the functions that they are built from.
-/
import UnitAlgebra.Decimal.Shortest
import UnitAlgebra.Numeric

namespace UnitAlgebra.Binary64

def nan : Float := Float.ofBits 0x7FF8000000000000

def infinity : Float := Float.ofBits 0x7FF0000000000000

def pi : Float := Float.ofBits 0x400921FB54442D18

/-- the magnitude of the first with the sign of the second -/
def copySign (x y : Float) : Float :=
  let magnitude := Float.ofBits (x.toBits &&& 0x7FFFFFFFFFFFFFFF)
  if isNegative y then -magnitude else magnitude

/-- the nearest integer, a half to the even one -/
def rint (x : Float) : Float :=
  let big := Float.ofBits 0x4330000000000000
  if x.isNaN || big ≤ x.abs then x else copySign ((x.abs + big) - big) x

/-- towards zero -/
def trunc (x : Float) : Float := copySign x.abs.floor x

/-! ## Remainders -/

/-- the remainder with the sign of the first operand -/
def fmod (x y : Float) : Float :=
  if x.isNaN || y.isNaN || x.isInf || y == 0.0 then nan
  else if y.isInf then x
  else remainderToZero x y

/-- the floored quotient and the remainder with the sign of the second operand, for a nonzero one -/
def floorDivMod (x y : Float) : Float × Float :=
  let r := fmod x y
  let q := (x - r) / y
  let (q, r) :=
    if r == 0.0 then (q, copySign 0.0 y)
    else if (y < 0.0) != (r < 0.0) then (q - 1.0, r + y)
    else (q, r)
  if q == 0.0 then (copySign 0.0 (x / y), r)
  else (if q - q.floor > 0.5 then q.floor + 1.0 else q.floor, r)

/-! ## Near zero -/

/-- `exp x - 1`, also for small `x` -/
def expm1 (x : Float) : Float :=
  let u := x.exp
  if u == 1.0 then x
  else if u - 1.0 == -1.0 then -1.0
  else if u.isInf then u
  else (u - 1.0) * x / u.log

/-- `log (1 + x)`, also for small `x` -/
def log1p (x : Float) : Float :=
  let u := 1.0 + x
  if u == 1.0 || u.isInf then (if u.isInf then u.log else x) else u.log * x / (u - 1.0)

/-- the length of the hypotenuse, without overflow on the way -/
def hypot (x y : Float) : Float :=
  let a := x.abs
  let b := y.abs
  if a.isInf || b.isInf then infinity
  else if a.isNaN || b.isNaN then nan
  else
    let large := if a < b then b else a
    let small := if a < b then a else b
    if large == 0.0 then 0.0 else
      let r := small / large
      large * (1.0 + r * r).sqrt

/-- `log (exp x + exp y)` -/
def logAddExp (x y : Float) : Float :=
  if x == y then x + Float.log 2.0
  else
    let d := x - y
    if d > 0.0 then x + log1p (-d).exp
    else if d ≤ 0.0 then y + log1p d.exp
    else d

/-- `log2 (2^x + 2^y)` -/
def logAddExp2 (x y : Float) : Float :=
  if x == y then x + 1.0
  else
    let d := x - y
    let log2e := 1.4426950408889634
    if d > 0.0 then x + log2e * log1p (-d).exp2
    else if d ≤ 0.0 then y + log2e * log1p d.exp2
    else d

/-! ## Neighbours -/

/-- the next number in the direction of the second operand -/
def nextAfter (x y : Float) : Float :=
  if x.isNaN || y.isNaN then nan
  else if x == y then y
  else if x == 0.0 then copySign (Float.ofBits 1) y
  else if (x < y) == (x > 0.0) then Float.ofBits (x.toBits + 1)
  else Float.ofBits (x.toBits - 1)

/-- the distance to the next number away from zero -/
def spacing (x : Float) : Float :=
  if x.isNaN || x.isInf then nan
  else copySign (Float.ofBits (x.abs.toBits + 1) - x.abs) x

/-! ## Fractions -/

/-- the distance of `n / d` from `num / den`, as a quotient -/
def distance (num den n d : Nat) : Nat × Nat :=
  let a := num * d
  let b := n * den
  (if a < b then b - a else a - b, den * d)

/-- the fraction nearest to `num / den` with a denominator up to the limit; the first of several equally near -/
def nearestFraction (limit num den : Nat) : Nat × Nat :=
  ((List.range limit).map fun k => (roundHalfEven (num * (k + 1)) den, k + 1)).foldl
    (fun best next =>
      let (a, b) := distance num den best.1 best.2
      let (c, d) := distance num den next.1 next.2
      if c * b < a * d then next else best)
    (roundHalfEven num den, 1)

/-- the fraction that the finite number stands for -/
def fraction? (limit : Nat) (x : Float) : Option (Int × Nat) :=
  let (num, den) := quotient x
  let (n, d) := nearestFraction limit num den
  if ofQuotient n d == x.abs then some (if isNegative x then -(n : Int) else n, d) else none

/-! ## Scales and powers -/

/-- a power of pi; the power of nothing is one -/
def powerOfPi (n : Int) : Float := if n = 0 then 1.0 else pi.pow (ofInt n)

/-- the nearest number to the rational part times the power of pi -/
def factor? (s : Scale) : Option Float :=
  let rational := ofQuotient s.numerator s.denominator
  let power := powerOfPi s.pi.val
  let value := rational * power
  if rational.isInf || power.isInf || value.isInf || (value == 0.0 && !s.isOne) then none else some value

/-- a power with an integer exponent; a finite number has no infinite power, and one has no other power than one -/
def power (x : Float) (n : Int) : Outcome Float :=
  let e := ofInt n
  if e.isInf then .error .tooLarge
  else if x == 0.0 && n < 0 then .error .divisionByZero
  else if x == 1.0 then .ok 1.0
  else
    let value := x.pow e
    if value.isInf && x.isFinite then .error .tooLarge else .ok value

/-! ## The instance -/

def apply : RealFunction → Float → Float
  | .sqrt => Float.sqrt
  | .cbrt => Float.cbrt
  | .exp => Float.exp
  | .exp2 => Float.exp2
  | .expm1 => expm1
  | .log => Float.log
  | .log2 => Float.log2
  | .log10 => Float.log10
  | .log1p => log1p
  | .sin => Float.sin
  | .cos => Float.cos
  | .tan => Float.tan
  | .arcsin => Float.asin
  | .arccos => Float.acos
  | .arctan => Float.atan
  | .sinh => Float.sinh
  | .cosh => Float.cosh
  | .tanh => Float.tanh
  | .arcsinh => Float.asinh
  | .arccosh => Float.acosh
  | .arctanh => Float.atanh
  | .floor => Float.floor
  | .ceil => Float.ceil
  | .trunc => trunc
  | .rint => rint
  | .degrees | .rad2deg => fun x => x * (180.0 / pi)
  | .radians | .deg2rad => fun x => x * (pi / 180.0)
  | .spacing => spacing
  | .mantissa => fun x => x.frExp.1
  | .binaryPower => fun x => if x.isFinite then ofInt x.frExp.2 else 0.0

def operate : RealOperation → Float → Float → Float
  | .power => Float.pow
  | .arctan2 => Float.atan2
  | .hypot => hypot
  | .logaddexp => logAddExp
  | .logaddexp2 => logAddExp2
  | .copysign => copySign
  | .nextafter => nextAfter
  | .heaviside => fun x h => if x.isNaN then x else if x == 0.0 then h else if x < 0.0 then 0.0 else 1.0
  | .fmod => fmod
  | .remainder => fun x y => if y == 0.0 then fmod x y else (floorDivMod x y).2
  | .floorDivide => fun x y => if y == 0.0 then x / y else (floorDivMod x y).1

instance : Numeric Float where
  ofDecimal d e := if d < 0 then -Decimal.toFloat d.natAbs e else Decimal.toFloat d.natAbs e
  quotient? m n :=
    let x := ofSignedQuotient ((m < 0) != (n < 0)) m.natAbs n.natAbs
    if x.isInf then none else some x
  add := (· + ·)
  sub := (· - ·)
  mul := (· * ·)
  div := (· / ·)
  neg x := -x
  abs := Float.abs
  eq := (· == ·)
  lt x y := x < y
  le x y := x ≤ y
  isNaN := Float.isNaN
  isInfinite := Float.isInf
  isNegative := isNegative
  nan := nan
  infinity := infinity
  apply := apply
  operate := operate
  power := power
  factor? := factor?
  truncated := truncated
  fraction? := fraction?

end UnitAlgebra.Binary64

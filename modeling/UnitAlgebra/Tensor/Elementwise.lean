/-
Elementwise functions: what they do to cells, and to whole tensors with broadcasting. The kind of the operands decides
the kind in which a function computes; whole numbers wrap around, and division of them by zero gives zero.
The kinds in which a function has no meaning are refused before any cell is touched.
-/
import UnitAlgebra.Tensor.Grid
import UnitAlgebra.Tensor.Cell

namespace UnitAlgebra

/-! ## The functions -/

/-- functions of whole numbers; those of bits take truth values too -/
inductive IntegerOperation where
  | gcd | lcm | bitwiseAnd | bitwiseOr | bitwiseXor | leftShift | rightShift
deriving DecidableEq, Repr

inductive Elementwise where
  | add | subtract | multiply | divide | floorDivide | remainder | fmod | divmod
  | negative | positive | absolute | fabs | sign | signbit | square | reciprocal
  | power | floatPower
  | greater | greaterEqual | less | lessEqual | equal | notEqual
  | maximum | minimum | fmax | fmin
  | isfinite | isinf | isnan
  | logicalAnd | logicalOr | logicalXor | logicalNot
  | modf | frexp | conjugate
  | invert | isnat
  | integral (f : IntegerOperation)
  | real (f : RealFunction)
  | operation (f : RealOperation)
deriving DecidableEq, Repr

namespace Elementwise

def realName : RealFunction → String
  | .sqrt => "sqrt" | .cbrt => "cbrt" | .exp => "exp" | .exp2 => "exp2" | .expm1 => "expm1" | .log => "log"
  | .log2 => "log2" | .log10 => "log10" | .log1p => "log1p" | .sin => "sin" | .cos => "cos" | .tan => "tan"
  | .arcsin => "arcsin" | .arccos => "arccos" | .arctan => "arctan" | .sinh => "sinh" | .cosh => "cosh"
  | .tanh => "tanh" | .arcsinh => "arcsinh" | .arccosh => "arccosh" | .arctanh => "arctanh" | .floor => "floor"
  | .ceil => "ceil" | .trunc => "trunc" | .rint => "rint" | .degrees => "degrees" | .radians => "radians"
  | .rad2deg => "rad2deg" | .deg2rad => "deg2rad" | .spacing => "spacing" | .mantissa => "mantissa"
  | .binaryPower => "binary_power"

def operationName : RealOperation → String
  | .power => "power" | .arctan2 => "arctan2" | .hypot => "hypot" | .logaddexp => "logaddexp"
  | .logaddexp2 => "logaddexp2" | .copysign => "copysign" | .nextafter => "nextafter" | .heaviside => "heaviside"
  | .fmod => "fmod" | .remainder => "remainder" | .floorDivide => "floor_divide"

def integralName : IntegerOperation → String
  | .gcd => "gcd" | .lcm => "lcm" | .bitwiseAnd => "bitwise_and" | .bitwiseOr => "bitwise_or"
  | .bitwiseXor => "bitwise_xor" | .leftShift => "left_shift" | .rightShift => "right_shift"

/-- the name that messages give the function -/
def name : Elementwise → String
  | add => "add" | subtract => "subtract" | multiply => "multiply" | divide => "divide"
  | floorDivide => "floor_divide" | remainder => "remainder" | fmod => "fmod" | divmod => "divmod"
  | negative => "negative" | positive => "positive" | absolute => "absolute" | fabs => "fabs" | sign => "sign"
  | signbit => "signbit" | square => "square" | reciprocal => "reciprocal" | power => "power"
  | floatPower => "float_power" | greater => "greater" | greaterEqual => "greater_equal" | less => "less"
  | lessEqual => "less_equal" | equal => "equal" | notEqual => "not_equal" | maximum => "maximum"
  | minimum => "minimum" | fmax => "fmax" | fmin => "fmin" | isfinite => "isfinite" | isinf => "isinf"
  | isnan => "isnan" | logicalAnd => "logical_and" | logicalOr => "logical_or" | logicalXor => "logical_xor"
  | logicalNot => "logical_not" | modf => "modf" | frexp => "frexp" | conjugate => "conjugate"
  | invert => "invert" | isnat => "isnat"
  | integral f => integralName f
  | real f => realName f
  | operation f => operationName f

def reals : List RealFunction := [
  .sqrt, .cbrt, .exp, .exp2, .expm1, .log, .log2, .log10, .log1p, .sin, .cos, .tan, .arcsin, .arccos, .arctan, .sinh,
  .cosh, .tanh, .arcsinh, .arccosh, .arctanh, .floor, .ceil, .trunc, .rint, .degrees, .radians,
  .rad2deg, .deg2rad, .spacing]

def integrals : List IntegerOperation := [
  .gcd, .lcm, .bitwiseAnd, .bitwiseOr, .bitwiseXor, .leftShift, .rightShift]

def operations : List RealOperation := [.arctan2, .hypot, .logaddexp, .logaddexp2, .copysign, .nextafter, .heaviside]

def all : List Elementwise := [
  add, subtract, multiply, divide, floorDivide, remainder, fmod, divmod, negative, positive, absolute, fabs, sign,
  signbit, square, reciprocal, power, floatPower, greater, greaterEqual, less, lessEqual, equal, notEqual, maximum,
  minimum, fmax, fmin, isfinite, isinf, isnan, logicalAnd, logicalOr, logicalXor, logicalNot, modf, frexp,
  conjugate, invert, isnat] ++ integrals.map integral ++ reals.map real ++ operations.map operation

/-- further names of functions -/
def synonyms : List (String × String) := [
  ("true_divide", "divide"), ("mod", "remainder"), ("abs", "absolute"), ("conj", "conjugate"), ("asin", "arcsin"),
  ("acos", "arccos"), ("atan", "arctan"), ("atan2", "arctan2"), ("asinh", "arcsinh"), ("acosh", "arccosh"),
  ("atanh", "arctanh"), ("pow", "power"), ("bitwise_not", "invert"), ("bitwise_invert", "invert"),
  ("bitwise_left_shift", "left_shift"), ("bitwise_right_shift", "right_shift")]

def ofName? (s : String) : Option Elementwise :=
  let standard := ((synonyms.find? (·.1 = s)).map Prod.snd).getD s
  all.find? (·.name = standard)

/-- the number of operands -/
def arity : Elementwise → Nat
  | negative | positive | absolute | fabs | sign | signbit | square | reciprocal | isfinite | isinf | isnan
  | logicalNot | modf | frexp | conjugate | invert | isnat | real _ => 1
  | _ => 2

/-- the number of results -/
def results : Elementwise → Nat
  | divmod | modf | frexp => 2
  | _ => 1

/-! ## Kinds -/

/-- the kind in which a function computes on operands of a kind, unless it has no meaning there -/
def computing (f : Elementwise) (k : Kind) : Option Kind :=
  match f, k with
  | subtract, .flag | negative, .flag | positive, .flag | sign, .flag => none
  | integral _, .real | invert, .real | isnat, _ => none
  | integral .bitwiseAnd, k | integral .bitwiseOr, k | integral .bitwiseXor, k | invert, k => some k
  | integral _, _ => some .integer
  | add, k | multiply, k | subtract, k | absolute, k | conjugate, k => some k
  | negative, k | positive, k | sign, k => some k
  | greater, k | greaterEqual, k | less, k | lessEqual, k | equal, k | notEqual, k => some k
  | maximum, k | minimum, k | fmax, k | fmin, k => some k
  | isfinite, k | isinf, k | isnan, k => some k
  | logicalAnd, k | logicalOr, k | logicalXor, k | logicalNot, k => some k
  | floorDivide, k | remainder, k | fmod, k | divmod, k | square, k | reciprocal, k | power, k =>
    some (k.join .integer)
  | real .floor, k | real .ceil, k | real .trunc, k => some k
  | _, _ => some .real

/-- the kind of the results -/
def resultKind (f : Elementwise) (k : Kind) : Kind :=
  match f with
  | greater | greaterEqual | less | lessEqual | equal | notEqual | isfinite | isinf | isnan | signbit
  | logicalAnd | logicalOr | logicalXor | logicalNot => .flag
  | _ => k

/-- the kind of one of several results -/
def resultKindAt (f : Elementwise) (k : Kind) (index : Nat) : Kind :=
  match f, index with
  | frexp, 1 => .integer
  | f, _ => f.resultKind k

/-! ## Cells -/

variable {κ : Type} [Numeric κ]

open Numeric

/-- the larger of two numbers; what is not a number wins -/
def larger (x y : κ) : κ := if le y x || isNaN x then x else y

/-- the smaller of two numbers; what is not a number wins -/
def smaller (x y : κ) : κ := if le x y || isNaN x then x else y

/-- the larger of two numbers; what is not a number loses -/
def largerNumber (x y : κ) : κ := if le y x || isNaN y then x else y

/-- the smaller of two numbers; what is not a number loses -/
def smallerNumber (x y : κ) : κ := if le x y || isNaN y then x else y

def signOf (x : κ) : κ :=
  if lt zero x then one else if lt x zero then neg one else if isZero x then zero else x

/-- a function of one number -/
def onNumber (f : Elementwise) (x : κ) : List (Cell κ) :=
  match f with
  | negative => [.real (neg x)]
  | absolute | fabs => [.real (abs x)]
  | sign => [.real (signOf x)]
  | signbit => [.flag (isNegative x)]
  | square => [.real (mul x x)]
  | reciprocal => [.real (div one x)]
  | isfinite => [.flag (isFinite x)]
  | isinf => [.flag (isInfinite x)]
  | isnan => [.flag (isNaN x)]
  | logicalNot => [.flag (isZero x)]
  | modf =>
    let whole := apply .trunc x
    let fraction := if isInfinite x then zero else sub x whole
    [.real (operate .copysign fraction x), .real whole]
  | frexp => [.real (apply .mantissa x), .integer (truncated (apply .binaryPower x))]
  | real f => [.real (apply f x)]
  | _ => [.real x]

/-- a function of two numbers -/
def onNumbers (f : Elementwise) (x y : κ) : List (Cell κ) :=
  match f with
  | add => [.real (Numeric.add x y)]
  | subtract => [.real (sub x y)]
  | multiply => [.real (mul x y)]
  | divide => [.real (div x y)]
  | floorDivide => [.real (operate .floorDivide x y)]
  | remainder => [.real (operate .remainder x y)]
  | fmod => [.real (operate .fmod x y)]
  | divmod => [.real (operate .floorDivide x y), .real (operate .remainder x y)]
  | power | floatPower => [.real (operate .power x y)]
  | greater => [.flag (lt y x)]
  | greaterEqual => [.flag (le y x)]
  | less => [.flag (lt x y)]
  | lessEqual => [.flag (le x y)]
  | equal => [.flag (eq x y)]
  | notEqual => [.flag (!eq x y)]
  | maximum => [.real (larger x y)]
  | minimum => [.real (smaller x y)]
  | fmax => [.real (largerNumber x y)]
  | fmin => [.real (smallerNumber x y)]
  | logicalAnd => [.flag (!isZero x && !isZero y)]
  | logicalOr => [.flag (!isZero x || !isZero y)]
  | logicalXor => [.flag (isZero x != isZero y)]
  | operation f => [.real (operate f x y)]
  | _ => [.real x]

/-- a function of one whole number -/
def onInteger (f : Elementwise) (n : Int) : List (Cell κ) :=
  match f with
  | negative => [.integer (wrappedAs n (-n))]
  | absolute => [.integer (wrappedAs n n.natAbs)]
  | sign => [.integer n.sign]
  | square => [.integer (wrappedAs n (n * n))]
  | reciprocal => [.integer (if n = 0 then leastWhole else Int.tdiv 1 n)]
  | invert => [.integer (wrappedAs n (-n - 1))]
  | isfinite => [.flag true]
  | isinf | isnan => [.flag false]
  | logicalNot => [.flag (n = 0)]
  | _ => [.integer n]

/-- a function of the bits of two whole numbers -/
def onBits (f : BitVec 64 → BitVec 64 → BitVec 64) (m n : Int) : Int := (f (BitVec.ofInt 64 m) (BitVec.ofInt 64 n)).toInt

/-- a shift by an amount that is no number of places takes all bits out -/
def shifted (left : Bool) (m n : Int) : Int :=
  let isFar : Bool := n < 0 || 64 ≤ n
  if left then (if isFar then 0 else wrapped (m <<< n.toNat))
  else if isFar then (if m < 0 then -1 else 0) else m >>> n.toNat

def onWhole (f : IntegerOperation) (m n : Int) : Int :=
  match f with
  | .gcd => wrapped (Int.gcd m n)
  | .lcm => wrapped (Int.lcm m n)
  | .bitwiseAnd => onBits (· &&& ·) m n
  | .bitwiseOr => onBits (· ||| ·) m n
  | .bitwiseXor => onBits (· ^^^ ·) m n
  | .leftShift => shifted true m n
  | .rightShift => shifted false m n

/-- a function of two whole numbers; a negative power is refused -/
def onIntegers (f : Elementwise) (m n : Int) : Outcome (List (Cell κ)) :=
  match f with
  | add => .ok [.integer (wrapped (m + n))]
  | subtract => .ok [.integer (wrapped (m - n))]
  | multiply => .ok [.integer (wrapped (m * n))]
  | floorDivide => .ok [.integer (if n = 0 then 0 else wrapped (Int.fdiv m n))]
  | remainder => .ok [.integer (if n = 0 then 0 else Int.fmod m n)]
  | fmod => .ok [.integer (if n = 0 then 0 else Int.tmod m n)]
  | divmod =>
    .ok (if n = 0 then [.integer 0, .integer 0] else [.integer (wrapped (Int.fdiv m n)), .integer (Int.fmod m n)])
  | power => if n < 0 then .error (.badValue none) else .ok [.integer (wrapped (powerWrapped m n.toNat))]
  | greater => .ok [.flag (n < m)]
  | greaterEqual => .ok [.flag (n ≤ m)]
  | less => .ok [.flag (m < n)]
  | lessEqual => .ok [.flag (m ≤ n)]
  | equal => .ok [.flag (m = n)]
  | notEqual => .ok [.flag (m ≠ n)]
  | maximum | fmax => .ok [.integer (max m n)]
  | minimum | fmin => .ok [.integer (min m n)]
  | logicalAnd => .ok [.flag (m ≠ 0 && n ≠ 0)]
  | logicalOr => .ok [.flag (m ≠ 0 || n ≠ 0)]
  | logicalXor => .ok [.flag ((m ≠ 0) != (n ≠ 0))]
  | integral f => .ok [.integer (onWhole f m n)]
  | _ => .ok [.integer m]
where
  /-- a power by repeated squaring, wrapped at every step -/
  powerWrapped (m : Int) (n : Nat) : Int :=
    if _h : n = 0 then 1
    else
      let half := powerWrapped (wrapped (m * m)) (n / 2)
      if n % 2 = 0 then half else wrapped (half * m)
  termination_by n
  decreasing_by omega

/-- a function of one truth value -/
def onFlag (f : Elementwise) (b : Bool) : List (Cell κ) :=
  match f with
  | isfinite => [.flag true]
  | isinf | isnan => [.flag false]
  | logicalNot | invert => [.flag !b]
  | _ => [.flag b]

/-- a function of two truth values -/
def onFlags (f : Elementwise) (a b : Bool) : List (Cell κ) :=
  match f with
  | add | logicalOr | maximum | fmax | integral .bitwiseOr => [.flag (a || b)]
  | multiply | logicalAnd | minimum | fmin | integral .bitwiseAnd => [.flag (a && b)]
  | greater => [.flag (a && !b)]
  | greaterEqual => [.flag (a || !b)]
  | less => [.flag (!a && b)]
  | lessEqual => [.flag (!a || b)]
  | equal => [.flag (a == b)]
  | notEqual | logicalXor | integral .bitwiseXor => [.flag (a != b)]
  | _ => [.flag a]

/-- a function of cells, which are taken to the kind that it computes in -/
def onCells (f : Elementwise) (k : Kind) (cs : List (Cell κ)) : Outcome (List (Cell κ)) :=
  match cs.map (Cell.cast k) with
  | [.real x] => .ok (onNumber f x)
  | [.real x, .real y] => .ok (onNumbers f x y)
  | [.integer n] => .ok (onInteger f n)
  | [.integer m, .integer n] => onIntegers f m n
  | [.flag a] => .ok (onFlag f a)
  | [.flag a, .flag b] => .ok (onFlags f a b)
  | _ => .error (.wrongType none)

end Elementwise

/-! ## Tensors -/

/-- a grid of cells of one kind -/
structure Tensor (κ : Type) where
  kind : Kind
  grid : Grid (Cell κ)

namespace Tensor

variable {κ : Type} [Numeric κ]

def scalar (c : Cell κ) : Tensor κ := ⟨c.kind, .scalar c⟩

def cast (k : Kind) (t : Tensor κ) : Tensor κ := ⟨k, t.grid.map (Cell.cast k)⟩

/-- every cell is zero -/
def isZero (t : Tensor κ) : Bool := t.grid.entries.all fun c => !c.toBool

/-- the results of a function on tensors, broadcast to their common box -/
def elementwise (f : Elementwise) (ts : List (Tensor κ)) : Outcome (List (Tensor κ)) := do
  match f.computing (Kind.joinAll (ts.map Tensor.kind)) with
  | none => .error (.wrongType none)
  | some k =>
    match Grid.sharedShapes (ts.map (·.grid.shape)) with
    | none => .error (.badValue none)
    | some shape =>
      let columns := ts.map fun t => (t.grid.broadcast shape).entries
      let rows := (List.range (Grid.volume shape)).map fun i => columns.filterMap (·[i]?)
      let cells ← rows.mapM (f.onCells k)
      return (List.range f.results).map fun j => ⟨f.resultKindAt k j, shape, cells.filterMap (·[j]?)⟩

end Tensor

end UnitAlgebra

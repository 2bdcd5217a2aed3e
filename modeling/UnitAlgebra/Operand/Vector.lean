/-
Dimensions and scales from operands, and their powers and roots by operands. Exponents must be whole numbers; what is
refused is shown as it was given.
-/
import UnitAlgebra.Operand.Text
import UnitAlgebra.Decimal.Reader

namespace UnitAlgebra

namespace Operand

/-! ## Whole numbers -/

/-- an operand read as a whole number; a number loses its fraction, a text is read -/
def wholeNumber : Operand Float → Outcome Int
  | flag b => .ok (if b then 1 else 0)
  | integer n => .ok n
  | number x => ofFloat x
  | item (.real x) => ofFloat x
  | item c => .ok c.toInt
  | text s =>
    match Decimal.readInteger? s with
    | some n => .ok n
    | none => .error (.badValue none)
  | _ => .error (.wrongType none)
where
  ofFloat (x : Float) : Outcome Int :=
    if x.isNaN then .error (.badValue none) else if x.isInf then .error .tooLarge else .ok (Binary64.truncated x)

/-- what an operand lists one after the other -/
def listed : Operand Float → Outcome (List (Operand Float))
  | dimension d => .ok (d.toList.map fun e => integer e.val)
  | scale s => .ok (s.toList.map fun e => integer e.val)
  | list xs | tuple xs => .ok xs
  | text s => .ok (s.toList.map fun c => text (String.singleton c))
  | _ => .error (.wrongType none)

/-- an exponent and a number after it -/
def plusExponent (e : Exponent) : Operand Float → Outcome (Operand Float)
  | number x => .ok (number (Binary64.ofInt e.val + x))
  | x =>
    match x.integer? with
    | some n => .ok (integer (e.val + n))
    | none => .error (.wrongType none)

/-- exponents and what an operand lists, as far as both go -/
def plusExponents (es : List Exponent) (x : Operand Float) : Outcome (List (Operand Float)) := do
  (es.zip (← x.listed)).mapM fun (e, y) => plusExponent e y

end Operand

/-! ## Vectors -/

/-- one exponent, by its refusals -/
def exponentOf (refused : String → Fault) (overflow : Fault) (x : Operand Float) : Outcome Exponent :=
  match x with
  | .integer n =>
    match Exponent.ofInt? n with
    | some e => .ok e
    | none => .error overflow
  | x => .error (refused x.shown)

namespace Dimension

def axisExponent (a : Axis) : Operand Float → Outcome Exponent :=
  exponentOf (fun shown => .wrongType (some (.axisExponent a shown))) (.unit (.exponentOverflow (.axis a)))

/-- a dimension from up to eight exponents; missing ones are zero -/
def ofOperands (xs : List (Operand Float)) : Outcome Dimension := do
  if Axis.all.length < xs.length then .error (.wrongType none)
  else
    let at_ (a : Axis) : Outcome Exponent := axisExponent a (xs.getD (Axis.all.idxOf a) (.integer 0))
    return ⟨← at_ .mass, ← at_ .length, ← at_ .time, ← at_ .current, ← at_ .temperature, ← at_ .amount,
      ← at_ .luminosity, ← at_ .angle⟩

/-- a dimension from eight operands read as whole numbers -/
def ofTuple (xs : List (Operand Float)) : Outcome Dimension := do
  if xs.length ≠ Axis.all.length then .error (.badValue (some (.dimensionLength xs.length)))
  else ofOperands ((← xs.mapM Operand.wholeNumber).map .integer)

/-- a power with an operand for exponent, which must be equal to a whole number -/
def powOperand (d : Dimension) (x : Operand Float) : Outcome Dimension := do
  let n ← x.wholeNumber
  let exact : Bool :=
    match x with
    | .number y | .item (.real y) => Numeric.eq (Numeric.apply .trunc y) y
    | .text _ => false
    | _ => true
  if exact then d.powShown n x.plain else .error (.badValue (some (.powerNotInteger d x.plain)))

/-- a multiple by an operand, which must be a whole number or a truth value -/
def timesOperand (d : Dimension) (x : Operand Float) : Outcome Dimension :=
  match x with
  | .integer _ | .flag _ => d.powOperand x
  | _ => .error (.wrongType none)

/-- a root by an operand; a number that divides all exponents leaves numbers, which are no exponents -/
def rootOperand (d : Dimension) (x : Operand Float) : Outcome Dimension :=
  match x with
  | .integer n => d.rootOf n
  | .flag b => d.rootOf (if b then 1 else 0)
  | .number y =>
    let exponents := d.toList.map fun e => Binary64.ofInt e.val
    if y == 0.0 then .error .divisionByZero
    else if exponents.all fun e => Numeric.operate .remainder e y == 0.0 then
      ofOperands (exponents.map fun e => .number (Numeric.operate .floorDivide e y))
    else .error (.badValue (some (.root d x.plain)))
  | _ => .error (.wrongType none)

/-- the sum with an operand: a dimension, or whole numbers for the first axes -/
def plusOperand (d : Dimension) (x : Operand Float) : Outcome Dimension :=
  match x with
  | .dimension e => d.mul e
  | x => do ofOperands (← Operand.plusExponents d.toList x)

/-- the operand as a dimension, which it must be -/
def operandOnly (x : Operand Float) : Outcome Dimension :=
  match x with
  | .dimension e => .ok e
  | _ => .error (.wrongType none)

end Dimension

namespace Scale

def baseExponent (b : Base) : Operand Float → Outcome Exponent :=
  exponentOf (fun shown => .wrongType (some (.baseExponent b shown))) (.unit (.scaleOverflow (.base b)))

/-- a scale from up to four exponents; missing ones are zero -/
def ofOperands (xs : List (Operand Float)) : Outcome Scale := do
  if Base.all.length < xs.length then .error (.wrongType none)
  else
    let at_ (b : Base) : Outcome Exponent := baseExponent b (xs.getD (Base.all.idxOf b) (.integer 0))
    return ⟨← at_ .two, ← at_ .three, ← at_ .five, ← at_ .pi⟩

/-- a scale from four operands read as whole numbers -/
def ofTuple (xs : List (Operand Float)) : Outcome Scale := do
  if xs.length ≠ Base.all.length then .error (.badValue (some (.scaleLength xs.length)))
  else ofOperands ((← xs.mapM Operand.wholeNumber).map .integer)

/-- the product with an operand: a scale, or whole numbers for the first exponents -/
def timesOperand (s : Scale) (x : Operand Float) : Outcome Scale :=
  match x with
  | .scale t => s.mul t
  | x => do ofOperands (← Operand.plusExponents s.toList x)

/-- a power of ten -/
def tenOperand (x : Operand Float) : Outcome Scale := ofOperands [x, .integer 0, x]

/-- a power of one of the factors that catalogs are written with, by its name -/
def factorPower (name : String) (x : Operand Float) : Outcome Scale :=
  match name with
  | "2" => ofOperands [x]
  | "3" => ofOperands [.integer 0, x]
  | "5" => ofOperands [.integer 0, .integer 0, x]
  | "6" => ofOperands [x, x]
  | "10" => tenOperand x
  | "pi" => ofOperands [.integer 0, .integer 0, .integer 0, x]
  | _ => .error (.wrongType none)

/-- a power with an operand for exponent, which must be a whole number -/
def powOperand (s : Scale) (x : Operand Float) : Outcome Scale :=
  match x with
  | .integer n => s.pow n
  | .flag b => s.powShown (if b then 1 else 0) x.plain
  | .number y =>
    let products := s.toList.map fun e => Binary64.ofInt e.val * y
    let limit := Binary64.ofInt exponentLimit
    if products.all fun p => -limit ≤ p && p ≤ limit then ofOperands (products.map .number)
    else .error (.unit (.scaleOverflow (.power s x.plain)))
  | _ => .error (.wrongType none)

/-- a power by an operand, which must be a whole number or a truth value -/
def powOperator (s : Scale) (x : Operand Float) : Outcome Scale :=
  match x with
  | .integer _ | .flag _ => s.powOperand x
  | _ => .error (.wrongType none)

/-- the operand as a scale; other operands lack what is asked of them -/
def operandOr (missing : Fault) (x : Operand Float) : Outcome Scale :=
  match x with
  | .scale t => .ok t
  | _ => .error missing

/-- the rational part as text: the numerator, and the denominator unless it is one -/
def rationalText (s : Scale) : Outcome String :=
  let digits := Nat.toDigits 10
  if Decimal.integerDigitLimit < (digits s.numerator).length ∨
      Decimal.integerDigitLimit < (digits s.denominator).length then .error (.badValue none)
  else .ok (String.ofList (digits s.numerator ++ if s.denominator = 1 then [] else '/' :: digits s.denominator))

end Scale

/-! ## Powers of units -/

/-- a power with an operand for exponent -/
def UnitMeaning.powOperand (u : UnitMeaning Float) (x : Operand Float) : Outcome (UnitMeaning Float) :=
  match x with
  | .integer n => u.pow n
  | .flag b => u.pow (if b then 1 else 0)
  | .number y =>
    if y == 1.0 then .ok u
    else do
      let dimension ← u.dimension.powOperand x
      let scale ← u.scale.powOperand x
      return .stored dimension scale
  | x => do return .stored (← u.dimension.powOperand x) (← u.scale.powOperand x)

end UnitAlgebra

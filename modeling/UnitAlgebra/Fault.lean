/-
What can go wrong, as causes. `UnitError` holds the errors of the unit algebra itself; `Fault` adds the general ones:
a value of the wrong type, a bad value, a number out of range, a division by zero, a bad index. The wording stands in
`UnitAlgebra.Fault.Message`.
-/
import UnitAlgebra.Dimension
import UnitAlgebra.Scale

namespace UnitAlgebra

/-! ## Operations that refuse their operands -/

/-- which operand of a function is meant -/
inductive Place where
  /-- the operand at a position, counted from zero -/
  | nth (index : Nat) (noun : String)
  /-- an operand with a name of its own -/
  | named (label : String) (noun : String)
deriving DecidableEq, Repr

inductive Operation where
  | add
  | subtract
  | rescale
  | erase
  | convert
  | apply (function : String) (place : Place)
  | useExponent (function : String)
  /-- an elementwise function writes into a given array -/
  | writeElements (function : String)
  /-- an array function writes into a given array -/
  | writeResult (function : String)
deriving DecidableEq, Repr

/-! ## Exponents out of range -/

inductive DimensionOverflow where
  | axis (a : Axis)
  | product (d e : Dimension)
  | power (d : Dimension) (exponent : String)
deriving DecidableEq, Repr

inductive ScaleOverflow where
  | base (b : Base)
  | product (s t : Scale)
  | power (s : Scale) (exponent : String)
  /-- the factor is no number: too large, or too small to differ from zero -/
  | value (s : Scale)
deriving DecidableEq, Repr

/-! ## Texts that cannot be read -/

/-- what a rule of the grammar asks for -/
inductive Wanted where
  | closing | integer
deriving DecidableEq, Repr

inductive FormatFault where
  | empty
  | unexpectedCharacter (c : Char) (position : Nat) (text : String)
  | unexpectedEnd (text : String)
  | expected (wanted : Wanted) (found : String) (position : Nat) (text : String)
  | unexpectedToken (found : String) (position : Nat) (text : String)
  | signedNumber (found : String) (position : Nat) (text : String)
  | factorNotPositive (n : Int)
  /-- what is left of a factor without its twos, threes and fives -/
  | foreignFactor (n : Nat)
  | notStorageUnit (name : String)
  | noNumber (text : String)
  | noUnit (text : String)
  | notMapping (kind : String)
  | missingKeys (keys : List String)
  | unitNotText (kind : String)
  | valueNotNumber (shown : String)
  | notJson
deriving DecidableEq, Repr

/-! ## Errors of the unit algebra -/

inductive UnitError where
  | unknownUnit (name : String) (expression : Option String) (suggestions : List String)
  | dimensionMismatch (expected actual : Dimension) (operation : Option Operation)
  | scaleMismatch (a b : Scale) (operation : Option Operation)
  | invalidFormat (fault : FormatFault)
  /-- a serialized text whose unit is at fault -/
  | invalidTextUnit (text : String) (cause : UnitError)
  /-- a serialized mapping whose unit is at fault -/
  | invalidMappingUnit (unit : String) (cause : UnitError)
  | exponentOverflow (cause : DimensionOverflow)
  | scaleOverflow (cause : ScaleOverflow)
deriving DecidableEq, Repr

namespace UnitError

/-- the errors that tell of a text or mapping that cannot be read -/
def isFormat : UnitError → Bool
  | invalidFormat _ | invalidTextUnit _ _ | invalidMappingUnit _ _ => true
  | _ => false

end UnitError

/-! ## General faults -/

/-- values of the wrong type that are refused in words -/
inductive TypeFault where
  | axisExponent (a : Axis) (shown : String)
  | baseExponent (b : Base) (shown : String)
  | expressionNotText (kind : String)
  | unitLike (kind : String)
  | policy (kind : String)
  | registry (kind : String)
  | unknownSetting (name : String)
  | arrayHasNoText
  | textNotText (kind : String)
  | dimension (kind : String)
  | scale (kind : String)
  | outputNotQuantity (function : String)
  | outputIsQuantity (function : String)
  | quantityArgument (argument function : String)
deriving DecidableEq, Repr

/-- values out of place that are refused in words -/
inductive ValueFault where
  | dimensionLength (n : Nat)
  | scaleLength (n : Nat)
  | unknownAxis (name : String)
  | powerNotInteger (d : Dimension) (exponent : String)
  /-- the order of a root as it was written -/
  | root (d : Dimension) (order : String)
  | unitWithoutSymbol (name : String)
  | unitWithZeroFactor (name : String)
  | unknownPolicy (name : String)
  | unknownOperator (operator : String)
  | exponentNotRational (function : String) (d : Dimension)
deriving DecidableEq, Repr

inductive Fault where
  | unit (e : UnitError)
  | wrongType (fault : Option TypeFault)
  | badValue (fault : Option ValueFault)
  /-- a number too large for what is asked of it -/
  | tooLarge
  | divisionByZero
  | badIndex
  | badAxis
  /-- a property asked of a value that has none of that name -/
  | noProperty
  /-- a fold of a function on whole matrices -/
  | noFold
deriving DecidableEq, Repr

/-- a result or a fault -/
abbrev Outcome (α : Type) := Except Fault α

namespace Fault

def mismatch (expected actual : Dimension) (operation : Operation) : Fault :=
  unit (.dimensionMismatch expected actual (some operation))

def scaleMismatch (a b : Scale) (operation : Operation) : Fault := unit (.scaleMismatch a b (some operation))

def format (fault : FormatFault) : Fault := unit (.invalidFormat fault)

end Fault

/-! ## Checked products, quotients and powers -/

namespace Dimension

/-- the dimension of a product -/
def mul (d e : Dimension) : Outcome Dimension :=
  match d.add? e with
  | some p => .ok p
  | none => .error (.unit (.exponentOverflow (.product d e)))

/-- the dimension of a quotient -/
def div (d e : Dimension) : Outcome Dimension := d.mul e.neg

/-- the dimension of a power; `shown` is how the exponent was written -/
def powShown (d : Dimension) (n : Int) (shown : String) : Outcome Dimension :=
  match d.mul? n with
  | some p => .ok p
  | none => .error (.unit (.exponentOverflow (.power d shown)))

def pow (d : Dimension) (n : Int) : Outcome Dimension := d.powShown n (Exponent.decimal n)

/-- the dimension of an `n`-th root -/
def rootOf (d : Dimension) (n : Int) : Outcome Dimension :=
  if n = 0 then .error .divisionByZero
  else if d.divisible n then .ok (d.root n) else .error (.badValue (some (.root d (Exponent.decimal n))))

/-- the axis by its name -/
def ofAxisName (name : String) : Outcome Dimension :=
  match Axis.ofName? name with
  | some a => .ok (ofFn fun b => if b = a then 1 else 0)
  | none => .error (.badValue (some (.unknownAxis name)))

end Dimension

namespace Scale

/-- the scale of a product -/
def mul (s t : Scale) : Outcome Scale :=
  match s.add? t with
  | some p => .ok p
  | none => .error (.unit (.scaleOverflow (.product s t)))

/-- the scale of a quotient -/
def div (s t : Scale) : Outcome Scale := s.mul t.neg

/-- the scale of a power; `shown` is how the exponent was written -/
def powShown (s : Scale) (n : Int) (shown : String) : Outcome Scale :=
  match s.mul? n with
  | some p => .ok p
  | none => .error (.unit (.scaleOverflow (.power s shown)))

def pow (s : Scale) (n : Int) : Outcome Scale := s.powShown n (Exponent.decimal n)

/-- the first base whose exponent is out of range -/
def overflowing (f : Base → Int) : Base :=
  (Base.all.find? fun b => (Exponent.ofInt? (f b)).isNone).getD .two

/-- the scale with the given exponents -/
def ofInts (f : Base → Int) : Outcome Scale :=
  match ofFn? fun b => Exponent.ofInt? (f b) with
  | some s => .ok s
  | none => .error (.unit (.scaleOverflow (.base (overflowing f))))

end Scale

end UnitAlgebra

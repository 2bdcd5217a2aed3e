/-
Quantities: how they are made, and how they are taken to other scales and units. Their values are operands of any
kind; what cannot be computed with is refused when it is.

Results:
- `valueIn_same`: in its own scale, a quantity has its own value.
- `toScale_dimension`: another scale leaves the dimension alone.
-/
import UnitAlgebra.Conversion.Values

namespace UnitAlgebra.Quantity

variable {κ : Type} [Numeric κ]

open Session

/-! ## Making -/

/-- lists and tuples are kept as arrays of numbers -/
def kept (x : Operand κ) : Session κ (Operand κ) := do
  match x with
  | .list _ | .tuple _ => newArray (← x.toTensor (← get) .numbers)
  | x => return x

/-- a value in a unit -/
def of (x : Operand κ) (u : UnitMeaning κ) : Session κ (Quantity (Operand κ)) := do
  return ⟨← convert (← kept x) u.toStorage, u.dimension, u.scale⟩

/-- one of a unit, whose offset has no part in it -/
def one (u : UnitMeaning κ) : Session κ (Quantity (Operand κ)) := of (.number Numeric.one) u.withoutOffset

/-- a stored value with the dimension and the scale that are given for it -/
def assemble (x dimension scale : Operand κ) : Outcome (Quantity (Operand κ)) :=
  match dimension, scale with
  | .dimension d, .scale s => .ok ⟨x, d, s⟩
  | .dimension _, other => .error (.wrongType (some (.scale other.kind)))
  | other, _ => .error (.wrongType (some (.dimension other.kind)))

/-! ## Scales and units -/

/-- the unit that the value is stored in -/
def unit (q : Quantity (Operand κ)) : UnitMeaning κ := .stored q.dimension q.scale

/-- the value in another scale -/
def valueIn (q : Quantity (Operand κ)) (s : Scale) : Session κ (Operand κ) := convert q.value (q.scale.steps s)

/-- the same quantity in another scale -/
def toScale (q : Quantity (Operand κ)) (s : Scale) : Session κ (Quantity (Operand κ)) := do
  return ⟨← q.valueIn s, q.dimension, s⟩

/-- the same quantity in the storage unit of a unit -/
def toStorageOf (q : Quantity (Operand κ)) (u : UnitMeaning κ) : Session κ (Quantity (Operand κ)) :=
  if u.dimension = q.dimension then q.toScale u.scale else throw (.mismatch u.dimension q.dimension .convert)

/-- the bare number of a dimensionless quantity or an angle -/
def erase (q : Quantity (Operand κ)) : Session κ (Operand κ) := Session.erase q.value q.unit

/-- the quantity without its angle -/
def eraseAngle (q : Quantity (Operand κ)) : Session κ (Quantity (Operand κ)) := do
  let (x, u) ← Session.eraseAngle q.value q.unit
  return ⟨x, u.dimension, u.scale⟩

/-- the value in a unit -/
def inUnit (q : Quantity (Operand κ)) (u : UnitMeaning κ) : Session κ (Operand κ) := Session.rescale q.value q.unit u

/-- In its own scale, a quantity has its own value. -/
theorem valueIn_same (q : Quantity (Operand κ)) (c : Context κ) (m : Store κ) :
    q.valueIn q.scale c m = .ok (q.value, m) := by
  simp only [valueIn, convert, Scale.steps, if_true, List.foldlM_nil]
  rfl

/-- Another scale leaves the dimension alone. -/
theorem toScale_dimension {q r : Quantity (Operand κ)} {s : Scale} {c : Context κ} {m n : Store κ}
    (h : q.toScale s c m = .ok (r, n)) : r.dimension = q.dimension ∧ r.scale = s := by
  simp only [toScale, bind, ReaderT.bind, StateT.bind, Except.bind] at h
  split at h
  · cases h
  · cases h
    exact ⟨rfl, rfl⟩

end UnitAlgebra.Quantity

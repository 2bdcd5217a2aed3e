/-
Whole numbers that no signed cell can hold. Beside numbers they count as numbers, they are compared as they are, and
one alone is computed with as an unsigned cell where it fits in one, or else exactly, where that makes sense for it; in
all other computations they are too large.

Results:
- `onWide_negative_negative`: the sign of a wide number, changed twice, is as it was.
-/
import UnitAlgebra.Session

namespace UnitAlgebra

namespace Operand

variable {κ : Type}

/-- a whole number beyond the range of signed cells -/
def isWide : Operand κ → Bool
  | integer n => wrapped n ≠ n
  | _ => false

/-- a whole number for an unsigned cell -/
def isUnsigned : Operand κ → Bool
  | integer n => UnitAlgebra.isUnsigned n
  | _ => false

end Operand

namespace Elementwise

/-- the function compares its operands -/
def isComparison : Elementwise → Bool
  | greater | greaterEqual | less | lessEqual | equal | notEqual => true
  | _ => false

/-- a function of one whole number, exactly -/
def onWide (f : Elementwise) (n : Int) : Outcome Int :=
  match f with
  | negative => .ok (-n)
  | positive | conjugate | real .floor | real .ceil | real .trunc => .ok n
  | absolute => .ok n.natAbs
  | sign => .ok n.sign
  | square => .ok (n * n)
  | invert => .ok (-n - 1)
  | _ => .error (.wrongType none)

/-- The sign of a wide number, changed twice, is as it was. -/
theorem onWide_negative_negative (n : Int) : (negative.onWide n >>= negative.onWide) = .ok n := by
  show Except.ok (- -n) = _
  rw [Int.neg_neg]

end Elementwise

namespace Session

variable {κ : Type} [Numeric κ]

/-- a wide number as a tensor, where the function computes in a kind -/
def wideTensor (f : Elementwise) (k : Option Kind) (n : Int) : Outcome (Tensor κ) :=
  if k = some .real then (Numeric.ofInt n).map fun x => .scalar (.real x)
  else if f.isComparison then .ok (.scalar (.integer n))
  else .error .tooLarge

/-- the operands of a function as tensors -/
def tensorsFor (f : Elementwise) (xs : List (Operand κ)) : Session κ (List (Tensor κ)) := do
  if xs.any Operand.isWide then
    let others ← (xs.filter fun x => !x.isWide).mapM tensorOf
    let k := f.computing (Kind.joinAll (.integer :: others.map Tensor.kind))
    xs.mapM fun x =>
      match x with
      | .integer n => if x.isWide then do return ← wideTensor f k n else tensorOf x
      | x => tensorOf x
  else xs.mapM tensorOf

end Session

end UnitAlgebra

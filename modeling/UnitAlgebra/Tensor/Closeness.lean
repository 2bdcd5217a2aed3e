/-
Closeness of tensors: the first is close to the second where they are equal, or differ by no more than an absolute
tolerance and a part of the second, which has to be finite.

Results:
- `isClose_self`: a number that equals itself is close to itself, whatever the tolerances.
-/
import UnitAlgebra.Tensor.Elementwise

namespace UnitAlgebra.Tensor

variable {κ : Type} [Numeric κ]

open Numeric

/-- what two numbers may differ by -/
structure Tolerance (κ : Type) where
  absolute : κ
  relative : κ
  /-- what is no number is close to what is no number -/
  nanClose : Bool

/-- the first number is close to the second -/
def isClose (t : Tolerance κ) (x y : κ) : Bool :=
  (le (abs (sub x y)) (Numeric.add t.absolute (mul t.relative (abs y))) && isFinite y) || eq x y ||
    (t.nanClose && isNaN x && isNaN y)

/-- the cells of tensors broadcast to their common box, as numbers, row by row -/
def numberRows (ts : List (Tensor κ)) : Outcome (Grid (List κ)) :=
  match Grid.sharedShapes (ts.map (·.grid.shape)) with
  | none => .error (.badValue none)
  | some shape =>
    let columns := ts.map fun t => (t.grid.broadcast shape).entries.map Cell.toNumber
    .ok ⟨shape, (List.range (Grid.volume shape)).map fun i => columns.filterMap (·[i]?)⟩

/-- closeness, with tolerances that may differ from place to place -/
def closeness (a b absolute relative : Tensor κ) (nanClose : Bool) : Outcome (Tensor κ) := do
  let rows ← numberRows [a, b, absolute, relative]
  return ⟨.flag, rows.map fun
    | [x, y, s, r] => .flag (isClose ⟨s, r, nanClose⟩ x y)
    | _ => .flag false⟩

/-- A number that equals itself is close to itself, whatever the tolerances. -/
theorem isClose_self {t : Tolerance κ} {x : κ} (h : eq x x) : isClose t x x := by simp [isClose, h]

end UnitAlgebra.Tensor

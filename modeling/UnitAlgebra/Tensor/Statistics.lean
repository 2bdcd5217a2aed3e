/-
Statistics of tensors: mean, variance, deviation, and rounding to decimal places. Means and variances are taken in two
passes, each a sum over the axes.
-/
import UnitAlgebra.Tensor.Reduce

namespace UnitAlgebra.Tensor

variable {κ : Type} [Numeric κ]

open Numeric

/-- how many cells the axes span -/
def spanned (t : Tensor κ) (axes : List Nat) : Nat := Grid.volume (axes.map fun a => t.grid.shape.getD a 1)

/-- a number for a count, which is small enough -/
def ofCount (n : Int) : κ := (ofInt? n).getD nan

/-- a function of the number in every cell -/
def mapNumbers (f : κ → κ) (t : Tensor κ) : Tensor κ := ⟨.real, t.grid.map fun c => .real (f c.toNumber)⟩

/-- the sum over axes, as numbers -/
def sum (t : Tensor κ) (axes : List Nat) (keep : Bool) : Outcome (Tensor κ) :=
  (t.cast .real).reduce .add axes keep .usual none none

/-- the mean over axes -/
def mean (t : Tensor κ) (axes : List Nat) (keep : Bool) : Outcome (Tensor κ) := do
  let n := ofCount (t.spanned axes)
  return (← t.sum axes keep).mapNumbers fun x => div x n

/-- the mean square distance from the mean, with the count lowered by the lost degrees of freedom -/
def variance (t : Tensor κ) (axes : List Nat) (keep : Bool) (lost : κ) : Outcome (Tensor κ) := do
  let centre ← t.mean axes true
  match ← elementwise .subtract [t.cast .real, centre] with
  | [distance] =>
    let squares := distance.mapNumbers fun x => mul x x
    let n := sub (ofCount (t.spanned axes)) lost
    let n := if lt n zero then zero else n
    return (← squares.sum axes keep).mapNumbers fun x => div x n
  | _ => .error (.wrongType none)

/-- the root of the variance -/
def deviation (t : Tensor κ) (axes : List Nat) (keep : Bool) (lost : κ) : Outcome (Tensor κ) := do
  return (← t.variance axes keep lost).mapNumbers (apply .sqrt)

/-- a number rounded to decimal places, which may be negative -/
def roundedTo (places : Int) (x : κ) : κ :=
  let unit := ofDecimal 1 places.natAbs
  if places = 0 then apply .rint x
  else if places < 0 then mul (apply .rint (div x unit)) unit
  else div (apply .rint (mul x unit)) unit

/-- every cell rounded; whole numbers stay whole, but not where they are rounded into cells of a kind that is told -/
def rounded (t : Tensor κ) (places : Int) (into : Option Kind) : Tensor κ :=
  match t.kind, into with
  | .integer, none => if places < 0 then (t.mapNumbers (roundedTo places)).cast .integer else t
  | .integer, some _ => if places < 0 then t.mapNumbers (roundedTo places) else t
  | .real, _ | .flag, _ => t.mapNumbers (roundedTo places)

end UnitAlgebra.Tensor

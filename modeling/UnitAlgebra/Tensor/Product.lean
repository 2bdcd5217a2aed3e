/-
Products of tensors that sum over an axis: the dot product, which pairs the last axis of the first operand with the
last but one of the second, and the matrix product, which broadcasts over all but the last two axes.
-/
import UnitAlgebra.Tensor.Reduce

namespace UnitAlgebra.Tensor

variable {κ : Type} [Numeric κ]

/-- the sum of the products of two rows of cells; over nothing it is zero -/
def pairing (k : Kind) (xs ys : List (Cell κ)) : Outcome (Cell κ) := do
  match ← (xs.zip ys).mapM fun (x, y) => Elementwise.onTwo .multiply k x y with
  | [] => return (Cell.flag false).cast k
  | c :: cs => cs.foldlM (Elementwise.onTwo .add k) c

/-- the axis of the second operand that is summed over -/
def pairedAxis (rank : Nat) : Nat := rank - 2

/-- the dot product; a tensor without axes only multiplies -/
def dot (a b : Tensor κ) : Outcome (Tensor κ) := do
  if a.grid.rank = 0 ∨ b.grid.rank = 0 then
    match ← elementwise .multiply [a, b] with
    | [t] => return t
    | _ => .error (.wrongType none)
  else
    let k := a.kind.join b.kind
    let p := a.grid.rank - 1
    let q := pairedAxis b.grid.rank
    if a.grid.shape.getD p 0 ≠ b.grid.shape.getD q 0 then .error (.badValue none)
    else
      let rows := a.grid.lanes [p]
      let columns := b.grid.lanes [q]
      let cells ← rows.entries.flatMapM fun x => columns.entries.mapM fun y => pairing k x y
      return ⟨k, rows.shape ++ columns.shape, cells⟩

/-- the matrices of a stack, by their places in it -/
def matrices (g : Grid (Cell κ)) : Grid (Grid (Cell κ)) :=
  let outer := g.shape.take (g.rank - 2)
  let inner := g.shape.drop (g.rank - 2)
  ⟨outer, (Grid.indices outer).map fun i => ⟨inner, (Grid.indices inner).filterMap fun j => g.at? (i ++ j)⟩⟩

/-- the product of two matrices -/
def matrixProduct (k : Kind) (a b : Grid (Cell κ)) : Outcome (List (Cell κ)) :=
  (a.lanes [1]).entries.flatMapM fun x => (b.lanes [0]).entries.mapM fun y => pairing k x y

/-- the matrix product; a single row stands for a matrix, and loses the axis again -/
def matmul (a b : Tensor κ) : Outcome (Tensor κ) := do
  if a.grid.rank = 0 ∨ b.grid.rank = 0 then .error (.badValue none)
  else
    let k := a.kind.join b.kind
    let left := if a.grid.rank = 1 then a.grid.insertAxis 0 else a.grid
    let right := if b.grid.rank = 1 then b.grid.insertAxis 1 else b.grid
    let m := left.shape.getD (left.rank - 2) 0
    let n := right.shape.getD (right.rank - 1) 0
    if left.shape.getD (left.rank - 1) 0 ≠ right.shape.getD (right.rank - 2) 0 then .error (.badValue none)
    else
      match (matrices left).zipWith Prod.mk (matrices right) with
      | none => .error (.badValue none)
      | some pairs =>
        let cells ← pairs.entries.flatMapM fun (x, y) => matrixProduct k x y
        let kept := (if a.grid.rank = 1 then [] else [m]) ++ if b.grid.rank = 1 then [] else [n]
        return ⟨k, pairs.shape ++ kept, cells⟩

end UnitAlgebra.Tensor

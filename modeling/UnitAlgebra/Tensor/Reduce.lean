/-
Reductions: an elementwise function of two operands folded over axes, or carried along one axis. Sums and products of
truth values are whole numbers; a function with no neutral cell has no value over nothing. What is written into cells
that are there already is folded in their kind.

The order of a fold matters where numbers are rounded. It is that of an array which is laid out row by row: the last
axes that are folded make up rows, the numbers of a row are summed apart, and the rows are taken one after the other.
-/
import UnitAlgebra.Numeric.Sum
import UnitAlgebra.Tensor.Elementwise

namespace UnitAlgebra

variable {κ : Type} [Numeric κ]

namespace Elementwise

/-- the cell that changes nothing, if there is one; zero and one are truth values, which every kind counts as such -/
def neutral? (f : Elementwise) : Option (Cell κ) :=
  match f with
  | add | logicalOr | logicalXor => some (.flag false)
  | multiply | logicalAnd => some (.flag true)
  | integral .gcd | integral .bitwiseOr | integral .bitwiseXor => some (.flag false)
  | integral .bitwiseAnd => some (.integer (-1))
  | operation .hypot => some (.real Numeric.zero)
  | operation .logaddexp | operation .logaddexp2 => some (.real (Numeric.neg Numeric.infinity))
  | _ => none

/-- the order in which cells are folded makes no difference, so that several axes can be folded at once -/
def isReorderable (f : Elementwise) : Bool :=
  match f with
  | maximum | minimum | fmax | fmin => true
  | add | multiply | logicalAnd | logicalOr | logicalXor => true
  | operation .hypot | operation .logaddexp | operation .logaddexp2 => true
  | integral .leftShift | integral .rightShift => false
  | integral _ => true
  | _ => false

/-- the kind in which a function computes on a kind, if results of it can be operands again -/
def closedKind (f : Elementwise) (k : Kind) : Outcome Kind :=
  match f.computing k with
  | some c => if f.resultKind c = c then .ok c else .error (.wrongType none)
  | none => .error (.wrongType none)

/-- the kind in which a function is folded -/
def foldingKind (f : Elementwise) (k : Kind) : Outcome Kind :=
  match f, k with
  | add, .flag | multiply, .flag => .ok .integer
  | logicalAnd, _ | logicalOr, _ | logicalXor, _ => .ok .flag
  | f, k => f.closedKind k

/-- the kind in which a function is folded into cells of a kind: no lower than that, and truth values are not counted -/
def foldingKindInto (f : Elementwise) (into k : Kind) : Outcome Kind :=
  match f with
  | logicalAnd | logicalOr | logicalXor => .ok .flag
  | f => f.closedKind (k.join into)

/-- the kind in which a function is folded, into cells of a kind if that is told -/
def kindOfFold (f : Elementwise) (into : Option Kind) (k : Kind) : Outcome Kind :=
  match into with
  | none => f.foldingKind k
  | some j => f.foldingKindInto j k

/-- the one result of a function on two cells -/
def onTwo (f : Elementwise) (k : Kind) (a b : Cell κ) : Outcome (Cell κ) := do
  match ← f.onCells k [a, b] with
  | [c] => return c
  | _ => .error (.badValue none)

/-- only functions of two operands with one result can be folded -/
def foldable (f : Elementwise) : Bool := f.arity = 2 && f.results = 1

end Elementwise

/-- what a fold is told to begin with -/
inductive Start (κ : Type) where
  /-- the neutral cell of the function if there is one, else the first cell -/
  | usual
  | first
  | given (a : Cell κ)

/-- the cell that a fold begins with, unless that is the first -/
def Start.cell? (start : Start κ) (f : Elementwise) : Option (Cell κ) :=
  match start with
  | usual => f.neutral?
  | first => none
  | given a => some a

namespace Tensor

/-- cells folded from the left, beginning with the first -/
def foldCells (f : Elementwise) (k : Kind) (a : Cell κ) (cs : List (Cell κ)) : Outcome (Cell κ) :=
  cs.foldlM (f.onTwo k) a

/-- a row folded into a cell: its numbers are summed before they are added -/
def foldRow (f : Elementwise) (k : Kind) (a : Cell κ) (row : List (Cell κ)) : Outcome (Cell κ) :=
  match f, k with
  | .add, .real => f.onTwo k a (.real (Numeric.rowSum (row.map Cell.toNumber)))
  | _, _ => foldCells f k a row

/-- rows folded one after the other, from what a fold begins with or from their first cell -/
def foldRows (f : Elementwise) (k : Kind) (start : Start κ) (rows : List (List (Cell κ))) : Outcome (Cell κ) :=
  match start.cell? f, rows with
  | some a, rows => rows.foldlM (foldRow f k) (a.cast k)
  | none, (c :: row) :: rows => (row :: rows).foldlM (foldRow f k) (c.cast k)
  | none, _ => .error (.badValue none)

/-- the stretches of a row that a mask lets through -/
def stretches {α : Type} : List (Option α) → List (List α)
  | [] => []
  | none :: row => stretches row
  | some a :: row =>
    match row, stretches row with
    | some _ :: _, s :: rest => (a :: s) :: rest
    | _, rest => [a] :: rest

/-- the rows over some axes, as far as a mask lets them through -/
def rowsThrough (g : Grid (Cell κ)) (axes : List Nat) (keep : Bool) :
    Option (Grid Bool) → Outcome (Grid (List (List (Cell κ))))
  | none => .ok (g.rowsOver axes keep)
  | some m =>
    match g.zipWith (fun c b => if b then some c else none) m with
    | some g => .ok ((g.rowsOver axes keep).map (·.flatMap stretches))
    | none => .error (.badValue none)

/-- a function folded over axes, over the cells that a mask lets through; with a mask a fold has to begin with a cell
of its own -/
def reduce (f : Elementwise) (t : Tensor κ) (axes : List Nat) (keep : Bool) (start : Start κ)
    (mask : Option (Grid Bool)) (into : Option Kind) : Outcome (Tensor κ) := do
  let k ← f.kindOfFold into t.kind
  if 1 < axes.length && !f.isReorderable then throw (.badValue none)
  if mask.isSome && (start.cell? f).isNone then throw (.badValue none)
  let rows ← rowsThrough t.grid axes keep mask
  return ⟨k, rows.shape, ← rows.entries.mapM (foldRows f k start)⟩

/-- the folds of all beginnings of a list of cells -/
def runningFolds (f : Elementwise) (k : Kind) : List (Cell κ) → Outcome (List (Cell κ))
  | [] => .ok []
  | c :: cs => do
    let (_, done) ← cs.foldlM (fun (a, done) c => do
      let b ← f.onTwo k a c
      return (b, b :: done)) (c.cast k, [c.cast k])
    return done.reverse

/-- a function carried along an axis -/
def accumulate (f : Elementwise) (t : Tensor κ) (a : Nat) (into : Option Kind) : Outcome (Tensor κ) := do
  let k ← f.kindOfFold into t.kind
  let lanes := t.grid.lanes [a]
  let done : Grid (List (Cell κ)) := ⟨lanes.shape, ← lanes.entries.mapM (runningFolds f k)⟩
  return ⟨k, t.grid.shape, (Grid.indices t.grid.shape).filterMap fun i =>
    (done.at? (i.take a ++ i.drop (a + 1))).bind (·[i.getD a 0]?)⟩

/-- operands set up so that every cell of the first meets every cell of the second -/
def crossed (a b : Tensor κ) : List (Tensor κ) :=
  [⟨a.kind, ⟨a.grid.shape ++ b.grid.shape.map fun _ => 1, a.grid.entries⟩⟩, b]

/-- a function of every cell of the first operand with every cell of the second -/
def outer (f : Elementwise) (a b : Tensor κ) : Outcome (List (Tensor κ)) := elementwise f (crossed a b)

end Tensor

end UnitAlgebra

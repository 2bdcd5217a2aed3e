/-
Access to quantities: elements by keys, assignment, taking by positions, transposition, making from a sequence, and
what can be asked of a quantity. Views share memory with the whole, chosen elements are copies.
-/
import UnitAlgebra.Quantity.ArrayFunction

namespace UnitAlgebra

variable {κ : Type} [Numeric κ]

namespace Session

/-! ## Elements -/

/-- an element of a list, or a stretch of it -/
def listElement (wrap : List (Operand κ) → Operand κ) (xs : List (Operand κ)) (key : Operand κ) :
    Session κ (Operand κ) := do
  match key with
  | .flag _ | .integer _ | .item (.integer _) =>
    let i ← Index.place xs.length (key.integer?.getD 0)
    return xs.getD i .absent
  | .slice _ _ _ =>
    match ← keyOf key with
    | [.stretch start stop step] =>
      return wrap ((← Index.stretchPlaces xs.length start stop step).map fun i => xs.getD i .absent)
    | _ => throw (.wrongType none)
  | _ => throw (.wrongType none)

/-- the elements at a key -/
def elementAt (x key : Operand κ) : Session κ (Operand κ) := do
  match x with
  | .array v =>
    let key ← keyOf key
    let places ← v.places.select key
    if key.any Index.isChosen then computed (← readView ⟨v.buffer, places⟩)
    else viewOrItem ⟨v.buffer, places⟩
  | .item c =>
    let g ← (Grid.scalar c).select (← keyOf key)
    computed ⟨c.kind, g⟩
  | .list xs => listElement .list xs key
  | .tuple xs => listElement .tuple xs key
  | _ => throw (.wrongType none)

/-- the elements of a quantity at a key -/
def select (q : Quantity (Operand κ)) (key : Operand κ) : Session κ (Operand κ) := do
  return .quantity { q with value := ← elementAt q.value key }

/-- values for the elements at a key, which they have to fit -/
def prepareElements (x key y : Operand κ) : Session κ (Prepared κ Unit) := do
  match x with
  | .array v =>
    let places ← v.places.select (← keyOf key)
    let t ← y.toTensor (← get) (match y with | .array _ => .asIs | _ => .numbers)
    if Grid.takes places.shape t.grid.shape then
      return ⟨[(⟨v.buffer, places⟩, ⟨t.kind, t.grid.broadcast places.shape⟩)], ()⟩
    else throw (.badValue none)
  | _ => throw (.wrongType none)

/-- values written to the elements at a key -/
def writeElements (x key y : Operand κ) : Session κ Unit := do
  (← prepareElements x key y).run

/-- an operand for the elements of a quantity at a key, in the unit of the quantity -/
def prepareAssignment (q : Quantity (Operand κ)) (key x : Operand κ) : Session κ (Prepared κ Unit) := do
  let p ← Participant.ofOperand x
  let u ← UnitRule.unit .shared (.plain "__setitem__") [⟨q, false⟩, p]
  let value ← UnitRule.alignedValue ⟨u.dimension, q.scale⟩ p
  prepareElements q.value key value

/-- an operand assigned to the elements of a quantity at a key -/
def assign (q : Quantity (Operand κ)) (key x : Operand κ) : Session κ Unit := do
  (← prepareAssignment q key x).run

/-! ## Taking by positions -/

/-- whole numbers from a list of positions -/
def positions (x : Operand κ) : Session κ (List Int) := do
  match ← tensorOf x with
  | ⟨_, ⟨[0], _⟩⟩ => return []
  | ⟨.integer, ⟨[_], cells⟩⟩ => return cells.map Cell.toInt
  | ⟨.flag, ⟨[_], cells⟩⟩ => return cells.map Cell.toInt
  | ⟨.real, ⟨[_], cells⟩⟩ => return cells.map Cell.toInt
  | _ => throw (.badValue none)

/-- the rows of a grid at positions; there are no others to be had -/
def rowsAt (g : Grid (Cell κ)) (is : List (Option Nat)) (filling : Cell κ) : Grid (Cell κ) :=
  let inner := g.shape.drop 1
  let size := Grid.volume inner
  ⟨is.length :: inner, is.flatMap fun
    | some i => (g.entries.drop (i * size)).take size
    | none => List.replicate size filling⟩

/-- the cell that stands for missing values -/
def fillingCell (filling : Operand κ) : Session κ (Cell κ) :=
  match filling with
  | .absent => pure (.real Numeric.nan)
  | y => cellOf y

/-- the values at positions, where minus one may stand for a value that is missing -/
def takePositions (x at_ : Operand κ) (allowFill : Bool) (filling : Operand κ) : Session κ (Operand κ) := do
  match x with
  | .array v =>
    let t ← readView v
    let n ← match t.grid.shape with
      | n :: _ => pure n
      | [] => throw (.badValue none)
    let is ← positions at_
    if allowFill then
      if is.any (· < -1) then throw (.badValue none)
      if is.any fun i => (n : Int) ≤ i then throw .badIndex
      let cell ← fillingCell filling
      let missing := is.any (· < 0)
      let kind := if missing then t.kind.join cell.kind else t.kind
      newArray ⟨kind, rowsAt (t.cast kind).grid (is.map fun i => if i < 0 then none else some i.toNat) (cell.cast kind)⟩
    else
      let places ← (is.mapM (Index.place n) : Outcome (List Nat))
      newArray ⟨t.kind, rowsAt t.grid (places.map some) (.real Numeric.nan)⟩
  | _ => throw (.wrongType none)

/-- the elements of a quantity at positions; a quantity to fill with has to have its dimension -/
def take (q : Quantity (Operand κ)) (at_ : Operand κ) (allowFill : Bool) (filling : Operand κ) :
    Session κ (Operand κ) := do
  let filling ← match allowFill, filling with
    | true, .quantity f => do
      let u ← commonUnit (← policy) ⟨"take", "argument", [(1, "'fill_value'")]⟩ [⟨q, false⟩, ⟨f, false⟩]
      UnitRule.alignedValue ⟨u.dimension, q.scale⟩ ⟨f, false⟩
    | _, f => pure f
  return .quantity { q with value := ← takePositions q.value at_ allowFill filling }

/-- one array quantity of a list of operands, in their common unit -/
def ofSequence (xs : List (Operand κ)) : Session κ (Operand κ) := do
  let ps ← xs.mapM Participant.ofOperand
  let u ← commonUnit (← policy) ⟨"_from_sequence", "scalar", []⟩ ps
  let values ← ps.mapM (UnitRule.alignedValue u)
  return inUnitOf u (← newArray (← tensorOf (.list values)))

/-! ## Axes in another order -/

/-- the order of axes that is asked for; the reverse if none is -/
def axisOrder (rank : Nat) (axes : List (Operand κ)) : Outcome (List Nat) :=
  match axes with
  | [] | [.absent] => .ok (List.range rank).reverse
  | [.tuple xs] | [.list xs] => order xs
  | xs => order xs
where
  order (xs : List (Operand κ)) : Outcome (List Nat) := do
    if xs.length ≠ rank then .error (.badValue none)
    else
      let axes ← xs.mapM (Tensor.axisOf rank)
      if axes.length = axes.eraseDups.length then return axes else .error (.badValue none)

/-- a value with its axes in another order -/
def transposed (x : Operand κ) (axes : List (Operand κ)) : Session κ (Operand κ) := do
  match x with
  | .array v => return .array ⟨v.buffer, v.places.permute (← axisOrder v.rank axes)⟩
  | .item c =>
    let _ ← axisOrder 0 axes
    return .item c
  | _ => throw .noProperty

def transpose (q : Quantity (Operand κ)) (axes : List (Operand κ)) : Session κ (Operand κ) := do
  return .quantity { q with value := ← transposed q.value axes }

/-! ## What can be asked -/

/-- the number of elements -/
def count (x : Operand κ) : Session κ Nat := do
  match x with
  | .array v =>
    match v.shape with
    | n :: _ => return n
    | [] => throw (.wrongType none)
  | .list xs | .tuple xs => return xs.length
  | .mapping es => return es.length
  | .text s => return s.length
  | _ => throw (.wrongType none)

/-- the extents of a value that has such -/
def extentsOf (x : Operand κ) : List Nat :=
  match x with
  | .array v => v.shape
  | .quantity ⟨.array v, _, _⟩ => v.shape
  | _ => []

/-- the number that an operand stands for; a quantity stands for its bare number, a scale for its factor -/
def numberOf (x : Operand κ) : Session κ κ := do
  match x with
  | .quantity q => return ← (← q.erase).toNumber (← get)
  | .scale s => return ← Numeric.factor s
  | x => return ← x.toNumber (← get)

/-- what is told when the unit of a quantity is lost -/
def unitLost : String :=
  "UnitStrippedWarning: The unit of the quantity is stripped when downcasting to ndarray."

/-- an operand as a bare array, with what is told about the unit that it loses -/
def asArray (x : Operand κ) : Session κ (Operand κ × List String) := do
  let bare ← match bareValue x with
    | .array v => pure (.array v)
    | y => newArray (← tensorOf y)
  return (bare, if x.isQuantity then [unitLost] else [])

def property (q : Quantity (Operand κ)) (name : String) : Session κ (Operand κ) := do
  match name with
  | "value" => return q.value
  | "dimension" => return .dimension q.dimension
  | "scale" => return .scale q.scale
  | "unit" => return .unit q.unit
  | "shape" => return .tuple ((extentsOf q.value).map fun n : Nat => .integer n)
  | "ndim" => return .integer (extentsOf q.value).length
  | "size" => return .integer (← tensorOf q.value).grid.size
  | "T" => transpose q []
  | "dtype" => return .text (← tensorOf q.value).kind.text
  | "nbytes" =>
    let t ← tensorOf q.value
    return .integer (t.grid.size * t.kind.bytes : Nat)
  | _ => throw .noProperty

end Session

end UnitAlgebra

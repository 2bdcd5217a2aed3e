/-
Grids: values in a box of any rank, listed row by row. Everything that only moves values about is defined here once,
for values of any type: the same operation that rearranges numbers rearranges the places of a shared buffer. The number
of axes has no limit here, unlike that of arrays, which have 64 axes at most.

Results:
- `map_gather`: rearranging commutes with mapping over the values.
- `length_indices`: a box has as many places as the product of its extents.
-/
import UnitAlgebra.Fault

namespace UnitAlgebra

/-- values in a box, row by row -/
structure Grid (α : Type) where
  /-- the extents of the box -/
  shape : List Nat
  entries : List α
deriving DecidableEq, Repr

namespace Grid

variable {α β γ : Type}

/-! ## Places -/

/-- the number of places in a box -/
def volume (shape : List Nat) : Nat := shape.foldr (· * ·) 1

/-- all places of a box, row by row -/
def indices : List Nat → List (List Nat)
  | [] => [[]]
  | n :: shape => (List.range n).flatMap fun i => (indices shape).map (i :: ·)

/-- the number of places before a place -/
def offset : List Nat → List Nat → Nat
  | _ :: shape, i :: index => i * volume shape + offset shape index
  | _, _ => 0

/-- A box has as many places as the product of its extents. -/
theorem length_indices (shape : List Nat) : (indices shape).length = volume shape := by
  induction shape with
  | nil => rfl
  | cons n shape ih =>
    have : ∀ m : Nat, ((List.range m).flatMap fun i => (indices shape).map (i :: ·)).length = m * volume shape := by
      intro m
      induction m with
      | zero => simp
      | succ m ihm => simp [List.range_succ, List.flatMap_append, ihm, ih, Nat.succ_mul]
    simpa [indices, volume] using this n

def scalar (a : α) : Grid α := ⟨[], [a]⟩

def ofList (as : List α) : Grid α := ⟨[as.length], as⟩

def rank (g : Grid α) : Nat := g.shape.length

def size (g : Grid α) : Nat := g.entries.length

def map (f : α → β) (g : Grid α) : Grid β := ⟨g.shape, g.entries.map f⟩

def at? (g : Grid α) (index : List Nat) : Option α := g.entries[offset g.shape index]?

/-- a new box whose places take their values from places of the old one -/
def gather (g : Grid α) (shape : List Nat) (source : List Nat → List Nat) : Grid α :=
  ⟨shape, (indices shape).filterMap fun i => g.at? (source i)⟩

/-- Rearranging commutes with mapping over the values. -/
theorem map_gather (f : α → β) (g : Grid α) (shape : List Nat) (source : List Nat → List Nat) :
    (g.gather shape source).map f = (g.map f).gather shape source := by
  simp only [gather, map, at?, Grid.mk.injEq, true_and, List.map_filterMap]
  congr 1
  funext i
  simp [List.getElem?_map]

/-! ## Broadcasting -/

/-- two extents agree if they are equal or one of them is one -/
def sharedExtent (m n : Nat) : Option Nat := if m = n ∨ n = 1 then some m else if m = 1 then some n else none

/-- the common box of two boxes, last extents first -/
def sharedReversed : List Nat → List Nat → Option (List Nat)
  | [], shape => some shape
  | shape, [] => some shape
  | m :: s, n :: t => do return (← sharedExtent m n) :: (← sharedReversed s t)

/-- the common box of two boxes -/
def sharedShape (s t : List Nat) : Option (List Nat) := (sharedReversed s.reverse t.reverse).map List.reverse

/-- the common box of many boxes -/
def sharedShapes (shapes : List (List Nat)) : Option (List Nat) := shapes.foldlM sharedShape []

/-- the place of a broadcast grid that a place of the larger box reads -/
def readPlace (shape index : List Nat) : List Nat :=
  (shape.zip (index.drop (index.length - shape.length))).map fun (n, i) => if n = 1 then 0 else i

/-- the grid repeated over a larger box -/
def broadcast (g : Grid α) (shape : List Nat) : Grid α := g.gather shape (readPlace g.shape)

/-- a box takes another if broadcasting that to it changes nothing of it -/
def takes (target shape : List Nat) : Bool := sharedShape target shape = some target

/-- values put together over the common box -/
def zipWith (f : α → β → γ) (g : Grid α) (h : Grid β) : Option (Grid γ) := do
  let shape ← sharedShape g.shape h.shape
  return ⟨shape, List.zipWith f (g.broadcast shape).entries (h.broadcast shape).entries⟩

/-! ## Axes -/

/-- an axis counted from the front, or from the back if negative -/
def axis? (rank : Nat) (a : Int) : Option Nat :=
  if 0 ≤ a ∧ a < rank then some a.toNat else if a < 0 ∧ -(rank : Int) ≤ a then some (a + rank).toNat else none

def axis (rank : Nat) (a : Int) : Outcome Nat :=
  match axis? rank a with
  | some n => .ok n
  | none => .error .badAxis

/-- the axes in a new order -/
def permute (g : Grid α) (order : List Nat) : Grid α :=
  g.gather (order.map fun a => g.shape.getD a 1) fun index =>
    (List.range g.rank).map fun a => index.getD (order.idxOf a) 0

def transpose (g : Grid α) : Grid α := g.permute (List.range g.rank).reverse

/-- one row of all values -/
def ravel (g : Grid α) : Grid α := ofList g.entries

/-- an extent of minus one is what the others leave of a volume -/
def inferShape (total : Nat) (shape : List Int) : Outcome (List Nat) :=
  let known := volume ((shape.filter (· ≠ -1)).map Int.toNat)
  if shape.any (· < -1) || 1 < shape.count (-1) then .error (.badValue none)
  else if shape.contains (-1) then
    if known = 0 ∨ total % known ≠ 0 then .error (.badValue none)
    else .ok (shape.map fun n => if n = -1 then total / known else n.toNat)
  else if known = total then .ok (shape.map Int.toNat)
  else .error (.badValue none)

/-- without the axes of extent one, all of them or the given ones -/
def squeeze (g : Grid α) (axes : Option (List Nat)) : Outcome (Grid α) :=
  let dropped (a : Nat) : Bool :=
    match axes with
    | none => g.shape[a]? = some 1
    | some as => as.contains a
  if (axes.getD []).any fun a => g.shape[a]? ≠ some 1 then .error (.badValue none)
  else .ok ⟨((List.range g.rank).filter fun a => !dropped a).map fun a => g.shape.getD a 1, g.entries⟩

/-- a new axis of extent one -/
def insertAxis (g : Grid α) (a : Nat) : Grid α := ⟨g.shape.take a ++ 1 :: g.shape.drop a, g.entries⟩

/-! ## Lanes -/

/-- the values over some axes, one list for each place of the others -/
def lanes (g : Grid α) (axes : List Nat) : Grid (List α) :=
  let kept := (List.range g.rank).filter fun a => !axes.contains a
  let outer := kept.map fun a => g.shape.getD a 1
  let inner := axes.map fun a => g.shape.getD a 1
  let place (i j : List Nat) : List Nat :=
    (List.range g.rank).map fun a =>
      if axes.contains a then j.getD (axes.idxOf a) 0 else i.getD (kept.idxOf a) 0
  ⟨outer, (indices outer).map fun i => (indices inner).filterMap fun j => g.at? (place i j)⟩

/-- the box after the values over some axes have become one, which may keep the axes with extent one -/
def keepAxes (shape axes : List Nat) (keep : Bool) : List Nat :=
  if keep then (shape.zipIdx).map fun (n, a) => if axes.contains a then 1 else n
  else ((shape.zipIdx).filter fun e => !axes.contains e.2).map Prod.fst

/-- the axis that the last axes begin with which are all folded or of extent one -/
def innerAxis (shape axes : List Nat) : Nat :=
  shape.length - (shape.zipIdx.reverse.takeWhile fun (n, a) => n = 1 || axes.contains a).length

/-- the values over some axes in rows: a row goes over the last axes, the rows are one for each place of the others -/
def rowsOver (g : Grid α) (axes : List Nat) (keep : Bool) : Grid (List (List α)) :=
  let inner := innerAxis g.shape axes
  let rows := g.lanes (List.range' inner (g.rank - inner))
  ⟨keepAxes g.shape axes keep, (rows.lanes ((List.range inner).filter axes.contains)).entries⟩

/-! ## Joining -/

/-- grids one after the other along an axis -/
def concatenate (gs : List (Grid α)) (a : Nat) : Option (Grid α) :=
  match gs with
  | [] => none
  | g :: _ =>
    let others (s : List Nat) := s.take a ++ s.drop (a + 1)
    if gs.all fun h => h.rank = g.rank && others h.shape = others g.shape then
      let extents := gs.map fun h => h.shape.getD a 0
      let shape := g.shape.take a ++ extents.foldl (· + ·) 0 :: g.shape.drop (a + 1)
      let source (i : List Nat) : Option α :=
        let rec find : List (Grid α) → Nat → Option α
          | [], _ => none
          | h :: rest, n =>
            let extent := h.shape.getD a 0
            if n < extent then h.at? (i.take a ++ n :: i.drop (a + 1)) else find rest (n - extent)
        find gs (i.getD a 0)
      some ⟨shape, (indices shape).filterMap source⟩
    else none

/-- grids of one box along a new axis -/
def stack (gs : List (Grid α)) (a : Nat) : Option (Grid α) := concatenate (gs.map (·.insertAxis a)) a

end Grid

end UnitAlgebra

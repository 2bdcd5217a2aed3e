/-
Selection of places by keys. A key has a part for each axis that it says something about: a point, a stretch, chosen
places, a mask; axes that no part speaks of are taken whole. Chosen places come in a box of their own, which stands
where the first of them does, or first if other parts come between them.

Selecting from a grid only moves values about, so selecting the places of a shared buffer gives the view to read from
or to write through.

Results:
- `map_select`: selection commutes with mapping over the values.
-/
import UnitAlgebra.Tensor.Grid

namespace UnitAlgebra

/-! ## Keys -/

inductive Index where
  /-- one place of an axis -/
  | point (i : Int)
  /-- places from a start to a stop, which is left out, by steps -/
  | stretch (start stop step : Option Int)
  /-- a new axis of extent one -/
  | newAxis
  /-- chosen places of an axis -/
  | places (g : Grid Int)
  /-- the places where a mask holds, over as many axes as it has; a mask of no axes has one place on a new one -/
  | mask (g : Grid Bool)

namespace Index

/-- the key chooses places, so what it selects is no stretch of the whole -/
def isChosen : Index → Bool
  | places _ | mask _ => true
  | _ => false

/-- a place counted from the front, or from the back if negative -/
def place (extent : Nat) (i : Int) : Outcome Nat :=
  match Grid.axis? extent i with
  | some n => .ok n
  | none => .error .badIndex

/-- an end of a stretch, moved into the axis -/
def clamped (extent : Nat) (backwards : Bool) (i : Int) : Int :=
  let n : Int := extent
  let i := if i < 0 then i + n else i
  if i < 0 then (if backwards then -1 else 0)
  else if n ≤ i then (if backwards then n - 1 else n)
  else i

/-- the places of a stretch -/
def stretchPlaces (extent : Nat) (start stop step : Option Int) : Outcome (List Nat) :=
  let by_ := step.getD 1
  if by_ = 0 then .error (.badValue none)
  else
    let backwards := by_ < 0
    let first := (start.map (clamped extent backwards)).getD (if backwards then (extent : Int) - 1 else 0)
    let last := (stop.map (clamped extent backwards)).getD (if backwards then -1 else extent)
    let count := if backwards then (first - last - by_ - 1) / (-by_) else (last - first + by_ - 1) / by_
    .ok ((List.range count.toNat).map fun k : Nat => (first + k * by_).toNat)

/-- the places where a mask holds, axis by axis -/
def maskPlaces (g : Grid Bool) : List (Grid Int) :=
  let held := ((Grid.indices g.shape).zip g.entries).filterMap fun (i, b) => if b then some i else none
  (List.range g.rank).map fun a => Grid.ofList (held.map fun i => ((i.getD a 0 : Nat) : Int))

end Index

/-! ## Selectors -/

/-- what a part of a key does with its axis -/
inductive Selector where
  | fixed (i : Nat)
  | among (places : List Nat)
  | fresh
  | chosen (g : Grid Nat)
  /-- so many times what the other parts choose, of no axis -/
  | repeated (n : Nat)

namespace Selector

/-- all places of the axes that no part of a key speaks of -/
def whole (shape : List Nat) : List Selector := shape.map fun n => among (List.range n)

/-- chosen places of an axis, all of which it must have -/
def ofPlaces (extent : Nat) (g : Grid Int) : Outcome Selector := do
  return chosen ⟨g.shape, ← g.entries.mapM (Index.place extent)⟩

/-- the parts of a key, one selector for each axis -/
def ofKey : List Nat → List Index → Outcome (List Selector)
  | shape, [] => .ok (whole shape)
  | shape, .newAxis :: key => do return fresh :: (← ofKey shape key)
  | shape, .mask ⟨[], bs⟩ :: key => do return repeated (bs.count true) :: (← ofKey shape key)
  | shape, .mask g :: key => do
    if shape.take g.rank ≠ g.shape then .error .badIndex
    else
      let parts ← ((shape.take g.rank).zip (Index.maskPlaces g)).mapM fun (n, p) => ofPlaces n p
      return parts ++ (← ofKey (shape.drop g.rank) key)
  | [], _ :: _ => .error .badIndex
  | n :: shape, .point i :: key => do
    let p ← Index.place n i
    return fixed p :: (← ofKey shape key)
  | n :: shape, .stretch start stop step :: key => do
    let ps ← Index.stretchPlaces n start stop step
    return among ps :: (← ofKey shape key)
  | n :: shape, .places g :: key => do
    let p ← ofPlaces n g
    return p :: (← ofKey shape key)

def isChosen : Selector → Bool
  | chosen _ | repeated _ => true
  | _ => false

/-- the selector leaves no axis of its own -/
def isLess : Selector → Bool
  | fixed _ | chosen _ | repeated _ => true
  | _ => false

/-- the extent of the axis that a selector leaves -/
def extent? : Selector → Option Nat
  | among ps => some ps.length
  | fresh => some 1
  | fixed _ | chosen _ | repeated _ => none

/-- the box of the places that a selector chooses -/
def box? : Selector → Option (List Nat)
  | chosen g => some g.shape
  | repeated n => some [n]
  | _ => none

/-- the place of the source for a place of the result, whose chosen part is apart -/
def source (part : List Nat) : List Selector → List Nat → List Nat
  | [], _ => []
  | fixed i :: rest, index => i :: source part rest index
  | chosen g :: rest, index => (g.at? (Grid.readPlace g.shape part)).getD 0 :: source part rest index
  | repeated _ :: rest, index => source part rest index
  | among ps :: rest, i :: index => ps.getD i 0 :: source part rest index
  | among _ :: rest, [] => 0 :: source part rest []
  | fresh :: rest, _ :: index => source part rest index
  | fresh :: rest, [] => source part rest []

/-- how many axes come before the box of chosen places -/
def chosenAt (ss : List Selector) : Nat :=
  let before := ss.takeWhile fun s => !s.isLess
  let after := (ss.dropWhile fun s => !s.isLess).dropWhile isLess
  if after.any isLess then 0 else before.length

end Selector

/-! ## Selection -/

namespace Grid

variable {α β : Type}

/-- what the selectors leave: the box of chosen places among the extents of the other axes -/
def selectBy (g : Grid α) (ss : List Selector) (box : List Nat) : Grid α :=
  let extents := ss.filterMap Selector.extent?
  let at_ := Selector.chosenAt ss
  g.gather (extents.take at_ ++ box ++ extents.drop at_) fun index =>
    Selector.source ((index.drop at_).take box.length) ss (index.take at_ ++ index.drop (at_ + box.length))

/-- the values at the places of a key -/
def select (g : Grid α) (key : List Index) : Outcome (Grid α) := do
  let ss ← Selector.ofKey g.shape key
  match sharedShapes (ss.filterMap Selector.box?) with
  | some box => return g.selectBy ss box
  | none => .error .badIndex

/-- Selection commutes with mapping over the values. -/
theorem map_select (f : α → β) (g : Grid α) (key : List Index) :
    (g.select key).map (Grid.map f) = (g.map f).select key := by
  unfold select
  cases h : Selector.ofKey g.shape key with
  | error e => simp [Grid.map, h, bind, Except.bind, Except.map]
  | ok ss =>
    simp only [Grid.map, h, bind, Except.bind]
    split
    · simp only [pure, Except.pure, Except.map, Except.ok.injEq]
      exact map_gather f g _ _
    · rfl

end Grid

end UnitAlgebra

/-
Quantities in texts and mappings. A text is a number and a unit, with or without blanks between them; a mapping has
the value, a number or nested lists of numbers, under `value` and the unit under `unit`; a JSON text is a mapping
written out. What is read can be taken to the storage unit of a target, which has to have its dimension.
-/
import UnitAlgebra.Quantity.Written
import UnitAlgebra.Interchange.JsonValue

namespace UnitAlgebra.Session

/-! ## Targets and refusals -/

/-- a quantity in the storage unit of a target, if there is one -/
def retarget (q : Quantity (Operand Float)) (target : Operand Float) : Session Float (Quantity (Operand Float)) := do
  match target with
  | .absent => return q
  | x =>
    let u ← unitOf x
    if u.dimension = q.dimension then q.toScale u.scale
    else throw (.unit (.dimensionMismatch u.dimension q.dimension none))

/-- an error of the unit algebra becomes one of the text that is read, unless it is one already -/
def refusing {α : Type} (wrap : UnitError → UnitError) (x : Session Float α) : Session Float α :=
  tryCatch x fun f =>
    match f with
    | .unit e => throw (.unit (if e.isFormat then e else wrap e))
    | f => throw f

/-! ## Texts -/

/-- the number and the unit of a quantity text -/
def splitText (s : String) : Outcome (Decimal.NumberText × String) :=
  match Decimal.splitNumber (s.toList.dropWhile Text.isBlank) with
  | none => .error (.format (.noNumber s))
  | some (number, rest) =>
    let unit := Text.trim rest
    if unit.isEmpty then .error (.format (.noUnit s)) else .ok (number, String.ofList unit)

/-- the quantity that a text tells of -/
def ofText (x target : Operand Float) : Session Float (Quantity (Operand Float)) := do
  match x with
  | .text s =>
    let q ← refusing (.invalidTextUnit s) do
      let (number, unit) ← splitText s
      let value ← number.value
      Quantity.of (.number value) (← unitOf (.text unit))
    retarget q target
  | x => throw (.wrongType (some (.textNotText x.kind)))

/-- the value that a quantity is shared with: in the unit asked for, or in its own -/
def sharedValue (q : Quantity (Operand Float)) (unit : Operand Float) : Session Float (Operand Float) :=
  match unit with
  | .absent => return q.value
  | unit => expressedIn q unit

/-- the name of the unit that a quantity is shared in -/
def sharedName (q : Quantity (Operand Float)) (unit : Operand Float) : Session Float String := do
  match unit with
  | .absent => nameOf q.dimension q.scale
  | unit => label (← unitOf unit)

/-- a single quantity as a text -/
def toText (q : Quantity (Operand Float)) (unit : Operand Float) : Session Float String := do
  if q.value.rank (← get) ≠ 0 then throw (.wrongType (some .arrayHasNoText))
  let value ← sharedValue q unit
  let number ← value.toNumber (← get)
  return Decimal.text number ++ " " ++ (← sharedName q unit)

/-! ## Mappings -/

/-- a cell as a plain value -/
def plainCell : Cell Float → Operand Float
  | .flag b => .flag b
  | .integer n => .integer n
  | .real x => .number x

/-- the cells of a box as nested lists -/
def nestedLists : List Nat → List (Operand Float) → Operand Float
  | [], cells => cells.headD .absent
  | n :: shape, cells =>
    let size := Grid.volume shape
    .list ((List.range n).map fun i => nestedLists shape ((cells.drop (i * size)).take size))

/-- a value without arrays and items -/
def plainValue (x : Operand Float) : Session Float (Operand Float) := do
  match x with
  | .array v =>
    let t ← readView v
    return nestedLists t.grid.shape (t.grid.entries.map plainCell)
  | .item c => return plainCell c
  | x => return x

/-- a quantity as a mapping -/
def toMapping (q : Quantity (Operand Float)) (unit : Operand Float) : Session Float (Operand Float) := do
  let value ← plainValue (← sharedValue q unit)
  return .mapping [("value", value), ("unit", .text (← sharedName q unit))]

/-- the value under a key -/
def valueUnder? (entries : List (String × Operand Float)) (key : String) : Option (Operand Float) :=
  (entries.find? (·.1 = key)).map Prod.snd

/-- a value as it may stand in a mapping: one number, or nested lists of numbers -/
def mappedValue (x : Operand Float) : Session Float (Operand Float) := do
  match x with
  | .list _ => Quantity.kept x
  | .integer _ | .number _ | .item (.real _) => return .number (← x.toNumber (← get))
  | x => throw (.format (.valueNotNumber x.shown))

/-- the quantity that a mapping tells of -/
def ofMapping (x target : Operand Float) : Session Float (Quantity (Operand Float)) := do
  match x with
  | .mapping entries =>
    match valueUnder? entries "value", valueUnder? entries "unit" with
    | some value, some (.text unit) =>
      let value ← mappedValue value
      let q ← refusing (.invalidMappingUnit unit) do Quantity.of value (← unitOf (.text unit))
      retarget q target
    | some _, some unit => throw (.format (.unitNotText unit.kind))
    | _, _ => throw (.format (.missingKeys (["value", "unit"].filter fun key => (valueUnder? entries key).isNone)))
  | x => throw (.format (.notMapping x.kind))

end UnitAlgebra.Session

/-
Quantities expressed in units and written out. A quantity is written as its value and the name of its storage unit, or
in a unit that a format begins with: `km:.2f` asks for kilometres with two places, `.2f` for two places in the
quantity's own unit, and `km:2` is short for `km:.2f`.

Results:
- `split_without_colon`: without a colon, a number format names no unit and all else is one.
- `split_colon`: what stands before the first colon is a unit, if anything does.
-/
import UnitAlgebra.Quantity.Access
import UnitAlgebra.NumberFormat.Layout
import UnitAlgebra.Operand.Text

namespace UnitAlgebra

/-! ## In other units -/

namespace Session

variable {κ : Type} [Numeric κ]

/-- the number that a quantity is in a unit, or how many times another quantity it is -/
def expressedIn (q : Quantity (Operand κ)) (x : Operand κ) : Session κ (Operand κ) := do
  match x with
  | .quantity r =>
    match ← operateLeft .div q (.quantity r) with
    | .quantity ratio =>
      if ratio.dimension.isOne then ratio.erase else throw (.mismatch r.dimension q.dimension .convert)
    | _ => throw (.wrongType none)
  | x => q.inUnit (← unitLike x)

/-- a quantity in the storage unit of a unit -/
def storedIn (q : Quantity (Operand κ)) (x : Operand κ) : Session κ (Operand κ) := do
  return .quantity (← q.toStorageOf (← unitOf x))

/-- a quantity in a scale that is given as an operand -/
def scaledTo (q : Quantity (Operand κ)) (x : Operand κ) : Session κ (Operand κ) := do
  match x with
  | .scale s => return .quantity (← q.toScale s)
  | _ => throw .noProperty

/-! ## Names beside values -/

/-- the symbol of a unit that is written in any of its spellings; other expressions are shown as they are -/
def symbolOf (text : String) : Session κ String := do
  let r ← registry
  match r.find? text with
  | some e => return e.unit.symbol
  | none =>
    match ← r.findPrefixed? text with
    | some (p, e) => return p.symbol ++ e.unit.symbol
    | none => return text

/-- a value text with a name after it, which may be empty -/
def beside (value name : String) : String := if name.isEmpty then value else value ++ " " ++ name

/-- a value text with the name of the storage unit; bare numbers have none -/
def withUnitName (q : Quantity (Operand κ)) (value : Session κ String) : Session κ String := do
  if q.dimension.isOne && q.scale.isOne then value
  else
    let name ← nameOf q.dimension q.scale
    return beside (← value) name

end Session

/-! ## Formats -/

/-- a format with the unit that it begins with -/
structure QuantityFormat where
  unit : Option (List Char)
  number : List Char
deriving DecidableEq, Repr

namespace QuantityFormat

/-- a run of digits alone is a number of places -/
def places (cs : List Char) : List Char :=
  if !cs.isEmpty && cs.all Text.isDecimal then '.' :: cs ++ ['f'] else cs

/-- the text is a format for any number -/
def isNumber (cs : List Char) : Bool := (NumberFormat.read? cs).any NumberFormat.isReal

def isInUnit (c : Char) : Bool := c ≠ ':'

/-- a unit ends at the first colon; without one, what is no number format is a unit -/
def split (cs : List Char) : QuantityFormat :=
  match cs.takeWhile isInUnit, cs.dropWhile isInUnit with
  | c :: unit, _ :: number => ⟨some (c :: unit), places number⟩
  | _, _ => if isNumber cs then ⟨none, cs⟩ else ⟨some cs, []⟩

theorem isInUnit_of_mem {cs : List Char} (h : ':' ∉ cs) : ∀ c ∈ cs, isInUnit c = true := by
  intro c hc
  simp only [isInUnit, decide_eq_true_eq]
  rintro rfl
  exact h hc

/-- Without a colon, a number format names no unit and all else is one. -/
theorem split_without_colon {cs : List Char} (h : ':' ∉ cs) :
    split cs = if isNumber cs then ⟨none, cs⟩ else ⟨some cs, []⟩ := by
  have hd : (cs ++ []).dropWhile isInUnit = [].dropWhile isInUnit :=
    List.dropWhile_append_of_pos (isInUnit_of_mem h)
  rw [List.append_nil] at hd
  simp [split, hd]

/-- What stands before the first colon is a unit. -/
theorem split_colon {c : Char} {unit : List Char} (h : ':' ∉ c :: unit) (number : List Char) :
    split (c :: unit ++ ':' :: number) = ⟨some (c :: unit), places number⟩ := by
  have hc : isInUnit ':' = false := by decide
  have ht : (c :: unit ++ ':' :: number).takeWhile isInUnit = c :: unit ++ (':' :: number).takeWhile isInUnit :=
    List.takeWhile_append_of_pos (isInUnit_of_mem h)
  have hd : (c :: unit ++ ':' :: number).dropWhile isInUnit = (':' :: number).dropWhile isInUnit :=
    List.dropWhile_append_of_pos (isInUnit_of_mem h)
  rw [List.takeWhile_cons_of_neg (by simp [hc]), List.append_nil] at ht
  rw [List.dropWhile_cons_of_neg (by simp [hc])] at hd
  simp only [split, ht, hd]

end QuantityFormat

/-! ## Texts -/

namespace Session

/-- a cell in a number format -/
def formattedCell (f : NumberFormat) : Cell Float → Outcome String
  | .flag b => f.writeWhole (if b then 1 else 0)
  | .integer n => f.writeWhole n
  | .real x => f.write x

/-- the single cell that an operand is -/
def singleCell? (x : Operand Float) : Session Float (Option (Cell Float)) := do
  match x with
  | .flag b => return some (.flag b)
  | .integer n => return some (.integer n)
  | .number y => return some (.real y)
  | .item c => return some c
  | .array v =>
    match (← readView v).grid with
    | ⟨[], [c]⟩ => return some c
    | _ => return none
  | _ => return none

/-- a bare value in a format; without a format it is written plainly -/
def formatted (x : Operand Float) (spec : List Char) : Session Float String := do
  match ← singleCell? x, spec with
  | some (.flag b), [] => return Operand.truthText b
  | none, [] => return x.plain
  | some c, spec =>
    if spec.contains '\x7b' || spec.contains '\x7d' then throw (.badValue none)
    match NumberFormat.read? spec with
    | some f => return ← formattedCell f c
    | none => throw (.badValue none)
  | none, _ =>
    match x with
    | .text _ => throw (.badValue none)
    | _ => throw (.wrongType none)

/-- a quantity as a value with the name of its storage unit -/
def written (q : Quantity (Operand Float)) : Session Float String := withUnitName q (formatted q.value [])

/-- a quantity in a format -/
def writtenAs (q : Quantity (Operand Float)) (spec : String) : Session Float String := do
  let f := QuantityFormat.split spec.toList
  match f.unit with
  | none => withUnitName q (formatted q.value f.number)
  | some unit =>
    let text := String.ofList unit
    let x ← expressedIn q (.text text)
    let symbol ← symbolOf text
    return (← formatted x f.number) ++ " " ++ symbol

end Session

end UnitAlgebra

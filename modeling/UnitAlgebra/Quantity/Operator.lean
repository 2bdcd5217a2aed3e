/-
Operators on operands. Either side may be a quantity: an operator with a quantity on its right is the function with
the operands as they stand, and a comparison is its converse with the sides exchanged. Equality compares values
after alignment and never finds operands of other kinds equal.

Results:
- `converse_converse`: a comparison turned round twice is the same comparison.
-/
import UnitAlgebra.Quantity.Elementwise

namespace UnitAlgebra

variable {κ : Type} [Numeric κ]

/-! ## Operators -/

inductive Operator where
  | add | sub | mul | div | floorDiv | mod | pow | matmul | eq | ne | lt | le | gt | ge | divmod
deriving DecidableEq, Repr

namespace Operator

def name : Operator → String
  | add => "add" | sub => "sub" | mul => "mul" | div => "truediv" | floorDiv => "floordiv" | mod => "mod"
  | pow => "pow" | matmul => "matmul" | eq => "eq" | ne => "ne" | lt => "lt" | le => "le" | gt => "gt" | ge => "ge"
  | divmod => "divmod"

def all : List Operator := [add, sub, mul, div, floorDiv, mod, pow, matmul, eq, ne, lt, le, gt, ge, divmod]

def ofName? (s : String) : Option Operator := all.find? (·.name = s)

def function : Operator → TensorFunction
  | add => .each .add
  | sub => .each .subtract
  | mul => .each .multiply
  | div => .each .divide
  | floorDiv => .each .floorDivide
  | mod => .each .remainder
  | pow => .each .power
  | matmul => .matmul
  | eq => .each .equal
  | ne => .each .notEqual
  | lt => .each .less
  | le => .each .lessEqual
  | gt => .each .greater
  | ge => .each .greaterEqual
  | divmod => .each .divmod

/-- comparisons with their sides exchanged -/
def converse : Operator → Operator
  | lt => gt
  | le => ge
  | gt => lt
  | ge => le
  | o => o

def isComparison : Operator → Bool
  | eq | ne | lt | le | gt | ge => true
  | _ => false

/-- operators that leave lists of quantities to others -/
def yields : Operator → Bool
  | add | sub | mul | div | mod | pow | matmul => true
  | _ => false

/-- operators that do so with the list on their left -/
def yieldsReflected (o : Operator) : Bool := o.yields && o ≠ mod

/-- A comparison turned round twice is the same comparison. -/
theorem converse_converse (o : Operator) : o.converse.converse = o := by cases o <;> rfl

end Operator

/-- a list or the like that begins with a quantity -/
def Operand.beginsWithQuantity : Operand κ → Bool
  | list (quantity _ :: _) => true
  | _ => false

namespace Session

/-! ## Equality -/

/-- the operand is computed with cell by cell -/
def isTensor : Operand κ → Bool
  | .array _ | .item _ => true
  | _ => false

/-- an operand that can be compared with cells -/
def isComparable : Operand κ → Bool
  | .flag _ | .integer _ | .number _ | .item _ | .array _ | .list _ | .tuple _ => true
  | _ => false

/-- a verdict about a single value is a truth value -/
def verdict : Operand κ → Operand κ
  | .item (.flag b) => .flag b
  | x => x

/-- equality of bare operands, cell by cell where one of them has cells -/
def equalBare (a b : Operand κ) : Session κ (Operand κ) := do
  if isTensor a || isTensor b then
    if isComparable a && isComparable b then return verdict (together (← computePlainly .equal [a, b]))
    else
      let t ← tensorOf (if isTensor a then a else b)
      return verdict (← computed ⟨.flag, t.grid.map fun _ => .flag false⟩)
  else return .flag (a.same b)

/-- the opposite of verdicts -/
def opposite (x : Operand κ) : Session κ (Operand κ) := do
  match x with
  | .flag b => return .flag !b
  | x => elementwise₁ .logicalNot [x]

/-- equality of a quantity with an operand of its dimension -/
def equality (q : Quantity (Operand κ)) (x : Operand κ) : Session κ (Operand κ) := do
  if x.isSeries then return .declined
  let p ← Participant.ofOperand x
  let own : Participant κ := ⟨q, false⟩
  let u ← UnitRule.unit .shared (.plain "__eq__") [own, p]
  equalBare (← UnitRule.alignedValue u own) (← UnitRule.alignedValue u p)

/-! ## Signs -/

/-- a sign before an operand, or its size; plain numbers stay plain -/
def signed (f : Elementwise) (x : Operand κ) : Session κ (Operand κ) :=
  match plain? x with
  | some (.whole n) => do return .integer (← f.onWide n)
  | some (.number x) =>
    match f.onNumber x with
    | [.real y] => return .number y
    | _ => throw (.wrongType none)
  | none =>
    match x with
    | .quantity _ | .array _ | .item _ | .series => call f [x]
    | .dimension d => if f = .negative then return .dimension d.neg else throw (.wrongType none)
    | _ => throw (.wrongType none)

/-! ## Binary operators -/

/-- an operator on operands without units -/
def operateBare (o : Operator) (a b : Operand κ) : Session κ (Operand κ) := do
  match o with
  | .add => arithmetic .add a b
  | .sub => arithmetic .sub a b
  | .mul => arithmetic .mul a b
  | .div => arithmetic .div a b
  | .eq => equalBare a b
  | .ne => opposite (← equalBare a b)
  | .floorDiv | .mod | .divmod =>
    if (plain? a).isSome && (plain? b).isSome && b.isZero (← get) then throw .divisionByZero
    else apply o.function .plainly [] [a, b]
  | o => apply o.function .plainly [] [a, b]

/-- an operator with a quantity on its left; lists of quantities and columns of tables are left to themselves -/
def operateLeft (o : Operator) (q : Quantity (Operand κ)) (b : Operand κ) : Session κ (Operand κ) := do
  if o.yields && (b.isSeries || b.beginsWithQuantity) then return .declined
  else match o with
    | .eq => equality q b
    | o => apply o.function .plainly [] [.quantity q, b]

/-- the function of an operator on an operand and a quantity, in this order -/
def operateReflected (o : Operator) (a : Operand κ) (q : Quantity (Operand κ)) : Session κ (Operand κ) := do
  if o.yieldsReflected && (a.isSeries || a.beginsWithQuantity) then return .declined
  else apply o.function .plainly [] [a, .quantity q]

/-- an operator with a quantity on its right -/
def operateRight (o : Operator) (a : Operand κ) (q : Quantity (Operand κ)) : Session κ (Operand κ) :=
  if o.isComparison && !isTensor a then operateLeft o.converse q a else operateReflected o a q

/-- what is left of an operator that has been declined -/
def settle (other x : Operand κ) : Outcome (Operand κ) :=
  match x with
  | .declined => if other.isSeries then .ok .series else .error (.wrongType none)
  | x => .ok x

def operate (o : Operator) (a b : Operand κ) : Session κ (Operand κ) := do
  match a, b with
  | .quantity q, b => return ← settle b (← operateLeft o q b)
  | a, .quantity q => return ← settle a (← operateRight o a q)
  | a, b => operateBare o a b

/-! ## Updates -/

/-- an update of a quantity in its own array, prepared; nothing for a single value -/
def prepareUpdate (o : Operator) (q : Quantity (Operand κ)) (b : Operand κ) : Session κ (Prepared κ (Operand κ)) := do
  if !q.value.isArray || b.isSeries || b.beginsWithQuantity then return .done .declined
  else prepare o.function .plainly [.quantity q] [.quantity q, b]

/-- an update of a quantity in its own array -/
def updateLeft (o : Operator) (q : Quantity (Operand κ)) (b : Operand κ) : Session κ (Operand κ) := do
  (← prepareUpdate o q b).run

/-- an updating operator; where nothing can be updated in place, the plain operator gives the new value -/
def update (o : Operator) (a b : Operand κ) : Session κ (Operand κ) := do
  match a with
  | .quantity q =>
    match ← updateLeft o q b with
    | .declined => operate o a b
    | x => return x
  | .array _ => apply o.function .plainly [a] [a, b]
  | a => operate o a b

end Session

end UnitAlgebra

/-
Sessions: computations over shared memory, under the scale policy and the registry in force, that may end in a fault.
A fault leaves no trace: the memory after it is the memory before. Lists are read as tensors however deeply they are
nested; that arrays have no more than 64 axes is left out.

Results:
- `step_number`: on a plain number, a conversion step is the step on the number.
-/
import UnitAlgebra.Operand
import UnitAlgebra.Conversion
import UnitAlgebra.Decimal.Reader

namespace UnitAlgebra

/-! ## Sessions -/

/-- what is in force while a session runs -/
structure Context (κ : Type) where
  policy : ScalePolicy
  registry : Registry κ

abbrev Session (κ : Type) := ReaderT (Context κ) (StateT (Store κ) Outcome)

namespace Session

variable {κ : Type} [Numeric κ]

def policy : Session κ ScalePolicy := do return (← read).policy

def registry : Session κ (Registry κ) := do return (← read).registry

/-! ## Tensors in memory -/

def readView (v : View) : Session κ (Tensor κ) := do return (← get).read v

def writeView (v : View) (t : Tensor κ) : Session κ Unit := modify fun s => s.write v t

/-- a tensor in a buffer of its own -/
def newArray (t : Tensor κ) : Session κ (Operand κ) := do
  let (s, v) := (← get).alloc t
  set s
  return .array v

/-- a computed tensor: an item if it has no axes, else an array of its own -/
def computed (t : Tensor κ) : Session κ (Operand κ) :=
  match t.grid.shape, t.grid.entries with
  | [], [c] => pure (.item c)
  | _, _ => newArray t

end Session

/-! ## Operands as tensors -/

namespace Operand

variable {κ : Type} [Numeric κ]

/-- how the elements of nested lists are read: as they are, or all as numbers -/
inductive Reading where
  | asIs | numbers
deriving DecidableEq, Repr

/-- a whole number as a cell -/
def integerCell (n : Int) : Outcome (Cell κ) :=
  if wrapped n = n then .ok (.integer n) else .error .tooLarge

/-- a single value as a cell; texts are read and absence is no number where all is to be numbers -/
def cell (reading : Reading) : Operand κ → Outcome (Cell κ)
  | flag b => .ok (.flag b)
  | integer n => if reading = .numbers then (Numeric.ofInt n).map .real else integerCell n
  | number x => .ok (.real x)
  | item c => .ok c
  | text s =>
    if reading = .asIs then .error (.wrongType none)
    else match Decimal.readNumber? s with
      | some n => n.value.map .real
      | none => .error (.badValue none)
  | absent => if reading = .asIs then .error (.wrongType none) else .ok (.real Numeric.nan)
  | _ => .error (.wrongType none)

/-- grids of one box as the rows of a grid; no rows make an empty one -/
def rows {α : Type} (gs : List (Grid α)) : Outcome (Grid α) :=
  match gs with
  | [] => .ok ⟨[0], []⟩
  | g :: _ =>
    if gs.all (·.shape = g.shape) then .ok ⟨gs.length :: g.shape, gs.flatMap Grid.entries⟩
    else .error (.badValue none)

mutual

/-- the leaves of an operand, by the nesting of lists and tuples -/
def leaves (s : Store κ) : Operand κ → Outcome (Grid (Operand κ))
  | list xs => do rows (← leavesAll s xs)
  | tuple xs => do rows (← leavesAll s xs)
  | array v => .ok ((s.read v).grid.map item)
  | quantity q => leaves s q.value
  | x => .ok (.scalar x)

def leavesAll (s : Store κ) : List (Operand κ) → Outcome (List (Grid (Operand κ)))
  | [] => .ok []
  | x :: xs => do
    let g ← leaves s x
    let gs ← leavesAll s xs
    return g :: gs

end

/-- an operand as a tensor -/
def toTensor (s : Store κ) (reading : Reading) (x : Operand κ) : Outcome (Tensor κ) :=
  match x with
  | array v => .ok (s.read v)
  | _ => do
    let g ← leaves s x
    let cells ← g.entries.mapM (cell reading)
    let kind := if reading = .numbers then Kind.real else Kind.joinAll (cells.map Cell.kind)
    return ⟨kind, g.shape, cells.map (Cell.cast kind)⟩

/-- the number of axes -/
def rank (s : Store κ) (x : Operand κ) : Nat :=
  match x with
  | array v => v.rank
  | list _ | tuple _ => ((leaves s x).toOption.map Grid.rank).getD 1
  | _ => 0

/-- an operand as one number -/
def toNumber (s : Store κ) : Operand κ → Outcome κ
  | flag b => .ok (if b then Numeric.one else Numeric.zero)
  | integer n => Numeric.ofInt n
  | number x => .ok x
  | item c => .ok c.toNumber
  | text t =>
    match Decimal.readNumber? t with
    | some n => n.value
    | none => .error (.badValue none)
  | array v =>
    match (s.read v).grid with
    | ⟨[], [c]⟩ => .ok c.toNumber
    | _ => .error (.wrongType none)
  | _ => .error (.wrongType none)

/-- the operand has the value zero throughout -/
def isZero (s : Store κ) : Operand κ → Bool
  | flag b => !b
  | integer n => n = 0
  | number x => Numeric.isZero x
  | item c => !c.toBool
  | array v => (s.read v).isZero
  | _ => false

end Operand

namespace Session

variable {κ : Type} [Numeric κ]

/-! ## Elementwise functions on bare operands -/

def tensorOf (x : Operand κ) : Session κ (Tensor κ) := do
  let t ← x.toTensor (← get) .asIs
  return t

/-- the results of an elementwise function, each of its own -/
def elementwise (f : Elementwise) (xs : List (Operand κ)) : Session κ (List (Operand κ)) := do
  let ts ← xs.mapM tensorOf
  (← Tensor.elementwise f ts).mapM computed

/-- the result of an elementwise function that has one -/
def elementwise₁ (f : Elementwise) (xs : List (Operand κ)) : Session κ (Operand κ) := do
  match ← elementwise f xs with
  | [x] => return x
  | xs => return .tuple xs

/-! ## Arithmetic on bare operands

Plain numbers stay plain, and their division by zero is a fault; items and arrays are computed as tensors. -/

/-- plain numbers of either sort -/
inductive Plain (κ : Type) where
  | whole (n : Int)
  | number (x : κ)

def plain? : Operand κ → Option (Plain κ)
  | .flag b => some (.whole (if b then 1 else 0))
  | .integer n => some (.whole n)
  | .number x => some (.number x)
  | _ => none

def Plain.toNumber : Plain κ → Outcome κ
  | .whole n => Numeric.ofInt n
  | .number x => .ok x

/-- the quotient of two whole numbers as a number -/
def wholeQuotient (m n : Int) : Outcome κ :=
  if n = 0 then .error .divisionByZero
  else match Numeric.quotient? m n with
    | some x => .ok x
    | none => .error .tooLarge

/-- arithmetic on plain numbers -/
def plainArithmetic (c : Combination) (a b : Plain κ) : Outcome (Operand κ) :=
  match c, a, b with
  | .add, .whole m, .whole n => .ok (.integer (m + n))
  | .sub, .whole m, .whole n => .ok (.integer (m - n))
  | .mul, .whole m, .whole n => .ok (.integer (m * n))
  | .div, .whole m, .whole n => (wholeQuotient m n).map .number
  | c, a, b => do
    let x ← a.toNumber
    let y ← b.toNumber
    match c with
    | .add => return .number (Numeric.add x y)
    | .sub => return .number (Numeric.sub x y)
    | .mul => return .number (Numeric.mul x y)
    | .div => if Numeric.isZero y then .error .divisionByZero else return .number (Numeric.div x y)

/-- the elementwise function of an operator -/
def functionOf : Combination → Elementwise
  | .add => .add
  | .sub => .subtract
  | .mul => .multiply
  | .div => .divide

/-- arithmetic on operands without units; lists take part only beside an array or item -/
def arithmetic (c : Combination) (a b : Operand κ) : Session κ (Operand κ) :=
  match plain? a, plain? b with
  | some x, some y => do
    let r ← plainArithmetic c x y
    return r
  | _, _ =>
    match a, b with
    | .series, _ | _, .series => pure .series
    | .array _, _ | .item _, _ | _, .array _ | _, .item _ => elementwise₁ (functionOf c) [a, b]
    | _, _ => throw (.wrongType none)

/-! ## Conversion steps -/

/-- a step on the value of a quantity, which keeps its own unit -/
def stepInside (c : Combination) (x : κ) (q : Quantity (Operand κ)) : Session κ (Operand κ) :=
  match c with
  | .mul | .div => do return .quantity { q with value := ← elementwise₁ (functionOf c) [q.value, .number x] }
  | .add | .sub => do
    let f := functionOf c
    let place : Operation := .apply f.name (.nth 1 "argument")
    if q.dimension = .one then
      let scale ← (← policy).resolve q.scale .one (some place)
      let left ← if q.scale = scale then pure q.value
        else arithmetic .mul q.value (.number (← Numeric.ratio q.scale scale))
      let right ← if Scale.one = scale then pure (.number x)
        else arithmetic .mul (.number x) (.number (← Numeric.ratio .one scale))
      return .quantity ⟨← elementwise₁ f [left, right], q.dimension, scale⟩
    else throw (.mismatch q.dimension .one place)

/-- arithmetic with a number on the right -/
def withNumber (c : Combination) (a : Operand κ) (x : κ) : Session κ (Operand κ) :=
  match a with
  | .quantity q => stepInside c x q
  | a => arithmetic c a (.number x)

/-- a conversion step on an operand -/
def step (a : Operand κ) : Step κ → Session κ (Operand κ)
  | .times c => withNumber .mul a c
  | .plus c => withNumber .add a c
  | .minus c => withNumber .sub a c
  | .dividedBy c => withNumber .div a c
  | .move s t => do withNumber .mul a (← Numeric.ratio s t)

/-- conversion steps on an operand, one after the other -/
def convert (a : Operand κ) (steps : List (Step κ)) : Session κ (Operand κ) := steps.foldlM step a

/-- On a plain number, a conversion step is the step on the number. -/
theorem step_number (x : κ) (s : Step κ) (c : Context κ) (m : Store κ) :
    step (.number x) s c m = (s.onNumber x).map fun y => (.number y, m) := by
  cases s with
  | times => rfl
  | plus => rfl
  | minus => rfl
  | dividedBy d =>
    simp only [step, withNumber, arithmetic, plain?, plainArithmetic, Plain.toNumber, Step.onNumber]
    by_cases h : Numeric.isZero d
    · simp only [bind, Except.bind, h, if_true]; rfl
    · simp only [bind, Except.bind, h, if_false, Bool.false_eq_true]; rfl
  | move s t =>
    simp only [step, withNumber, arithmetic, plain?, plainArithmetic, Plain.toNumber, Step.onNumber]
    cases Numeric.ratio (κ := κ) s t <;> rfl

end Session

end UnitAlgebra

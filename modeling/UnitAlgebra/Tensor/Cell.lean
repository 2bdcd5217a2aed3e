/-
Cells of tensors: truth values, whole numbers of 64 bits, and numbers. The kinds are ordered, and a cell can be taken
to any kind. Whole numbers are signed, but for single ones that need all their bits.

Results:
- `kind_cast`: a cell that is taken to a kind has that kind.
- `cast_kind`: a cell taken to its own kind is kept.
-/
import UnitAlgebra.Numeric

namespace UnitAlgebra

/-! ## Kinds -/

inductive Kind where
  | flag | integer | real
deriving DecidableEq, Repr

namespace Kind

def rank : Kind → Nat
  | flag => 0
  | integer => 1
  | real => 2

/-- the kind that holds the cells of both -/
def join (a b : Kind) : Kind := if a.rank < b.rank then b else a

/-- the kind that holds the cells of all; numbers, if there are none -/
def joinAll : List Kind → Kind
  | [] => real
  | a :: rest => rest.foldl join a

/-- the name of the kind -/
def text : Kind → String
  | flag => "bool"
  | integer => "int64"
  | real => "float64"

/-- the number of bytes of a cell -/
def bytes : Kind → Nat
  | flag => 1
  | integer | real => 8

end Kind

/-! ## Cells -/

inductive Cell (κ : Type) where
  | flag (b : Bool)
  | integer (n : Int)
  | real (x : κ)
deriving Repr

/-- the least whole number of 64 bits -/
def leastWhole : Int := -9223372036854775808

/-- a whole number of 64 bits; what does not fit wraps around -/
def wrapped (n : Int) : Int := Int.bmod n (1 <<< 64)

/-- the whole number is too large for a signed one of 64 bits, not for an unsigned one -/
def isUnsigned (n : Int) : Bool := -leastWhole ≤ n && n < 1 <<< 64

/-- a whole number that is computed from another: it wraps around in the range of the cells that can hold that, if any -/
def wrappedAs (n k : Int) : Int :=
  if wrapped n = n then wrapped k
  else if isUnsigned n then k % (1 <<< 64)
  else k

namespace Cell

variable {κ : Type} [Numeric κ]

def kind : Cell κ → Kind
  | flag _ => .flag
  | integer _ => .integer
  | real _ => .real

/-- the cell as a whole number; a number loses its fraction -/
def toInt : Cell κ → Int
  | flag b => if b then 1 else 0
  | integer n => n
  | real x => if Numeric.isFinite x then wrapped (Numeric.truncated x) else leastWhole

/-- the cell as a number -/
def toNumber : Cell κ → κ
  | flag b => if b then Numeric.one else Numeric.zero
  | integer n => (Numeric.ofInt? n).getD Numeric.nan
  | real x => x

/-- the cell as a truth value: everything but zero is true -/
def toBool : Cell κ → Bool
  | flag b => b
  | integer n => n ≠ 0
  | real x => !Numeric.isZero x

def cast (k : Kind) (c : Cell κ) : Cell κ :=
  match k, c with
  | .flag, c => flag c.toBool
  | .integer, real x => integer (real x).toInt
  | .integer, integer n => integer n
  | .integer, flag b => integer (if b then 1 else 0)
  | .real, c => real c.toNumber

/-- A cell that is taken to a kind has that kind. -/
theorem kind_cast (k : Kind) (c : Cell κ) : (c.cast k).kind = k := by cases k <;> cases c <;> rfl

/-- A cell taken to its own kind is kept. -/
theorem cast_kind (c : Cell κ) : c.cast c.kind = c := by cases c <;> rfl

end Cell

end UnitAlgebra

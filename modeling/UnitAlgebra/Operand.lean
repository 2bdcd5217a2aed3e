/-
Operands: whatever the functions on quantities may be handed. Most of them are refused by most functions; which ones,
and how, is part of what the functions do, so an operand of any kind has to be representable.

A number that comes out of a tensor computation is an item: it divides by zero without complaint, and a plain number
does not.
-/
import UnitAlgebra.Tensor.Store
import UnitAlgebra.Registry.Build
import UnitAlgebra.Policy

namespace UnitAlgebra

/-- a value stored in the unit of a dimension and a scale -/
structure Quantity (V : Type) where
  value : V
  dimension : Dimension
  scale : Scale
deriving DecidableEq, Repr

inductive Operand (κ : Type) where
  /-- no value -/
  | absent
  | flag (b : Bool)
  | integer (n : Int)
  | number (x : κ)
  | text (s : String)
  /-- a cell taken out of a tensor -/
  | item (c : Cell κ)
  | array (v : View)
  | list (xs : List (Operand κ))
  | tuple (xs : List (Operand κ))
  | mapping (entries : List (String × Operand κ))
  | slice (start stop step : Operand κ)
  | quantity (q : Quantity (Operand κ))
  | unit (u : UnitMeaning κ)
  | dimension (d : Dimension)
  | scale (s : Scale)
  | policy (p : ScalePolicy)
  | registry (r : Registry κ)
  /-- a labelled column of a table, whose arithmetic is its own -/
  | series
  /-- the answer that another operand should be asked -/
  | declined

namespace Operand

variable {κ : Type}

instance : Inhabited (Operand κ) := ⟨absent⟩

/-- the name of the kind of an operand -/
def kind : Operand κ → String
  | absent => "NoneType"
  | flag _ | item (.flag _) => "bool"
  | integer _ => "int"
  | number _ => "float"
  | text _ => "str"
  | item (.integer _) => "int64"
  | item (.real _) => "float64"
  | array _ => "ndarray"
  | list _ => "list"
  | tuple _ => "tuple"
  | mapping _ => "dict"
  | slice _ _ _ => "slice"
  | quantity _ => "Quantity"
  | unit _ => "ResolvedUnit"
  | dimension _ => "DimensionVector"
  | scale _ => "ScaleVector"
  | policy _ => "RescalePolicy"
  | registry _ => "Registry"
  | series => "Series"
  | declined => "NotImplementedType"

/-- a quantity or nothing -/
def quantity? : Operand κ → Option (Quantity (Operand κ))
  | quantity q => some q
  | _ => none

def isQuantity (x : Operand κ) : Bool := x.quantity?.isSome

def isSeries : Operand κ → Bool
  | series => true
  | _ => false

def isArray : Operand κ → Bool
  | array _ => true
  | _ => false

def isAbsent : Operand κ → Bool
  | absent => true
  | _ => false

/-- an operand, or nothing for an absent one -/
def present? : Operand κ → Option (Operand κ)
  | absent => none
  | x => some x

/-- the elements of a list or tuple -/
def elements? : Operand κ → Option (List (Operand κ))
  | list xs | tuple xs => some xs
  | _ => none

/-- a whole number; a truth value counts as one or zero -/
def integer? : Operand κ → Option Int
  | integer n | item (.integer n) => some n
  | flag b => some (if b then 1 else 0)
  | _ => none

/-- a whole number where positions are told: a truth value is none -/
def position? : Operand κ → Option Int
  | flag _ => none
  | x => x.integer?

/-- everything but absence, false, zero and emptiness counts as true -/
def truth [Numeric κ] : Operand κ → Bool
  | absent => false
  | flag b => b
  | integer n => n ≠ 0
  | number x => !Numeric.isZero x
  | item c => c.toBool
  | text s => !s.isEmpty
  | list xs | tuple xs => !xs.isEmpty
  | mapping entries => !entries.isEmpty
  | _ => true

end Operand

end UnitAlgebra

/-
How operands are shown: in messages, where texts stand between quotes, and on their own.
-/
import UnitAlgebra.Operand
import UnitAlgebra.Decimal.Functions
import UnitAlgebra.Text.Quoted

namespace UnitAlgebra.Operand

def truthText (b : Bool) : String := if b then "True" else "False"

/-- a cell on its own -/
def cellText : Cell Float → String
  | .flag b => truthText b
  | .integer n => Exponent.decimal n
  | .real x => Decimal.text x

/-- a cell in a message -/
def cellShown : Cell Float → String
  | .flag b => "np." ++ truthText b ++ "_"
  | .integer n => "np.int64(" ++ Exponent.decimal n ++ ")"
  | .real x => "np.float64(" ++ Decimal.text x ++ ")"

def dimensionShown (d : Dimension) : String :=
  "DimensionVector(" ++
    ", ".intercalate (Axis.all.map fun a => a.name ++ "=" ++ Exponent.decimal (d.get a).val) ++ ")"

def scaleShown (s : Scale) : String :=
  "ScaleVector(" ++ ", ".intercalate (Base.all.map fun b => b.name ++ "=" ++ Exponent.decimal (s.get b).val) ++ ")"

def unitShown (u : UnitMeaning Float) : String :=
  "ResolvedUnit(dimension=" ++ dimensionShown u.dimension ++ ", scale=" ++ scaleShown u.scale ++
    ", conversion_factor=" ++ Decimal.text u.factor ++ ", affine_offset=" ++ Decimal.text u.offset ++ ", text=" ++
    (match u.text with
      | some t => Text.quoted t
      | none => "None") ++ ")"

mutual

/-- an operand in a message -/
def shown : Operand Float → String
  | absent => "None"
  | flag b => truthText b
  | integer n => Exponent.decimal n
  | number x => Decimal.text x
  | text s => Text.quoted s
  | item c => cellShown c
  | array _ => "array"
  | list xs => "[" ++ ", ".intercalate (shownAll xs) ++ "]"
  | tuple [x] => "(" ++ shown x ++ ",)"
  | tuple xs => "(" ++ ", ".intercalate (shownAll xs) ++ ")"
  | mapping entries => "\x7b" ++ ", ".intercalate (shownEntries entries) ++ "\x7d"
  | slice start stop step => "slice(" ++ shown start ++ ", " ++ shown stop ++ ", " ++ shown step ++ ")"
  | quantity ⟨v, d, s⟩ =>
    "Quantity(value=" ++ shown v ++ ", dimension=" ++ dimensionShown d ++ ", scale=" ++ scaleShown s ++ ")"
  | unit u => unitShown u
  | dimension d => dimensionShown d
  | scale s => scaleShown s
  | policy p => "<RescalePolicy." ++ p.constant ++ ": '" ++ p.text ++ "'>"
  | registry _ => "Registry"
  | series => "Series"
  | declined => "NotImplemented"

def shownAll : List (Operand Float) → List String
  | [] => []
  | x :: xs => shown x :: shownAll xs

def shownEntries : List (String × Operand Float) → List String
  | [] => []
  | (k, x) :: entries => (Text.quoted k ++ ": " ++ shown x) :: shownEntries entries

end

/-- an operand on its own -/
def plain : Operand Float → String
  | text s => s
  | item c => cellText c
  | dimension d => d.text
  | scale s => s.text
  | policy p => p.text
  | x => shown x

end UnitAlgebra.Operand

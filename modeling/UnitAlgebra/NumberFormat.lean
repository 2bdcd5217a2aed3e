/-
Number formats: `[[fill]justification][sign][z][#][0][width][grouping][.precision][form]`, every part of which may be
left out. A text is read into a record; how numbers are written by it is in `UnitAlgebra.NumberFormat.Layout`.

Results:
- `splitFill_fill`: whatever stands before a justification mark is the fill, also a mark or a colon.
-/
import UnitAlgebra.Decimal.Reader

namespace UnitAlgebra

/-- where a number stands in a field that is wider than it -/
inductive Justification where
  | left | right | centre
  /-- the padding goes between the sign and the digits -/
  | afterSign
deriving DecidableEq, Repr

/-- the sign asked for before a number that is not negative; a minus stands for none -/
inductive SignMark where
  | unstated | minus | plus | blank
deriving DecidableEq, Repr

/-- what stands between groups of digits -/
inductive Grouping where
  | comma | underscore
deriving DecidableEq, Repr

inductive NumberForm where
  | exponent (capital : Bool)
  | fixed (capital : Bool)
  | general (capital : Bool)
  /-- the general form with the separators of the place, of which there are none -/
  | localized
  | percent
  /-- the character with the number as code -/
  | character
  /-- a whole number in a base -/
  | whole (base : Nat) (capital : Bool)
deriving DecidableEq, Repr

structure NumberFormat where
  fill : Option Char
  justification : Option Justification
  sign : SignMark
  /-- a negative number that is rounded to zero loses its sign -/
  unsignedZero : Bool
  alternate : Bool
  zeroFilled : Bool
  width : Nat
  grouping : Option Grouping
  precision : Option Nat
  form : Option NumberForm
deriving DecidableEq, Repr

namespace Justification

def ofChar? : Char → Option Justification
  | '<' => some left
  | '>' => some right
  | '^' => some centre
  | '=' => some afterSign
  | _ => none

end Justification

namespace NumberForm

def ofChar? : Char → Option NumberForm
  | 'e' => some (exponent false)
  | 'E' => some (exponent true)
  | 'f' => some (fixed false)
  | 'F' => some (fixed true)
  | 'g' => some (general false)
  | 'G' => some (general true)
  | 'n' => some localized
  | '%' => some percent
  | 'c' => some character
  | 'b' => some (whole 2 false)
  | 'o' => some (whole 8 false)
  | 'd' => some (whole 10 false)
  | 'x' => some (whole 16 false)
  | 'X' => some (whole 16 true)
  | _ => none

/-- the form is for whole numbers only -/
def isWhole : NumberForm → Bool
  | character | whole _ _ => true
  | _ => false

end NumberForm

namespace NumberFormat

/-- the format that asks for nothing -/
def plain : NumberFormat := ⟨none, none, .unstated, false, false, false, 0, none, none, none⟩

/-! ## Parts -/

/-- the justification with a fill before it, or alone, and what follows -/
def splitFill : List Char → (Option Char × Option Justification) × List Char
  | c :: d :: rest =>
    match Justification.ofChar? d with
    | some j => ((some c, some j), rest)
    | none => alone (c :: d :: rest)
  | cs => alone cs
where
  alone : List Char → (Option Char × Option Justification) × List Char
    | c :: rest =>
      match Justification.ofChar? c with
      | some j => ((none, some j), rest)
      | none => ((none, none), c :: rest)
    | [] => ((none, none), [])

def splitSign : List Char → SignMark × List Char
  | '+' :: rest => (.plus, rest)
  | '-' :: rest => (.minus, rest)
  | ' ' :: rest => (.blank, rest)
  | cs => (.unstated, cs)

/-- whether a mark comes first, and what follows -/
def splitMark (mark : Char) : List Char → Bool × List Char
  | c :: rest => if c = mark then (true, rest) else (false, c :: rest)
  | [] => (false, [])

def splitGrouping : List Char → Option Grouping × List Char
  | ',' :: rest => (some .comma, rest)
  | '_' :: rest => (some .underscore, rest)
  | cs => (none, cs)

/-- a point has digits after it -/
def splitPrecision? : List Char → Option (Option Nat × List Char)
  | '.' :: rest =>
    let (digits, rest) := Decimal.splitDigits rest
    if digits.isEmpty then none else some (some (Text.digitsValue digits), rest)
  | cs => some (none, cs)

/-- the form ends the text -/
def readForm? : List Char → Option (Option NumberForm)
  | [] => some none
  | [c] => (NumberForm.ofChar? c).map some
  | _ => none

/-! ## Reading -/

/-- the format that a text is -/
def read? (cs : List Char) : Option NumberFormat := do
  let ((fill, justification), cs) := splitFill cs
  let (sign, cs) := splitSign cs
  let (unsignedZero, cs) := splitMark 'z' cs
  let (alternate, cs) := splitMark '#' cs
  let (zeroFilled, cs) := if fill.isNone then splitMark '0' cs else (false, cs)
  let (width, cs) := Decimal.splitDigits cs
  let (grouping, cs) := splitGrouping cs
  let (precision, cs) ← splitPrecision? cs
  let form ← readForm? cs
  return ⟨fill, justification, sign, unsignedZero, alternate, zeroFilled, Text.digitsValue width, grouping, precision,
    form⟩

/-- the format suits numbers that are not whole -/
def isReal (f : NumberFormat) : Bool := !f.form.any NumberForm.isWhole

/-- Whatever stands before a justification mark is the fill. -/
theorem splitFill_fill {c d : Char} {j : Justification} (h : Justification.ofChar? d = some j) (rest : List Char) :
    splitFill (c :: d :: rest) = ((some c, some j), rest) := by simp [splitFill, h]

end NumberFormat

end UnitAlgebra

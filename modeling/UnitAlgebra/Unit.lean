/-
Units, the families that gather the units of one dimension, SI prefixes, and the meaning of a unit: a storage unit
(dimension and scale) with the factor and offset that lead into it.

A value `v` in a unit is stored as `v · factor + offset` in the storage unit. Factors and offsets are read only where
the scale cannot hold the unit exactly.

Results:
- `dropText_mul`, `dropText_div`: products and quotients do not look at the text of their operands.
- `stripSymbol_eq_some`: what follows a prefix symbol is not empty, and the two make up the text.
-/
import UnitAlgebra.Numeric
import UnitAlgebra.Text.CharClass

namespace UnitAlgebra

/-! ## Units -/

/-- the tradition that a unit belongs to -/
inductive UnitSystem where
  | metric | imperial | astronomical
deriving DecidableEq, Repr

namespace UnitSystem

def all : List UnitSystem := [metric, imperial, astronomical]

def text : UnitSystem → String
  | metric => "Metric"
  | imperial => "Imperial"
  | astronomical => "Astronomical"

def ofText? (s : String) : Option UnitSystem := all.find? (·.text = s)

end UnitSystem

/-- a unit of the catalog -/
structure UnitDef (κ : Type) where
  name : String
  symbol : String
  /-- further symbols -/
  aliases : List String
  /-- the scale of the storage unit -/
  scale : Scale
  factor : κ
  offset : κ
  system : UnitSystem

namespace UnitDef

variable {κ : Type} [Numeric κ]

def symbols (u : UnitDef κ) : List String := u.symbol :: u.aliases

/-- values are stored times a factor -/
def hasFactor (u : UnitDef κ) : Bool := !Numeric.isOne u.factor

/-- values are stored with an offset -/
def hasOffset (u : UnitDef κ) : Bool := !Numeric.isZero u.offset

/-- values are stored as they are -/
def isStorage (u : UnitDef κ) : Bool := !u.hasFactor && !u.hasOffset

/-- a unit with at least one symbol and a factor other than zero -/
def checked (name : String) (symbols : List String) (scale : Scale) (factor offset : κ) (system : UnitSystem) :
    Outcome (UnitDef κ) :=
  match symbols with
  | [] => .error (.badValue (some (.unitWithoutSymbol name)))
  | symbol :: aliases =>
    if Numeric.isZero factor then .error (.badValue (some (.unitWithZeroFactor name)))
    else .ok ⟨name, symbol, aliases, scale, factor, offset, system⟩

end UnitDef

/-! ## Families -/

/-- the units of one dimension; the first is the base unit -/
structure UnitFamily (κ : Type) where
  name : String
  symbol : String
  dimension : Dimension
  units : List (UnitDef κ)

namespace UnitFamily

variable {κ : Type} [Numeric κ]

def baseUnit? (f : UnitFamily κ) : Option (UnitDef κ) := f.units.head?

/-- the base unit; symbols tell the units of a registry apart -/
def isBase (f : UnitFamily κ) (u : UnitDef κ) : Bool := f.baseUnit?.any (·.symbols = u.symbols)

/-- a dimension with a single axis, to the first power -/
def isBasis (f : UnitFamily κ) : Bool :=
  let exponents := f.dimension.toList.map Exponent.val
  (exponents.map Int.natAbs).foldl (· + ·) 0 = 1 && exponents.contains 1

/-- only the base unit takes SI prefixes, and only if it is a metric storage unit -/
def isPrefixable (f : UnitFamily κ) (u : UnitDef κ) : Bool :=
  f.isBase u && u.system = .metric && u.isStorage

end UnitFamily

/-! ## SI prefixes -/

structure SiPrefix where
  name : String
  symbol : String
  /-- the power of ten -/
  exponent : Int
  aliases : List String
deriving DecidableEq, Repr

namespace SiPrefix

def symbols (p : SiPrefix) : List String := p.symbol :: p.aliases

def scale (p : SiPrefix) : Outcome Scale :=
  Scale.ofInts fun
    | .two | .five => p.exponent
    | .three | .pi => 0

/-- what follows a symbol, if that is not the whole text -/
def afterSymbol (text symbol : List Char) : Option (List Char) :=
  match Text.after? symbol text with
  | some (c :: rest) => some (c :: rest)
  | _ => none

/-- what follows the first of the symbols that the text begins with -/
def stripSymbol (p : SiPrefix) (text : List Char) : Option (List Char) :=
  p.symbols.findSome? fun s => afterSymbol text s.toList

/-- What follows a prefix symbol is not empty, and the two make up the text. -/
theorem stripSymbol_eq_some {p : SiPrefix} {text rest : List Char} (h : p.stripSymbol text = some rest) :
    rest ≠ [] ∧ ∃ s ∈ p.symbols, text = s.toList ++ rest := by
  obtain ⟨s, hs, ha⟩ := List.exists_of_findSome?_eq_some h
  unfold afterSymbol at ha
  split at ha
  · next c r hr =>
    obtain rfl := Option.some.inj ha
    exact ⟨by simp, s, hs, Text.after?_eq_some_iff.1 hr⟩
  · simp at ha

/-- what follows the name; its first letter may be a capital, the others may not -/
def stripName (p : SiPrefix) (text : List Char) : Outcome (Option (List Char)) :=
  match p.name.toList, text with
  | [], [] => .ok none
  | [], _ :: _ => .error .badIndex
  | _ :: _, [] => .ok none
  | n :: name, c :: rest =>
    .ok <| if c = n ∨ c = Text.upperChar n then
      match Text.after? name rest with
      | some (d :: remainder) => some (d :: remainder)
      | _ => none
    else none

end SiPrefix

/-! ## Meanings -/

/-- what a unit expression denotes -/
structure UnitMeaning (κ : Type) where
  dimension : Dimension
  scale : Scale
  factor : κ
  offset : κ
  /-- how the unit was written, which has no part in its meaning -/
  text : Option String

namespace UnitMeaning

variable {κ : Type} [Numeric κ]

/-- a storage unit -/
def stored (dimension : Dimension) (scale : Scale) : UnitMeaning κ := ⟨dimension, scale, Numeric.one, Numeric.zero, none⟩

/-- values are stored as they are -/
def isStorage (u : UnitMeaning κ) : Bool := Numeric.isOne u.factor && Numeric.isZero u.offset

/-- the storage unit that values are converted through -/
def storage (u : UnitMeaning κ) : UnitMeaning κ := stored u.dimension u.scale

def withoutOffset (u : UnitMeaning κ) : UnitMeaning κ := { u with offset := Numeric.zero }

def dropText (u : UnitMeaning κ) : UnitMeaning κ := { u with text := none }

/-- the same meaning, however written -/
def same (u v : UnitMeaning κ) : Bool :=
  u.dimension = v.dimension && u.scale = v.scale && Numeric.eq u.factor v.factor && Numeric.eq u.offset v.offset

/-- the product; offsets have no meaning in it -/
def mul (u v : UnitMeaning κ) : Outcome (UnitMeaning κ) := do
  return ⟨← u.dimension.mul v.dimension, ← u.scale.mul v.scale, Numeric.mul u.factor v.factor, Numeric.zero, none⟩

/-- the quotient; offsets have no meaning in it -/
def div (u v : UnitMeaning κ) : Outcome (UnitMeaning κ) := do
  let dimension ← u.dimension.div v.dimension
  let scale ← u.scale.div v.scale
  if Numeric.isZero v.factor then .error .divisionByZero
  else return ⟨dimension, scale, Numeric.div u.factor v.factor, Numeric.zero, none⟩

/-- the power; only the first keeps an offset -/
def pow (u : UnitMeaning κ) (n : Int) : Outcome (UnitMeaning κ) :=
  if n = 1 then .ok u
  else do return ⟨← u.dimension.pow n, ← u.scale.pow n, ← Numeric.power u.factor n, Numeric.zero, none⟩

/-- Products do not look at the text of their operands. -/
theorem dropText_mul (u v : UnitMeaning κ) : u.dropText.mul v.dropText = u.mul v := rfl

/-- Quotients do not look at the text of their operands. -/
theorem dropText_div (u v : UnitMeaning κ) : u.dropText.div v.dropText = u.div v := rfl

end UnitMeaning

end UnitAlgebra

/-
Names of storage units. A unit is named, in order of preference, by a registered storage unit of its dimension with
its scale, by an SI prefix before the base unit of its dimension, or by a composition of SI base symbols. There a
decimal scale goes into the prefix of the first axis that can carry it, the numerator before the denominator; any
other scale is written out as a factor.

Every name is a unit expression of its own.

Results:
- `unitName_registered`: a registered storage unit of the dimension with the scale gives its symbol.
-/
import UnitAlgebra.Expression.Evaluate

namespace UnitAlgebra.Naming

variable {κ : Type} [Numeric κ]

/-! ## Terms -/

/-- the SI symbol of an axis without its prefix, and the power of ten of the base unit relative to it -/
def axisSymbol : Axis → String × Int
  | .mass => ("g", 3)
  | .length => ("m", 0)
  | .time => ("s", 0)
  | .current => ("A", 0)
  | .temperature => ("K", 0)
  | .amount => ("mol", 0)
  | .luminosity => ("cd", 0)
  | .angle => ("rad", 0)

/-- a symbol with its exponent; the exponent one is not written -/
def power (symbol : String) (exponent : Int) : String :=
  if exponent = 1 then symbol else symbol ++ "^" ++ Exponent.decimal exponent

/-- the symbol of a power of ten, empty for none -/
def prefixSymbol? (r : Registry κ) (exponent : Int) : Option String :=
  if exponent = 0 then some "" else (r.prefixes.find? (·.exponent = exponent)).map SiPrefix.symbol

/-- a product over a product; an empty numerator is written 1 -/
def join (numerator denominator : List String) : String :=
  let top := if numerator.isEmpty then "1" else "*".intercalate numerator
  if denominator.isEmpty then top else top ++ "/" ++ "*".intercalate denominator

/-- the factors of a scale -/
def factorTerms (s : Scale) : List String :=
  if s.isOne then []
  else match s.log10? with
    | some exponent => [power "10" exponent]
    | none => (Base.all.filter fun b => (s.get b).val ≠ 0).map fun b => power b.factor (s.get b).val

/-- an axis of a composition: its symbol with prefix, and its exponent -/
structure Term where
  axis : Axis
  symbol : String
  exponent : Int
deriving DecidableEq, Repr

/-- the axes of a dimension in base units; the base unit of mass must have a prefix -/
def terms (r : Registry κ) (d : Dimension) : Outcome (List Term) :=
  (Axis.all.filter fun a => (d.get a).val ≠ 0).mapM fun a =>
    let (symbol, shift) := axisSymbol a
    match prefixSymbol? r shift with
    | some siPrefix => .ok ⟨a, siPrefix ++ symbol, (d.get a).val⟩
    | none => .error (.wrongType none)

/-- a term that takes a power of ten into its prefix, if the exponent divides it and there is such a prefix -/
def Term.carry? (r : Registry κ) (residual : Int) (t : Term) : Option Term :=
  let (symbol, shift) := axisSymbol t.axis
  let total := residual + shift * t.exponent
  if total % t.exponent = 0 then
    (prefixSymbol? r (total / t.exponent)).map fun siPrefix => { t with symbol := siPrefix ++ symbol }
  else none

/-- the first term that can carry a power of ten, in its new form -/
def carrier? (r : Registry κ) (residual : Int) (ts : List Term) : Option Term :=
  (ts.filter (0 < ·.exponent) ++ ts.filter (·.exponent < 0)).findSome? (Term.carry? r residual)

/-- a power of ten that some term can carry goes into that term -/
def foldScale (r : Registry κ) (s : Scale) (ts : List Term) : Scale × List Term :=
  match s.log10? with
  | some residual =>
    if residual = 0 then (s, ts)
    else match carrier? r residual ts with
      | some t => (.one, ts.map fun u => if u.axis = t.axis then t else u)
      | none => (s, ts)
  | none => (s, ts)

/-! ## Names -/

/-- the composition of SI base symbols -/
def compose (r : Registry κ) (d : Dimension) (s : Scale) : Outcome String := do
  let (s, ts) := foldScale r s (← terms r d)
  let numerator := (ts.filter (0 < ·.exponent)).map fun t => power t.symbol t.exponent
  let denominator := (ts.filter (·.exponent < 0)).map fun t => power t.symbol (-t.exponent)
  return join (factorTerms s ++ numerator) denominator

/-- a dimension in SI base units -/
def baseUnits (r : Registry κ) (d : Dimension) : Outcome String := compose r d .one

/-- the symbol of a storage unit of the family with the scale -/
def registered? (f : UnitFamily κ) (s : Scale) : Option String :=
  (f.units.find? fun u => u.isStorage && u.scale = s).map UnitDef.symbol

/-- the symbol of the base unit of the family with the prefix that makes up the scale -/
def prefixed? (r : Registry κ) (f : UnitFamily κ) (s : Scale) : Outcome (Option String) :=
  match f.baseUnit? with
  | none => .ok none
  | some u =>
    if f.isPrefixable u then do
      let ratio ← s.div u.scale
      return (ratio.log10?.bind (prefixSymbol? r)).map (· ++ u.symbol)
    else .ok none

/-- the preferred name of a storage unit -/
def unitName (r : Registry κ) (d : Dimension) (s : Scale) : Outcome String :=
  if d.isOne then compose r d s
  else match r.familyOf? d with
    | none => compose r d s
    | some f =>
      match registered? f s with
      | some symbol => .ok symbol
      | none => do
        match ← prefixed? r f s with
        | some symbol => return symbol
        | none => compose r d s

/-- A registered storage unit of the dimension with the scale gives its symbol. -/
theorem unitName_registered {r : Registry κ} {d : Dimension} {s : Scale} {f : UnitFamily κ} {symbol : String}
    (hd : d.isOne = false) (hf : r.familyOf? d = some f) (hs : registered? f s = some symbol) :
    unitName r d s = .ok symbol := by simp [unitName, hd, hf, hs]

end UnitAlgebra.Naming

namespace UnitAlgebra.UnitMeaning

variable {κ : Type} [Numeric κ]

/-- how the unit was written, or else the name of its storage unit -/
def label (u : UnitMeaning κ) (r : Registry κ) : Outcome String :=
  match u.text with
  | some text => .ok text
  | none => Naming.unitName r u.dimension u.scale

end UnitAlgebra.UnitMeaning

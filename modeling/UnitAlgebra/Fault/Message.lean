/-
The wording of faults. Dimensions are named by their family in the built-in catalog, where they have one.
-/
import UnitAlgebra.Catalog
import UnitAlgebra.Text.Quoted

namespace UnitAlgebra

/-! ## Dimensions and operations -/

/-- the name of the family with the exponents, or the exponents alone -/
def Dimension.describe (d : Dimension) : String :=
  match Catalog.familyName? d with
  | some name => name ++ " (" ++ d.text ++ ")"
  | none => d.text

/-- the first six positions in words, the others counted -/
def Place.text : Place → String
  | .named label noun => label ++ " " ++ noun
  | .nth index noun =>
    match ["first", "second", "third", "fourth", "fifth", "sixth"][index]? with
    | some ordinal => ordinal ++ " " ++ noun
    | none => noun ++ " " ++ Exponent.decimal (index + 1)

def Operation.text : Operation → String
  | .add => "add"
  | .subtract => "subtract"
  | .rescale => "rescale"
  | .erase => "erase"
  | .convert => "convert units"
  | .apply function place => "apply " ++ function ++ " to " ++ place.text
  | .useExponent function => "use the exponent of " ++ function
  | .writeElements function => "write '" ++ function ++ "' output"
  | .writeResult function => "write " ++ function ++ " output"

/-! ## Overflows -/

/-- what was being computed -/
def DimensionOverflow.text : DimensionOverflow → String
  | .axis a => a.name ++ " exponent of dimension"
  | .product d e => "product of " ++ d.text ++ " and " ++ e.text
  | .power d exponent => d.text ++ " to the power of " ++ exponent

/-- what was being computed -/
def ScaleOverflow.text : ScaleOverflow → String
  | .base b => "exponent of " ++ b.name ++ " in scale"
  | .product s t => "product of scales " ++ s.text ++ " and " ++ t.text
  | .power s exponent => "scale " ++ s.text ++ " to the power of " ++ exponent
  | .value s => "scale " ++ s.text

/-! ## Texts that cannot be read -/

/-- a place in a unit expression -/
def atPosition (position : Nat) (text : String) : String :=
  " at position " ++ Exponent.decimal position ++ " of unit expression '" ++ text ++ "'"

def Wanted.text : Wanted → String
  | .closing => "rpar"
  | .integer => "int"

def FormatFault.message : FormatFault → String
  | .empty => "Unit expression is empty"
  | .unexpectedCharacter c position text => s!"Unexpected character '{c}'" ++ atPosition position text
  | .unexpectedEnd text => s!"Unexpected end of unit expression '{text}'"
  | .expected wanted found position text =>
    "Expected " ++ wanted.text ++ s!" but found '{found}'" ++ atPosition position text
  | .unexpectedToken found position text => s!"Unexpected '{found}'" ++ atPosition position text
  | .signedNumber found position text => s!"Unexpected signed number '{found}'" ++ atPosition position text
  | .factorNotPositive n => "Numeric factor must be positive, got " ++ Exponent.decimal n
  | .foreignFactor n => "Numeric factor has a prime factor other than 2, 3 or 5: " ++ Exponent.decimal n
  | .notStorageUnit name => s!"Nonstorage unit '{name}' is not allowed here; use a storage unit"
  | .noNumber text => s!"Quantity '{text}' does not start with a number"
  | .noUnit text => s!"Quantity '{text}' has no unit"
  | .notMapping kind => "Expected a mapping with 'value' and 'unit', got " ++ kind
  | .missingKeys keys => "Quantity mapping is missing " ++ ", ".intercalate (keys.map Text.quoted)
  | .unitNotText kind => "Quantity unit must be a string, got " ++ kind
  | .valueNotNumber shown => "Quantity value must be a number or a list, got " ++ shown
  | .notJson => "Invalid quantity JSON"

/-! ## Errors of the unit algebra -/

namespace UnitError

def message : UnitError → String
  | .unknownUnit name expression suggestions =>
    let place := match expression with
      | some e => if e = name then "" else s!" in '{e}'"
      | none => ""
    let hint := if suggestions.isEmpty then ""
      else "; did you mean " ++ ", ".intercalate (suggestions.map Text.quoted) ++ "?"
    s!"Unknown unit '{name}'" ++ place ++ hint
  | .dimensionMismatch expected actual (some operation) =>
    "Can't " ++ operation.text ++ ": incompatible dimensions " ++ expected.describe ++ " and " ++ actual.describe
  | .dimensionMismatch expected actual none =>
    "Dimension mismatch: expected " ++ expected.describe ++ ", got " ++ actual.describe
  | .scaleMismatch a b operation =>
    let start := match operation with
      | some o => "Can't " ++ o.text
      | none => "Scale mismatch"
    start ++ ": incompatible scales " ++ a.text ++ " and " ++ b.text ++ " under the strict rescale policy"
  | .invalidFormat fault => fault.message
  | .invalidTextUnit text cause => s!"Invalid unit in quantity '{text}': " ++ cause.message
  | .invalidMappingUnit unit cause => s!"Invalid unit '{unit}': " ++ cause.message
  | .exponentOverflow cause => "Exponent overflow evaluating " ++ cause.text
  | .scaleOverflow cause => "Exponent overflow evaluating " ++ cause.text

end UnitError

/-! ## General faults -/

def TypeFault.message : TypeFault → String
  | .axisExponent a shown => "Invalid " ++ a.name ++ " exponent: got " ++ shown ++ ", expected an integer"
  | .baseExponent b shown => "Invalid exponent of " ++ b.name ++ ": got " ++ shown ++ ", expected an integer"
  | .expressionNotText kind => "Unit expression must be a string, got " ++ kind
  | .unitLike kind => "Expected a unit expression or ResolvedUnit, got " ++ kind
  | .policy kind => "Rescale policy must be a RescalePolicy or a string, got " ++ kind
  | .registry kind => "Invalid registry: got " ++ kind ++ ", expected Registry"
  | .unknownSetting name => s!"Unknown setting '{name}'"
  | .arrayHasNoText => "Only scalar quantities have a string form; use to_dict for arrays"
  | .textNotText kind => "Expected a string, got " ++ kind
  | .dimension kind => "Invalid dimension: got " ++ kind ++ ", expected DimensionVector"
  | .scale kind => "Invalid scale: got " ++ kind ++ ", expected ScaleVector"
  | .outputNotQuantity function => s!"Invalid type for '{function}' output: should be Quantity"
  | .outputIsQuantity function => s!"Invalid type for '{function}' output: should not be Quantity"
  | .quantityArgument argument function => s!"Unexpected Quantity passed to argument '{argument}' of {function}"

def ValueFault.message : ValueFault → String
  | .dimensionLength n => "Dimension vector needs 8 exponents, got " ++ Exponent.decimal n
  | .scaleLength n => "Scale vector needs 4 exponents, got " ++ Exponent.decimal n
  | .unknownAxis name => s!"Unknown dimension axis '{name}'"
  | .powerNotInteger d exponent =>
    "Can't raise " ++ d.text ++ " to the power of " ++ exponent ++ ": exponent is not an integer"
  | .root d order =>
    if order = "2" ∨ order = "2.0" then "Can't take square root of " ++ d.text
    else if order = "3" ∨ order = "3.0" then "Can't take cube root of " ++ d.text
    else s!"Can't take {order}-th root of " ++ d.text
  | .unitWithoutSymbol name => s!"Unit '{name}' needs at least one symbol"
  | .unitWithZeroFactor name => s!"Unit '{name}' has a zero conversion factor"
  | .unknownPolicy name =>
    s!"Unknown rescale policy '{name}': expected one of Strict, SmallerWins, LeftHandWins, LargerWins"
  | .unknownOperator operator => s!"Unknown operator '{operator}': expected one of + - * /"
  | .exponentNotRational function d =>
    "Can't apply " ++ function ++ " to " ++ d.describe ++ ": exponent must be a single small rational number"

namespace Fault

/-- the wording, of a fault that the library raises in words -/
def message : Fault → Option String
  | unit e => some e.message
  | wrongType fault => fault.map TypeFault.message
  | badValue fault => fault.map ValueFault.message
  | tooLarge | divisionByZero | badIndex | badAxis | noProperty | noFold => none

end Fault

end UnitAlgebra

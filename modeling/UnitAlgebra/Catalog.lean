/-
The built-in catalog: SI prefixes, families of units for the basic and the derived dimensions, and further names of
families. The scale of a unit holds all powers of 2, 3, 5 and pi in it; what is left over is its factor.

The families are the same over every number type, so a law of the catalog over exact numbers is a law of what runs.
-/
import UnitAlgebra.Registry.Build
import UnitAlgebra.Decimal.Functions

namespace UnitAlgebra.Catalog

/-! ## Prefixes -/

def prefixes : List SiPrefix := [
  ⟨"quecto", "q", -30, []⟩,
  ⟨"ronto", "r", -27, []⟩,
  ⟨"yocto", "y", -24, []⟩,
  ⟨"zepto", "z", -21, []⟩,
  ⟨"atto", "a", -18, []⟩,
  ⟨"femto", "f", -15, []⟩,
  ⟨"pico", "p", -12, []⟩,
  ⟨"nano", "n", -9, []⟩,
  ⟨"micro", "µ", -6, ["μ", "u"]⟩,
  ⟨"milli", "m", -3, []⟩,
  ⟨"centi", "c", -2, []⟩,
  ⟨"deci", "d", -1, []⟩,
  ⟨"deca", "da", 1, []⟩,
  ⟨"hecto", "h", 2, []⟩,
  ⟨"kilo", "k", 3, []⟩,
  ⟨"mega", "M", 6, []⟩,
  ⟨"giga", "G", 9, []⟩,
  ⟨"tera", "T", 12, []⟩,
  ⟨"peta", "P", 15, []⟩,
  ⟨"exa", "E", 18, []⟩,
  ⟨"zetta", "Z", 21, []⟩,
  ⟨"yotta", "Y", 24, []⟩,
  ⟨"ronna", "R", 27, []⟩,
  ⟨"quetta", "Q", 30, []⟩]

/-- symbols that read as prefixed ones and are meant as they stand -/
def allowed : List String := ["ft"]

/-! ## Families -/

section

variable {κ : Type} [Numeric κ]

/-- decimal literals over any number type -/
local instance decimalLiteral : OfScientific κ := ⟨fun digits negative e => Numeric.ofDecimal digits (if negative then -e else e)⟩

/-- a metric unit that its scale holds exactly -/
def exact (name symbol : String) (scale : Scale) : UnitDef κ :=
  ⟨name, symbol, [], scale, Numeric.one, Numeric.zero, .metric⟩

/-- an exact unit with further symbols -/
def spelled (name symbol : String) (aliases : List String) (scale : Scale) : UnitDef κ :=
  { exact name symbol scale with aliases }

/-- a unit with a factor beside its scale -/
def measured (system : UnitSystem) (name symbol : String) (scale : Scale) (factor : κ) : UnitDef κ :=
  ⟨name, symbol, [], scale, factor, Numeric.zero, system⟩

/-- a unit whose zero is not the zero of its storage unit -/
def affine (system : UnitSystem) (name symbol : String) (scale : Scale) (offset : κ) : UnitDef κ :=
  ⟨name, symbol, [], scale, Numeric.one, offset, system⟩

/-- a family whose symbol is the text of its dimension -/
def family (name : String) (dimension : Dimension) (units : List (UnitDef κ)) : UnitFamily κ :=
  ⟨name, dimension.text, dimension, units⟩

/-- all families, those of single axes first -/
def families : List (UnitFamily κ) := [
  family "Mass" { mass := 1 } [
    exact "gram" "g" (.ten (-3)),
    measured .imperial "grain" "gr" (.ten (-4)) 0.6479891,
    exact "carat" "ct" ⟨-3, 0, -4, 0⟩,
    measured .imperial "ounce" "oz" (.ten (-2)) 2.8349523125,
    measured .imperial "troy_ounce" "ozt" (.ten (-2)) 3.11034768,
    measured .imperial "troy_pound" "lbt" .one 0.3732417216,
    measured .imperial "pound" "lb" .one 0.45359237,
    measured .imperial "stone" "st" (.ten 1) 0.635029318,
    measured .imperial "slug" "slg" (.ten 1) 1.4593902937206365,
    measured .imperial "ton" "t" (.ten 3) 1.0160469088],
  family "Length" { length := 1 } [
    exact "meter" "m" .one,
    measured .imperial "inch" "in" (.ten (-2)) 2.54,
    measured .imperial "foot" "ft" (.ten (-1)) 3.048,
    measured .imperial "yard" "yd" .one 0.9144,
    measured .imperial "fathom" "ftm" .one 1.8288,
    measured .imperial "furlong" "fur" (.ten 2) 2.01168,
    measured .imperial "mile" "mi" (.ten 3) 1.609344,
    measured .imperial "nautical_mile" "nmi" (.ten 3) 1.852,
    measured .astronomical "astronomical_unit" "AU" (.ten 11) 1.495978707,
    measured .astronomical "light_year" "ly" (.ten 16) 0.94607304725808,
    measured .astronomical "parsec" "pc" (.ten 16) 3.08567758128],
  family "Time" { time := 1 } [
    exact "second" "s" .one,
    exact "minute" "min" ⟨2, 1, 1, 0⟩,
    spelled "hour" "h" ["hr"] ⟨4, 2, 2, 0⟩,
    exact "day" "d" ⟨7, 3, 2, 0⟩,
    measured .metric "week" "wk" ⟨8, 3, 3, 0⟩ 0.7,
    exact "month" "mo" ⟨8, 4, 3, 0⟩,
    measured .metric "year" "yr" (.ten 7) 3.1556926],
  family "Current" { current := 1 } [
    exact "ampere" "A" .one],
  family "Temperature" { temperature := 1 } [
    exact "kelvin" "K" .one,
    affine .metric "celsius" "degC" .one 273.15,
    exact "rankine" "R" ⟨0, -2, 1, 0⟩,
    affine .imperial "fahrenheit" "degF" ⟨0, -2, 1, 0⟩ 459.67],
  family "Amount" { amount := 1 } [
    exact "mole" "mol" .one],
  family "Luminosity" { luminosity := 1 } [
    exact "candela" "cd" .one,
    exact "lumen" "lm" .one],
  family "Angle" { angle := 1 } [
    exact "radian" "rad" .one,
    exact "degree" "deg" ⟨-2, -2, -1, 1⟩,
    exact "gradian" "grad" ⟨-3, -1, -1, 1⟩,
    spelled "turn" "rot" ["turn"] ⟨1, 0, 0, 1⟩,
    exact "arcminute" "arcmin" ⟨-4, -2, -2, 1⟩,
    exact "arcsecond" "arcsec" ⟨-6, -2, -2, 1⟩],
  family "Dimensionless" {} [],
  family "Area" { length := 2 } [
    measured .imperial "acre" "acre" (.ten 3) 0.40468564224,
    exact "hectare" "hect" (.ten 4)],
  family "Volume" { length := 3 } [
    spelled "liter" "L" ["l"] (.ten (-3)),
    measured .imperial "gallon" "gal" (.ten (-2)) 0.3785411784,
    measured .imperial "quart" "qrt" (.ten (-3)) 0.946352946,
    measured .imperial "pint" "pnt" (.ten (-3)) 0.473176473,
    measured .imperial "cup" "cup" (.ten (-4)) 2.365882365,
    measured .imperial "fluid_ounce" "fl_oz" (.ten (-5)) 2.95735295625,
    measured .imperial "tablespoon" "tbsp" (.ten (-5)) 1.478676478125,
    measured .imperial "teaspoon" "tsp" (.ten (-5)) 0.492892159375,
    measured .imperial "uk_gallon" "uk_gal" (.ten (-2)) 0.454609,
    measured .imperial "uk_quart" "uk_qrt" (.ten (-3)) 1.1365225,
    measured .imperial "uk_pint" "uk_pnt" (.ten (-3)) 0.56826125,
    measured .imperial "uk_cup" "uk_cup" (.ten (-4)) 2.84130625,
    measured .imperial "uk_fluid_ounce" "uk_fl_oz" (.ten (-5)) 2.84130625,
    measured .imperial "uk_tablespoon" "uk_tbsp" (.ten (-5)) 1.77581640625,
    measured .imperial "uk_teaspoon" "uk_tsp" (.ten (-5)) 0.59193880208333,
    measured .imperial "bushel" "bu" (.ten (-1)) 0.3523907016688],
  family "Wave Number" { length := -1 } [],
  family "Frequency" { time := -1 } [
    exact "hertz" "Hz" .one],
  family "Velocity" { length := 1, time := -1 } [],
  family "Acceleration" { length := 1, time := -2 } [],
  family "Jerk" { length := 1, time := -3 } [],
  family "Momentum" { mass := 1, length := 1, time := -1 } [],
  family "Force" { mass := 1, length := 1, time := -2 } [
    exact "newton" "N" .one],
  family "Energy" { mass := 1, length := 2, time := -2 } [
    exact "joule" "J" .one,
    exact "newton_meter" "Nm" .one,
    measured .metric "electron_volt" "eV" (.ten (-19)) 1.602176634,
    exact "erg" "erg" (.ten (-7)),
    measured .metric "calorie" "cal" (.ten 1) 0.4184,
    measured .imperial "foot_pound" "ft_lb" (.ten 1) 1.3558179483314004,
    exact "kilowatt_hour" "kWh" ⟨7, 2, 5, 0⟩,
    measured .imperial "therm" "thm" (.ten 8) 1.05505585262],
  family "Power" { mass := 1, length := 2, time := -3 } [
    exact "watt" "W" .one,
    measured .imperial "horsepower" "hp" (.ten 3) 0.7456998715822702],
  family "Action" { mass := 1, length := 2, time := -1 } [],
  family "Pressure" { mass := 1, length := -1, time := -2 } [
    exact "pascal" "Pa" .one,
    measured .metric "torr" "Torr" (.ten 2) 1.3332236842105263,
    measured .imperial "psi" "psi" (.ten 4) 0.6894757293168361,
    exact "bar" "bar" (.ten 5),
    measured .metric "atmosphere" "atm" (.ten 5) 1.01325],
  family "Linear Mass Density" { mass := 1, length := -1 } [],
  family "Surface Mass Density" { mass := 1, length := -2 } [],
  family "Volume Mass Density" { mass := 1, length := -3 } [],
  family "Dynamic Viscosity" { mass := 1, length := -1, time := -1 } [],
  family "Kinematic Viscosity" { length := 2, time := -1 } [
    exact "stokes" "St" (.ten (-4))],
  family "Surface Tension" { mass := 1, time := -2 } [],
  family "Specific Energy" { length := 2, time := -2 } [],
  family "Specific Power" { length := 2, time := -3 } [],
  family "Mass Flow Rate" { mass := 1, time := -1 } [],
  family "Volume Flow Rate" { length := 3, time := -1 } [],
  family "Power Density" { mass := 1, length := -1, time := -3 } [],
  family "Force Density" { mass := 1, length := -2, time := -2 } [],
  family "Heat Flux" { mass := 1, time := -3 } [],
  family "Electric Charge" { time := 1, current := 1 } [
    exact "coulomb" "C" .one],
  family "Electric Potential" { mass := 1, length := 2, time := -3, current := -1 } [
    exact "volt" "V" .one],
  family "Capacitance" { mass := -1, length := -2, time := 4, current := 2 } [
    exact "farad" "F" .one],
  family "Electric Resistance" { mass := 1, length := 2, time := -3, current := -2 } [
    exact "ohm" "Ω" .one],
  family "Electric Conductance" { mass := -1, length := -2, time := 3, current := 2 } [
    exact "siemens" "S" .one],
  family "Inductance" { mass := 1, length := 2, time := -2, current := -2 } [
    exact "henry" "H" .one],
  family "Electric Field" { mass := 1, length := 1, time := -3, current := -1 } [],
  family "Magnetic Field" { mass := 1, time := -2, current := -1 } [
    exact "tesla" "T" .one,
    exact "gauss" "G" (.ten (-4))],
  family "Magnetic Flux" { mass := 1, length := 2, time := -2, current := -1 } [
    exact "weber" "Wb" .one],
  family "Linear Charge Density" { length := -1, time := 1, current := 1 } [],
  family "Surface Charge Density" { length := -2, time := 1, current := 1 } [],
  family "Volume Charge Density" { length := -3, time := 1, current := 1 } [],
  family "Magnetizing Field" { length := -1, current := 1 } [],
  family "Entropy" { mass := 1, length := 2, time := -2, temperature := -1 } [],
  family "Specific Heat Capacity" { length := 2, time := -2, temperature := -1 } [],
  family "Molar Heat Capacity" { mass := 1, length := 2, time := -2, temperature := -1, amount := -1 } [],
  family "Thermal Conductivity" { mass := 1, length := 1, time := -3, temperature := -1 } [],
  family "Thermal Resistance" { mass := -1, length := -2, time := 3, temperature := 1 } [],
  family "Thermal Expansion" { temperature := -1 } [],
  family "Molar Mass" { mass := 1, amount := -1 } [],
  family "Molar Volume" { length := 3, amount := -1 } [],
  family "Molar Concentration" { length := -3, amount := 1 } [],
  family "Molal Concentration" { mass := -1, amount := 1 } [],
  family "Molar Flow Rate" { time := -1, amount := 1 } [],
  family "Molar Flux" { length := -2, time := -1, amount := 1 } [],
  family "Molar Energy" { mass := 1, length := 2, time := -2, amount := -1 } [],
  family "Illuminance" { length := -2, luminosity := 1 } [
    exact "lux" "lx" .one],
  family "Luminous Exposure" { length := -2, time := 1, luminosity := 1 } [],
  family "Luminous Efficacy" { mass := -1, length := -2, time := 3, luminosity := 1 } [],
  family "Angular Velocity" { time := -1, angle := 1 } [],
  family "Angular Acceleration" { time := -2, angle := 1 } []]

end

/-! ## Further names of families -/

def aliases : List (String × String) := [
  ("density", "Volume Mass Density"),
  ("mass density", "Volume Mass Density"),
  ("viscosity", "Dynamic Viscosity"),
  ("charge", "Electric Charge"),
  ("potential", "Electric Potential"),
  ("voltage", "Electric Potential"),
  ("resistance", "Electric Resistance"),
  ("conductance", "Electric Conductance"),
  ("speed", "Velocity"),
  ("luminous intensity", "Luminosity"),
  ("scalar", "Dimensionless")]

/-- the name of the family of a dimension -/
def familyName? (d : Dimension) : Option String :=
  ((families : List (UnitFamily Float)).find? fun f => f.dimension = d).map UnitFamily.name

/-! ## The built-in registry -/

/-- the registry of the catalog over a number type -/
def registryOver (κ : Type) [Numeric κ] : Registry κ := Registry.folded families prefixes allowed aliases

/-- the registry that runs -/
def registry : Registry Float := registryOver Float

end UnitAlgebra.Catalog

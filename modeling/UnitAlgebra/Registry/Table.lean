/-
Tables of a registry: its families, its units and its prefixes, one row each under the name.

Results:
- `length_rows_units`: every unit has a row.
- `row_families`: a row has a field for every column.
-/
import UnitAlgebra.Registry.Lookup

namespace UnitAlgebra.Registry

variable {κ : Type} [Numeric κ]

/-! ## Tables -/

inductive Field (κ : Type) where
  | text (s : String)
  | integer (n : Int)
  | number (x : κ)
  | flag (b : Bool)

/-- rows under the names that they stand for -/
structure Table (κ : Type) where
  columns : List String
  rows : List (String × List (Field κ))

def exponentFields (es : List Exponent) : List (Field κ) := es.map fun e => .integer e.val

/-! ## The tables of a registry -/

def familyRow (f : UnitFamily κ) : String × List (Field κ) :=
  (f.name, [.text f.symbol] ++ exponentFields f.dimension.toList ++ [.text (", ".intercalate (f.units.map UnitDef.symbol))])

def familyTable (r : Registry κ) : Table κ :=
  ⟨["symbol"] ++ Axis.all.map Axis.name ++ ["units"], r.families.map familyRow⟩

def unitRow (e : Entry κ) : String × List (Field κ) :=
  (e.unit.name, [.text (", ".intercalate e.unit.symbols), .text e.family.name] ++ exponentFields e.unit.scale.toList ++
    [.number e.unit.factor, .number e.unit.offset, .text e.unit.system.text, .flag e.isPrefixable])

def unitTable (r : Registry κ) : Table κ :=
  ⟨["symbols", "dimension"] ++ Base.all.map Base.name ++ ["conversion_factor", "affine_offset", "system", "prefixable"],
    r.units.map unitRow⟩

def prefixTable (r : Registry κ) : Table κ :=
  ⟨["symbol", "exponent"], r.prefixes.map fun p => (p.name, [.text p.symbol, .integer p.exponent])⟩

/-- a table by what it lists -/
def table? (r : Registry κ) : String → Option (Table κ)
  | "dimensions" => some r.familyTable
  | "units" => some r.unitTable
  | "prefixes" => some r.prefixTable
  | _ => none

/-- Every unit has a row. -/
theorem length_rows_units (r : Registry κ) : r.unitTable.rows.length = r.units.length := by simp [unitTable]

omit [Numeric κ] in
/-- A row has a field for every column. -/
theorem row_families {r : Registry κ} {row : String × List (Field κ)} (h : row ∈ r.familyTable.rows) :
    row.2.length = r.familyTable.columns.length := by
  simp only [familyTable, List.mem_map] at h
  obtain ⟨f, _, rfl⟩ := h
  simp [familyRow, familyTable, exponentFields, Dimension.toList, Axis.all]

end UnitAlgebra.Registry

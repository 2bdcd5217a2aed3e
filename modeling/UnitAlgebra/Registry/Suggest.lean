/-
Suggestions for an unknown unit: the spellings of a registry that are closest to it. Spellings are the symbols and
names of all units, and every SI prefix before a prefixable unit, symbol before symbol and name before name.
-/
import UnitAlgebra.Registry.Lookup
import UnitAlgebra.Text.Similarity

namespace UnitAlgebra.Registry

variable {κ : Type} [Numeric κ]

/-- the spellings of one unit -/
def spellingsOf (prefixes : List SiPrefix) (e : Entry κ) : List String :=
  e.unit.symbols ++ [e.unit.name] ++
    if e.isPrefixable then prefixes.flatMap fun p => [p.symbol ++ e.unit.symbol, p.name ++ e.unit.name] else []

/-- a sorted list without repetitions -/
def withoutRepeats : List String → List String
  | a :: b :: rest => if a = b then withoutRepeats (b :: rest) else a :: withoutRepeats (b :: rest)
  | short => short

/-- all spellings, in the order of texts -/
def spellings (r : Registry κ) : List String :=
  withoutRepeats ((r.units.flatMap (spellingsOf r.prefixes)).mergeSort (· ≤ ·))

/-- the closest spellings, the closest first; nothing can be asked for less than one -/
def suggest (r : Registry κ) (text : String) (limit : Int) : Outcome (List String) :=
  if limit ≤ 0 then .error (.badValue none) else .ok (Text.closest limit.toNat text r.spellings)

end UnitAlgebra.Registry

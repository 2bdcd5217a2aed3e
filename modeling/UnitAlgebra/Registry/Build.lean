/-
Registries: read-only lookup tables over families of units and SI prefixes. A registry is the fold of its families and
aliases; it is refused when two units share a symbol, two families a dimension, an alias leads nowhere, or a symbol
also reads as a prefix before a prefixable unit.

Results:
- `find?_addNew`: an entry that is already there is kept, a new one is found.
- `find?_put`: an entry that is put is found, and all others stay as they are.
- `build_eq_ok_iff`: a registry is accepted exactly when the fold met no conflict.
-/
import UnitAlgebra.Unit

namespace UnitAlgebra

/-! ## Directories -/

/-- entries under keys, in the order in which they came -/
abbrev Directory (K α : Type) := List (K × α)

namespace Directory

variable {K α : Type} [DecidableEq K]

def find? (d : Directory K α) (k : K) : Option α := (List.find? (fun e => e.1 = k) d).map Prod.snd

/-- an entry that keeps what is already there -/
def addNew (d : Directory K α) (k : K) (a : α) : Directory K α :=
  if (find? d k).isSome then d else d ++ [(k, a)]

/-- an entry that takes the place of what is already there -/
def put (d : Directory K α) (k : K) (a : α) : Directory K α :=
  if (find? d k).isSome then d.map fun e => if e.1 = k then (k, a) else e else d ++ [(k, a)]

/-- An entry that is already there is kept, a new one is found. -/
theorem find?_addNew (d : Directory K α) (k : K) (a : α) (j : K) :
    find? (addNew d k a) j = if j = k then some ((find? d k).getD a) else find? d j := by
  unfold addNew
  split
  · next h =>
    by_cases hj : j = k
    · subst hj
      obtain ⟨b, hb⟩ := Option.isSome_iff_exists.1 h
      simp [hb]
    · simp [hj]
  · next h =>
    have hn : find? d k = none := by simpa using h
    by_cases hj : j = k
    · subst hj
      have : List.find? (fun e : K × α => decide (e.1 = j)) d = none := by simpa [find?] using hn
      simp [find?, List.find?_append, this]
    · simp [find?, List.find?_append, hj, Ne.symm hj]

/-- What is found stands in the directory under its key. -/
theorem mem_of_find? {d : Directory K α} {k : K} {a : α} (h : find? d k = some a) : (k, a) ∈ d := by
  obtain ⟨e, he, rfl⟩ := Option.map_eq_some_iff.1 h
  have hk : e.1 = k := by simpa using List.find?_some he
  subst hk
  exact List.mem_of_find?_eq_some he

/-- Where an entry is replaced, the new one is found, if there was an old one. -/
theorem find?_replaced {d : Directory K α} {k : K} (a : α) (j : K) :
    find? (d.map fun e => if e.1 = k then (k, a) else e) j =
      if j = k then (find? d k).map fun _ => a else find? d j := by
  induction d with
  | nil => simp [find?]
  | cons e d ih =>
    by_cases hk : e.1 = k
    · by_cases hj : j = k
      · subst hj; simp [find?, hk]
      · simp only [find?, List.map_cons, hk, List.find?_cons, Ne.symm hj, if_true] at ih ⊢
        simpa [hj] using ih
    · by_cases he : e.1 = j
      · subst he; simp [find?, hk]
      · simp only [find?, List.map_cons, hk, List.find?_cons, he, if_false] at ih ⊢
        simpa using ih

/-- An entry that is put is found, and all others stay as they are. -/
theorem find?_put (d : Directory K α) (k : K) (a : α) (j : K) :
    find? (put d k a) j = if j = k then some a else find? d j := by
  unfold put
  split
  · next h =>
    obtain ⟨b, hb⟩ := Option.isSome_iff_exists.1 h
    rw [find?_replaced, hb]
    rfl
  · next h =>
    have hn : find? d k = none := by simpa using h
    have := find?_addNew d k a j
    simpa [addNew, hn] using this

end Directory

/-! ## Spellings of names -/

namespace Spelling

/-- plurals that are not made by an s -/
def irregularPlurals : List (String × String) := [
  ("inch", "inches"), ("foot", "feet"), ("henry", "henries"), ("stone", "stone"), ("lux", "lux"),
  ("candela", "candela"), ("fahrenheit", "fahrenheit"), ("rankine", "rankine"), ("psi", "psi"),
  ("horsepower", "horsepower"), ("torr", "torr"), ("bar", "bar"), ("celsius", "celsius"), ("kelvin", "kelvin"),
  ("siemens", "siemens"), ("hertz", "hertz"), ("stokes", "stokes")]

def plural (singular : String) : String := (Directory.find? irregularPlurals singular).getD (singular ++ "s")

/-- unit names are compared trimmed, in small letters and with underscores for spaces -/
def unitName (s : String) : String :=
  String.ofList ((Text.lower (Text.trimmed s)).toList.map fun c => if c = ' ' then '_' else c)

/-- family names are compared in small letters, without spaces, underscores and hyphens -/
def familyName (s : String) : String :=
  String.ofList ((Text.lower s).toList.filter fun c => !(c = ' ' || c = '_' || c = '-'))

end Spelling

/-! ## Registries -/

/-- a unit with its family -/
structure Entry (κ : Type) where
  unit : UnitDef κ
  family : UnitFamily κ

def Entry.isPrefixable {κ : Type} [Numeric κ] (e : Entry κ) : Bool := e.family.isPrefixable e.unit

/-- why a registry is refused -/
inductive Conflict where
  | sharedDimension (first second : String) (dimension : Dimension)
  | sharedSymbol (symbol first second : String)
  | unknownTarget (byname target : String)
  | prefixedReading (symbol unit siPrefix remainder : String)
deriving DecidableEq, Repr

namespace Conflict

def message : Conflict → String
  | sharedDimension first second d => s!"dimensions '{first}' and '{second}' share the vector " ++ d.text
  | sharedSymbol symbol first second => s!"symbol '{symbol}' is used by both '{first}' and '{second}'"
  | unknownTarget byname target => s!"alias '{byname}' names unknown dimension '{target}'"
  | prefixedReading symbol unit siPrefix remainder =>
    s!"symbol '{symbol}' of '{unit}' also reads as {siPrefix} + '{remainder}'"

/-- all conflicts of a refused registry -/
def report (conflicts : List Conflict) : String :=
  "Unit registry is ambiguous:\n" ++ "\n".intercalate (conflicts.map fun c => "  " ++ c.message)

end Conflict

structure Registry (κ : Type) where
  families : List (UnitFamily κ)
  prefixes : List SiPrefix
  /-- symbols that may read as prefixed ones -/
  allowed : List String
  symbols : Directory String (Entry κ)
  names : Directory String (Entry κ)
  dimensions : Directory Dimension (UnitFamily κ)
  familyNames : Directory String (UnitFamily κ)

namespace Registry

variable {κ : Type} [Numeric κ]

def empty (prefixes : List SiPrefix) (allowed : List String) : Registry κ := ⟨[], prefixes, allowed, [], [], [], []⟩

/-- a registry on its way, with the conflicts met so far -/
structure Draft (κ : Type) where
  registry : Registry κ
  conflicts : List Conflict

namespace Draft

def addSymbol (d : Draft κ) (e : Entry κ) (symbol : String) : Draft κ :=
  match d.registry.symbols.find? symbol with
  | some first => { d with conflicts := d.conflicts ++ [.sharedSymbol symbol first.unit.name e.unit.name] }
  | none => { d with registry := { d.registry with symbols := d.registry.symbols.addNew symbol e } }

def addName (d : Draft κ) (e : Entry κ) (name : String) : Draft κ :=
  { d with registry := { d.registry with names := d.registry.names.addNew (Spelling.unitName name) e } }

/-- symbols may be used once; a name that is taken stays with its first unit -/
def addUnit (d : Draft κ) (e : Entry κ) : Draft κ :=
  [e.unit.name, Spelling.plural e.unit.name].foldl (addName · e) (e.unit.symbols.foldl (addSymbol · e) d)

def addDimension (d : Draft κ) (f : UnitFamily κ) : Draft κ :=
  match d.registry.dimensions.find? f.dimension with
  | some first => { d with conflicts := d.conflicts ++ [.sharedDimension first.name f.name f.dimension] }
  | none => { d with registry := { d.registry with dimensions := d.registry.dimensions.addNew f.dimension f } }

/-- a family takes its name over; its symbol yields to what is there -/
def addFamilyNames (d : Draft κ) (f : UnitFamily κ) : Draft κ :=
  let names := (d.registry.familyNames.put (Spelling.familyName f.name) f).addNew (Spelling.familyName f.symbol) f
  { d with registry := { d.registry with familyNames := names } }

def addFamily (d : Draft κ) (f : UnitFamily κ) : Draft κ :=
  let d := addFamilyNames (addDimension d f) f
  let d := { d with registry := { d.registry with families := d.registry.families ++ [f] } }
  f.units.foldl (fun d u => addUnit d ⟨u, f⟩) d

/-- an alias yields to what is there -/
def addAlias (d : Draft κ) (entry : String × String) : Draft κ :=
  match d.registry.familyNames.find? (Spelling.familyName entry.2) with
  | none => { d with conflicts := d.conflicts ++ [.unknownTarget entry.1 entry.2] }
  | some f =>
    let names := d.registry.familyNames.addNew (Spelling.familyName entry.1) f
    { d with registry := { d.registry with familyNames := names } }

end Draft

/-- the unit that a symbol reads as once the prefix symbol is taken off -/
def readsPrefixed (r : Registry κ) (p : SiPrefix) (symbol : String) : Option String :=
  match p.stripSymbol symbol.toList with
  | none => none
  | some remainder =>
    match r.symbols.find? (String.ofList remainder) with
    | some e => if e.isPrefixable then some (String.ofList remainder) else none
    | none => none

/-- the symbols, outside the allowed ones, that also read as prefixed ones -/
def prefixedReadings (r : Registry κ) : List Conflict :=
  (r.symbols.filter fun s => !r.allowed.contains s.1).flatMap fun s =>
    r.prefixes.filterMap fun p =>
      (r.readsPrefixed p s.1).map fun remainder => .prefixedReading s.1 s.2.unit.name p.name remainder

/-- the fold of families and aliases -/
def draft (families : List (UnitFamily κ)) (prefixes : List SiPrefix) (allowed : List String)
    (aliases : List (String × String)) : Draft κ :=
  aliases.foldl Draft.addAlias (families.foldl Draft.addFamily ⟨empty prefixes allowed, []⟩)

/-- the registry that the fold ends in, whatever conflicts it has met -/
def folded (families : List (UnitFamily κ)) (prefixes : List SiPrefix) (allowed : List String)
    (aliases : List (String × String)) : Registry κ := (draft families prefixes allowed aliases).registry

/-- a registry, or all its conflicts -/
def build (families : List (UnitFamily κ)) (prefixes : List SiPrefix) (allowed : List String)
    (aliases : List (String × String)) : Except (List Conflict) (Registry κ) :=
  let d := draft families prefixes allowed aliases
  match d.conflicts ++ d.registry.prefixedReadings with
  | [] => .ok d.registry
  | conflicts => .error conflicts

/-- A registry is accepted exactly when the fold met no conflict. -/
theorem build_eq_ok_iff {families : List (UnitFamily κ)} {prefixes : List SiPrefix} {allowed : List String}
    {aliases : List (String × String)} {r : Registry κ} :
    build families prefixes allowed aliases = .ok r ↔
      r = (draft families prefixes allowed aliases).registry ∧
        (draft families prefixes allowed aliases).conflicts = [] ∧ r.prefixedReadings = [] := by
  unfold build
  simp only
  split
  · next h =>
    have h' := List.append_eq_nil_iff.1 h
    constructor
    · rintro ⟨⟩
      exact ⟨rfl, h'.1, h'.2⟩
    · rintro ⟨rfl, _, _⟩
      rfl
  · next h =>
    constructor
    · intro h'; cases h'
    · rintro ⟨rfl, h1, h2⟩
      exact absurd (by rw [h1, h2]; rfl) h

end Registry

end UnitAlgebra

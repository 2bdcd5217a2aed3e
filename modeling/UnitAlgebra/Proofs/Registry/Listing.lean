/-
What a built registry finds, told by the families that it was built from. The directories of a registry are folds; what
stands first in the list of all symbols, or of all names, is what is found under its key.

Results:
- `Directory.find?_foldl_addNew`: a fold that adds new entries finds what was there, or else the first entry added.
- `Directory.find?_of_mem`: entries under different keys are all found.
- `builtFrom_folded`: a registry finds the first unit listed under a symbol, or a name, and a family under its dimension.
-/
import UnitAlgebra.Registry.Lookup

namespace UnitAlgebra

/-! ## Folds of entries -/

namespace Directory

variable {K α : Type} [DecidableEq K]

/-- one entry of a list goes in, if its key is new -/
def enter (d : Directory K α) (e : K × α) : Directory K α := d.addNew e.1 e.2

/-- A fold that adds new entries finds what was there, or else the first entry added. -/
theorem find?_foldl_addNew (d entries : Directory K α) (k : K) :
    find? (entries.foldl enter d) k = (find? d k <|> find? entries k) := by
  induction entries generalizing d with
  | nil =>
    rw [List.foldl_nil]
    cases find? d k <;> rfl
  | cons e entries ih =>
    rw [List.foldl_cons, ih, enter, find?_addNew]
    by_cases hk : k = e.1
    · subst hk
      cases h : find? d e.1 <;> simp [find?]
    · have hcons : find? (e :: entries) k = find? entries k := by
        simp [find?, Ne.symm hk]
      rw [if_neg hk, hcons]

theorem find?_eq_none_iff {d : Directory K α} {k : K} : find? d k = none ↔ ∀ e ∈ d, e.1 ≠ k := by
  simp [find?]

/-- Entries under different keys are all found. -/
theorem find?_of_mem {d : Directory K α} (h : (d.map Prod.fst).Nodup) {k : K} {a : α} (hm : (k, a) ∈ d) :
    find? d k = some a := by
  induction d with
  | nil => cases hm
  | cons e d ih =>
    rw [List.map_cons, List.nodup_cons] at h
    rcases List.mem_cons.1 hm with rfl | hm
    · simp [find?]
    · have hk : e.1 ≠ k := fun hek => h.1 (hek ▸ List.mem_map_of_mem hm)
      have := ih h.2 hm
      simpa [find?, hk] using this

end Directory

/-! ## Lists of all units -/

namespace Registry

variable {κ : Type}

/-- the symbols of a family with the units that they stand for -/
def familySymbols (f : UnitFamily κ) : Directory String (Entry κ) :=
  f.units.flatMap fun u => u.symbols.map fun s => (s, ⟨u, f⟩)

/-- the names of a family, in the singular and the plural, as they are compared -/
def familyUnitNames (f : UnitFamily κ) : Directory String (Entry κ) :=
  f.units.flatMap fun u => [u.name, Spelling.plural u.name].map fun n => (Spelling.unitName n, ⟨u, f⟩)

def symbolListing (families : List (UnitFamily κ)) : Directory String (Entry κ) := families.flatMap familySymbols

def nameListing (families : List (UnitFamily κ)) : Directory String (Entry κ) := families.flatMap familyUnitNames

/-! ## What each step of a draft does -/

namespace Draft

/-- the directories that units are found in, with the families by dimension and the prefixes -/
structure Holds (d : Draft κ) (symbols names : Directory String (Entry κ))
    (dimensions : Directory Dimension (UnitFamily κ)) (prefixes : List SiPrefix) : Prop where
  symbols : d.registry.symbols = symbols
  names : d.registry.names = names
  dimensions : d.registry.dimensions = dimensions
  prefixes : d.registry.prefixes = prefixes

variable {d : Draft κ} {symbols names : Directory String (Entry κ)} {dimensions : Directory Dimension (UnitFamily κ)}
  {prefixes : List SiPrefix}

theorem holds_addSymbol (h : d.Holds symbols names dimensions prefixes) (e : Entry κ) (s : String) :
    (d.addSymbol e s).Holds (symbols.enter (s, e)) names dimensions prefixes := by
  obtain ⟨rfl, rfl, rfl, rfl⟩ := h
  unfold addSymbol
  split
  · next first hfirst =>
    refine ⟨?_, rfl, rfl, rfl⟩
    simp [Directory.enter, Directory.addNew, hfirst]
  · exact ⟨rfl, rfl, rfl, rfl⟩

theorem holds_addName (h : d.Holds symbols names dimensions prefixes) (e : Entry κ) (n : String) :
    (d.addName e n).Holds symbols (names.enter (Spelling.unitName n, e)) dimensions prefixes := by
  obtain ⟨rfl, rfl, rfl, rfl⟩ := h
  exact ⟨rfl, rfl, rfl, rfl⟩

theorem holds_addSymbols (h : d.Holds symbols names dimensions prefixes) (e : Entry κ) (ss : List String) :
    (ss.foldl (addSymbol · e) d).Holds ((ss.map fun s => (s, e)).foldl Directory.enter symbols) names dimensions
      prefixes := by
  induction ss generalizing d symbols with
  | nil => exact h
  | cons s ss ih => exact ih (holds_addSymbol h e s)

theorem holds_addUnit (h : d.Holds symbols names dimensions prefixes) (e : Entry κ) :
    (d.addUnit e).Holds ((e.unit.symbols.map fun s => (s, e)).foldl Directory.enter symbols)
      (([e.unit.name, Spelling.plural e.unit.name].map fun n => (Spelling.unitName n, e)).foldl Directory.enter names)
      dimensions prefixes :=
  holds_addName (holds_addName (holds_addSymbols h e e.unit.symbols) e _) e _

theorem holds_addUnits (h : d.Holds symbols names dimensions prefixes) (f : UnitFamily κ) (us : List (UnitDef κ)) :
    (us.foldl (fun d u => d.addUnit ⟨u, f⟩) d).Holds
      ((us.flatMap fun u => u.symbols.map fun s => (s, (⟨u, f⟩ : Entry κ))).foldl Directory.enter symbols)
      ((us.flatMap fun u => [u.name, Spelling.plural u.name].map fun n =>
        (Spelling.unitName n, (⟨u, f⟩ : Entry κ))).foldl Directory.enter names) dimensions prefixes := by
  induction us generalizing d symbols names with
  | nil => exact h
  | cons u us ih =>
    rw [List.flatMap_cons, List.flatMap_cons, List.foldl_append, List.foldl_append]
    exact ih (holds_addUnit h ⟨u, f⟩)

theorem holds_addFamily (h : d.Holds symbols names dimensions prefixes) (f : UnitFamily κ) :
    (d.addFamily f).Holds ((familySymbols f).foldl Directory.enter symbols)
      ((familyUnitNames f).foldl Directory.enter names) (dimensions.enter (f.dimension, f)) prefixes := by
  refine holds_addUnits ?_ f f.units
  obtain ⟨rfl, rfl, rfl, rfl⟩ := h
  unfold addDimension
  split
  · next first hfirst =>
    refine ⟨rfl, rfl, ?_, rfl⟩
    simp [addFamilyNames, Directory.enter, Directory.addNew, hfirst]
  · exact ⟨rfl, rfl, rfl, rfl⟩

theorem holds_addFamilies (h : d.Holds symbols names dimensions prefixes) (fs : List (UnitFamily κ)) :
    (fs.foldl addFamily d).Holds ((symbolListing fs).foldl Directory.enter symbols)
      ((nameListing fs).foldl Directory.enter names)
      ((fs.map fun f => (f.dimension, f)).foldl Directory.enter dimensions) prefixes := by
  induction fs generalizing d symbols names dimensions with
  | nil => exact h
  | cons f fs ih =>
    rw [symbolListing, nameListing, List.flatMap_cons, List.flatMap_cons, List.foldl_append, List.foldl_append]
    exact ih (holds_addFamily h f)

theorem holds_addAlias (h : d.Holds symbols names dimensions prefixes) (entry : String × String) :
    (d.addAlias entry).Holds symbols names dimensions prefixes := by
  obtain ⟨rfl, rfl, rfl, rfl⟩ := h
  unfold addAlias
  split <;> exact ⟨rfl, rfl, rfl, rfl⟩

theorem holds_addAliases (h : d.Holds symbols names dimensions prefixes) (aliases : List (String × String)) :
    (aliases.foldl addAlias d).Holds symbols names dimensions prefixes := by
  induction aliases generalizing d with
  | nil => exact h
  | cons entry aliases ih => exact ih (holds_addAlias h entry)

end Draft

/-! ## What a draft finds -/

/-- a registry that finds what is listed first in families, and takes off the given prefixes -/
structure BuiltFrom (r : Registry κ) (families : List (UnitFamily κ)) (prefixes : List SiPrefix) : Prop where
  symbols : ∀ s, r.findSymbol? s = (symbolListing families).find? s
  names : ∀ s, r.findName? s = (nameListing families).find? (Spelling.unitName s)
  /-- the family of a dimension is one of the families, and has the dimension -/
  dimensions : ∀ d f, r.familyOf? d = some f → f ∈ families ∧ f.dimension = d
  prefixes : r.prefixes = prefixes

/-- **A registry finds what is listed first.** -/
theorem builtFrom_folded (families : List (UnitFamily κ)) (prefixes : List SiPrefix) (allowed : List String)
    (aliases : List (String × String)) :
    (folded families prefixes allowed aliases).BuiltFrom families prefixes := by
  have h : (draft families prefixes allowed aliases).Holds ((symbolListing families).foldl Directory.enter [])
      ((nameListing families).foldl Directory.enter [])
      ((families.map fun f => (f.dimension, f)).foldl Directory.enter []) prefixes :=
    Draft.holds_addAliases (Draft.holds_addFamilies ⟨rfl, rfl, rfl, rfl⟩ families) aliases
  unfold folded
  refine ⟨fun s => ?_, fun s => ?_, fun d f hf => ?_, h.prefixes⟩
  · rw [findSymbol?, h.symbols, Directory.find?_foldl_addNew]
    rfl
  · rw [findName?, h.names, Directory.find?_foldl_addNew]
    rfl
  · rw [familyOf?, h.dimensions, Directory.find?_foldl_addNew] at hf
    obtain ⟨g, hg, heq⟩ := List.mem_map.1 (Directory.mem_of_find? hf)
    cases heq
    exact ⟨hg, rfl⟩

end Registry

end UnitAlgebra

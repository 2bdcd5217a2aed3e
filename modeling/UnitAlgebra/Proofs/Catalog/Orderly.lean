/-
The built-in catalog is orderly: its spellings do not get in each other's way. The checks go once through the lists of
symbols, names and prefixes; what follows for the built-in registry holds without a further look at the lists.

Results:
- `orderly`: the built-in families and prefixes are orderly.
- `resolve_symbol`, `resolve_prefixed`, `resolve_pi`: what symbols, prefixed symbols and pi mean in the registry.
- `isName_symbol`, `isName_prefixed`: symbols and prefixed symbols are names of the grammar.
-/
import UnitAlgebra.Catalog
import UnitAlgebra.Expression.Evaluate
import UnitAlgebra.Proofs.Registry.Prefixed

namespace UnitAlgebra.Catalog

open Registry Text Expression

/-! ## The lists -/

theorem prefixableSymbols_families : prefixableSymbols (families : List (UnitFamily Float)) =
    ["g", "m", "s", "A", "K", "mol", "cd", "rad", "L", "l", "Hz", "N", "J", "W", "Pa", "St", "C", "V", "F", "Ω", "S", "H",
      "T", "Wb", "lx"].map String.toList := by decide +kernel

/-- The built-in families and prefixes are orderly. -/
theorem orderly : Orderly (families : List (UnitFamily Float)) prefixes where
  symbols := by decide +kernel
  unprefixedSymbols := by
    rw [prefixableSymbols_families]
    decide +kernel
  unprefixedNames := by
    rw [prefixableSymbols_families]
    decide +kernel
  plainNames := by decide +kernel
  plainPrefixes := by decide +kernel
  plainSymbols := by
    rw [prefixableSymbols_families]
    decide +kernel
  unmixed := by
    rw [prefixableSymbols_families]
    decide +kernel
  unnamed := by
    rw [prefixableSymbols_families]
    decide +kernel

theorem builtFrom : registry.BuiltFrom families prefixes := builtFrom_folded _ _ _ _

/-! ## Meanings of spellings -/

section

variable {κ : Type} [Numeric κ] {r : Registry κ}

theorem resolve_of_find? {s : String} {e : Entry κ} (h : r.find? s = some e) :
    resolve r false s = .ok (meaningOf e.unit e.family e.unit.scale s) := by
  rw [resolve, lookupName, h]
  rfl

theorem resolve_of_findPrefixed? {s : String} {p : SiPrefix} {e : Entry κ} (hn : r.find? s = none)
    (h : r.findPrefixed? s = .ok (some (p, e))) {t u : Scale} (hp : p.scale = .ok t) (hu : e.unit.scale.mul t = .ok u) :
    resolve r false s = .ok (meaningOf e.unit e.family u s) := by
  rw [resolve, lookupName, hn, h]
  simp only [bind, Except.bind, hp, hu]
  rfl

theorem resolve_of_piNames {s : String} (hs : piNames.contains s = true) (hn : r.find? s = none)
    (h : r.findPrefixed? s = .ok none) :
    resolve r false s = .ok { UnitMeaning.stored .one { pi := 1 } with text := some s } := by
  rw [resolve, lookupName, hn, h]
  simp only [bind, Except.bind, hs, if_true]
  rfl

theorem resolve_of_unknown {s : String} (hs : piNames.contains s = false) (hn : r.find? s = none)
    (h : r.findPrefixed? s = .ok none) :
    resolve r false s = .error (.unit (.unknownUnit s none (closest 3 s r.spellings))) := by
  have hsuggest : r.suggest s 3 = .ok (closest 3 s r.spellings) := rfl
  rw [resolve, lookupName, hn, h, hsuggest]
  simp only [bind, Except.bind, hs, Bool.false_eq_true, if_false]

end

/-- A symbol means its unit. -/
theorem resolve_symbol {s : String} {e : Entry Float} (h : (s, e) ∈ symbolListing families) :
    resolve registry false s = .ok (meaningOf e.unit e.family e.unit.scale s) :=
  resolve_of_find? (find?_symbol (Orderly.find?_symbol orderly builtFrom h))

/-- A prefixed symbol means its unit in the scale of the prefix. -/
theorem resolve_prefixed {p : SiPrefix} {e : Entry Float} (h : Prefixed families prefixes p e) {t u : Scale}
    (hp : p.scale = .ok t) (hu : e.unit.scale.mul t = .ok u) :
    resolve registry false (p.symbol ++ e.unit.symbol) =
      .ok (meaningOf e.unit e.family u (p.symbol ++ e.unit.symbol)) :=
  resolve_of_findPrefixed? (Orderly.find?_prefixed orderly builtFrom h) (Orderly.findPrefixed?_prefixed orderly builtFrom h) hp hu

/-- Neither a unit nor a prefixed unit is called pi. -/
theorem resolve_pi : resolve registry false "pi" =
    .ok { UnitMeaning.stored .one { pi := 1 } with text := some "pi" } := by
  refine resolve_of_piNames (by decide) ?_ ?_
  · exact find?_eq_none orderly builtFrom (by decide +kernel) (by decide +kernel) (by decide +kernel)
  · have hsymbols : ∀ p ∈ prefixes, ∀ s ∈ p.symbols, ∀ rest ∈ after? s.toList ['p', 'i'],
        rest ∉ prefixableSymbols (families : List (UnitFamily Float)) := by
      rw [prefixableSymbols_families]
      decide +kernel
    have hnames : ∀ p ∈ prefixes, p.name.toList ≠ [] ∧ after? p.name.toList.tail ['i'] = none := by decide +kernel
    have htext : "pi".toList = ['p', 'i'] := by decide
    rw [findPrefixed?, builtFrom.prefixes, htext]
    refine splitByFirst_eq_none fun p hp => ?_
    refine splitBy_eq_none builtFrom (fun s hs b hb heq => ?_) (hnames p hp).1 (hnames p hp).2
    exact hsymbols p hp s hs b (after?_eq_some_iff.2 heq) hb

/-! ## Names of the grammar -/

/-- a text that is one name -/
def IsName (cs : List Char) : Prop := cs ≠ [] ∧ cs.all isNameChar = true

instance (cs : List Char) : Decidable (IsName cs) := inferInstanceAs (Decidable (_ ∧ _))

theorem isName_symbol {s : String} {e : Entry Float} (h : (s, e) ∈ symbolListing families) : IsName s.toList := by
  have all : ∀ e ∈ symbolListing (families : List (UnitFamily Float)), IsName e.1.toList := by decide +kernel
  exact all _ h

theorem isName_prefixed {p : SiPrefix} {e : Entry Float} (h : Prefixed families prefixes p e) :
    IsName (p.symbol ++ e.unit.symbol).toList := by
  have all : ∀ p ∈ prefixes, p.symbol.toList.all isNameChar = true := by decide +kernel
  obtain ⟨hne, hletters⟩ := isName_symbol h.mem_listing
  rw [String.toList_append]
  refine ⟨fun heq => hne (List.append_eq_nil_iff.1 heq).2, ?_⟩
  rw [List.all_append, all p h.siPrefix, hletters]
  rfl

end UnitAlgebra.Catalog

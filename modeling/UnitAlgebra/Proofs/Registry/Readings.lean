/-
Which texts read as a prefix before a unit, by symbols. A registry that is accepted compares its own symbols with the
prefixed ones, and no two prefixed ones with each other. Where the symbols of prefixes begin alike, two readings of a
text could still be there; but then one unit symbol begins with what tells the two prefixes apart. If that is a prefix
itself, the unit symbol has a reading of its own, and the registry is refused.

Results:
- `Apart`: prefixes that differ, where they begin alike, by another prefix that nothing allowed begins with.
- `Reading.eq_of_begins`: two readings of a text are one, if the prefix of the first begins that of the second.
- `splitBySymbol_iff_reading`: a registry splits a text by a symbol exactly where it has a reading.
- `uniquely_readable`: with the built-in prefixes, a text has one reading at most, and a unit symbol has none.
-/
import UnitAlgebra.Catalog
import UnitAlgebra.Proofs.Registry.Transparency

namespace UnitAlgebra.Registry

open Text

/-! ## Prefixes that begin alike -/

/-- prefixes whose symbols leave no text two readings -/
structure Apart (prefixes : List SiPrefix) (allowed : List String) : Prop where
  /-- no symbol of a prefix begins another of the same -/
  own : ∀ p ∈ prefixes, ∀ a ∈ p.symbols, ∀ c ∈ p.symbols, ∀ t ∈ after? a.toList c.toList, t = []
  /-- where a symbol begins that of another prefix, the rest is a prefix, and nothing that is allowed begins with it -/
  others : ∀ p ∈ prefixes, ∀ a ∈ p.symbols, ∀ q ∈ prefixes, ∀ c ∈ q.symbols, ∀ t ∈ after? a.toList c.toList,
    p = q ∨ t ≠ [] ∧ (∃ o ∈ prefixes, String.ofList t ∈ o.symbols) ∧ ∀ s ∈ allowed, after? t s.toList = none

section

variable {prefixes : List SiPrefix} {allowed : List String} {p : SiPrefix}

/-- what stands behind a symbol is what the prefix leaves -/
theorem Apart.stripSymbol (hapart : Apart prefixes allowed) (hp : p ∈ prefixes) {a : String} (ha : a ∈ p.symbols)
    {rest : List Char} (hrest : rest ≠ []) : p.stripSymbol (a.toList ++ rest) = some rest := by
  cases hstrip : p.stripSymbol (a.toList ++ rest) with
  | none =>
    obtain ⟨c, rest, rfl⟩ := List.exists_cons_of_ne_nil hrest
    have hnone := List.findSome?_eq_none_iff.1 hstrip a ha
    rw [SiPrefix.afterSymbol, after?_eq_some_iff.2 rfl] at hnone
    cases hnone
  | some other =>
    obtain ⟨_, c, hc, htext⟩ := SiPrefix.stripSymbol_eq_some hstrip
    rcases List.append_eq_append_iff.1 htext with ⟨t, hct, hrest⟩ | ⟨t, hat, hother⟩
    · obtain rfl := hapart.own p hp a ha c hc t (after?_eq_some_iff.2 hct)
      exact congrArg some hrest.symm
    · obtain rfl := hapart.own p hp c hc a ha t (after?_eq_some_iff.2 hat)
      exact congrArg some hother

end

/-! ## Readings -/

variable {κ : Type} [Numeric κ] {r : Registry κ} {s : String}

/-- a text as a symbol of a prefix and more behind it, a symbol of a unit that takes prefixes -/
@[ext]
structure Reading (r : Registry κ) (s : String) where
  siPrefix : SiPrefix
  symbol : String
  entry : Entry κ
  rest : String
  listed : siPrefix ∈ r.prefixes
  spelt : symbol ∈ siPrefix.symbols
  unit : entry ∈ r.units
  prefixable : entry.isPrefixable = true
  named : rest ∈ entry.unit.symbols
  more : rest ≠ ""
  text : s = symbol ++ rest

namespace Reading

theorem toList_rest_ne_nil (x : Reading r s) : x.rest.toList ≠ [] := fun h => x.more (String.toList_eq_nil_iff.1 h)

theorem toList_text (x : Reading r s) : s.toList = x.symbol.toList ++ x.rest.toList := by
  rw [← String.toList_append, ← x.text]

end Reading

section

omit [Numeric κ]

theorem mem_units {e : Entry κ} : e ∈ r.units ↔ e.family ∈ r.families ∧ e.unit ∈ e.family.units := by
  simp only [units, List.mem_flatMap, List.mem_map]
  constructor
  · rintro ⟨f, hf, u, hu, rfl⟩
    exact ⟨hf, hu⟩
  · rintro ⟨hf, hu⟩
    exact ⟨e.family, hf, e.unit, hu, rfl⟩

end

section

variable {families : List (UnitFamily κ)} {prefixes : List SiPrefix} {allowed : List String}
  {aliases : List (String × String)} (hbuild : build families prefixes allowed aliases = .ok r)

include hbuild

theorem prefixes_of_build : r.prefixes = prefixes := by
  rw [(build_eq_ok_iff.1 hbuild).1]
  exact holds_draft.prefixes

theorem families_of_build : r.families = families := by
  rw [(build_eq_ok_iff.1 hbuild).1]
  exact families_draft

theorem findSymbol?_of_build {e : Entry κ} : r.findSymbol? s = some e ↔ e ∈ r.units ∧ s ∈ e.unit.symbols := by
  rw [mem_units, families_of_build hbuild, and_assoc, ← mem_symbolListing]
  obtain ⟨rfl, hnone⟩ := build_eq_ok_iff_not_inConflict.1 hbuild
  exact findSymbol?_draft (Classical.byContradiction fun h => hnone (.symbol h))

/-- **A symbol has no reading**, unless that is allowed. -/
theorem isEmpty_reading (hapart : Apart prefixes allowed) {e : Entry κ} (he : e ∈ r.units) (hs : s ∈ e.unit.symbols)
    (hallowed : s ∉ allowed) : IsEmpty (Reading r s) := by
  refine ⟨fun x => ?_⟩
  obtain ⟨hf, hu⟩ := mem_units.1 he
  obtain ⟨hxf, hxu⟩ := mem_units.1 x.unit
  have hlisted := x.listed
  rw [families_of_build hbuild] at hf hxf
  rw [prefixes_of_build hbuild] at hlisted
  have hstrip : x.siPrefix.stripSymbol s.toList = some x.rest.toList := by
    rw [x.toList_text]
    exact hapart.stripSymbol hlisted x.spelt x.toList_rest_ne_nil
  refine (build_eq_ok_iff_not_inConflict.1 hbuild).2
    (.reading (mem_unitSymbols.2 ⟨e, mem_symbolListing.2 ⟨hf, hu, hs⟩⟩) hallowed hlisted hstrip hxf hxu x.prefixable ?_)
  rw [String.ofList_toList]
  exact x.named

/-- Two readings of a text are one, if the prefix of the first begins that of the second. -/
theorem Reading.eq_of_begins (hapart : Apart prefixes allowed) (x y : Reading r s) {t : List Char}
    (hsymbol : y.symbol.toList = x.symbol.toList ++ t) (hrest : x.rest.toList = t ++ y.rest.toList) : x = y := by
  have hx := x.listed
  have hy := y.listed
  rw [prefixes_of_build hbuild] at hx hy
  have hafter : t ∈ after? x.symbol.toList y.symbol.toList := after?_eq_some_iff.2 hsymbol
  rcases hapart.others _ hx _ x.spelt _ hy _ y.spelt t hafter with hsame | ⟨ht, ⟨o, ho, hspelt⟩, hallowed⟩
  · obtain rfl := hapart.own _ hy _ (hsame ▸ x.spelt) _ y.spelt t hafter
    have hrests : x.rest = y.rest := String.toList_inj.1 hrest
    have hentries : some x.entry = some y.entry := by
      rw [← (findSymbol?_of_build hbuild).2 ⟨x.unit, x.named⟩, hrests,
        (findSymbol?_of_build hbuild).2 ⟨y.unit, y.named⟩]
    exact Reading.ext hsame (String.toList_inj.1 (by rw [hsymbol, List.append_nil])) (Option.some.inj hentries) hrests
  · -- the unit symbol of the first reading reads as a prefix before that of the second
    have hreading : Reading r x.rest :=
      { y with
        siPrefix := o
        symbol := String.ofList t
        listed := prefixes_of_build hbuild ▸ ho
        spelt := hspelt
        text := String.toList_inj.1 (by rw [hrest, String.toList_append, String.toList_ofList]) }
    have hforbidden : x.rest ∉ allowed := fun h => by
      have hnone := hallowed x.rest h
      rw [after?_eq_some_iff.2 hrest] at hnone
      cases hnone
    exact ((isEmpty_reading hbuild hapart x.unit x.named hforbidden).false hreading).elim

/-- A text has one reading at most. -/
theorem subsingleton_reading (hapart : Apart prefixes allowed) (s : String) : Subsingleton (Reading r s) := by
  refine ⟨fun x y => ?_⟩
  rcases List.append_eq_append_iff.1 (x.toList_text.symm.trans y.toList_text) with ⟨t, hsymbol, hrest⟩ | ⟨t, hsymbol, hrest⟩
  · exact x.eq_of_begins hbuild hapart y hsymbol hrest
  · exact (y.eq_of_begins hbuild hapart x hsymbol hrest).symm

/-- A registry splits a text by a symbol exactly where it has a reading. -/
theorem splitBySymbol_iff_reading (hapart : Apart prefixes allowed) {p : SiPrefix} (hp : p ∈ r.prefixes) :
    SplitBySymbol r p s ↔ ∃ x : Reading r s, x.siPrefix = p := by
  constructor
  · rintro ⟨rest, e, hstrip, he, hprefixable⟩
    obtain ⟨hne, a, ha, htext⟩ := SiPrefix.stripSymbol_eq_some hstrip
    obtain ⟨hunit, hnamed⟩ := (findSymbol?_of_build hbuild).1 he
    refine ⟨⟨p, a, e, String.ofList rest, hp, ha, hunit, hprefixable, hnamed, fun h => hne ?_, ?_⟩, rfl⟩
    · exact String.ofList_eq_empty_iff.1 h
    · rw [← String.toList_inj, htext, String.toList_append, String.toList_ofList]
  · rintro ⟨x, rfl⟩
    refine ⟨x.rest.toList, x.entry, ?_, ?_, x.prefixable⟩
    · rw [x.toList_text]
      exact hapart.stripSymbol (prefixes_of_build hbuild ▸ hp) x.spelt x.toList_rest_ne_nil
    · rw [String.ofList_toList]
      exact (findSymbol?_of_build hbuild).2 ⟨x.unit, x.named⟩

end

/-! ## The built-in prefixes -/

/-- only deci begins another, deca, and what is behind it is atto -/
theorem apart_prefixes : Apart Catalog.prefixes Catalog.allowed where
  own := by decide +kernel
  others := by decide +kernel

/-- **Prefixed symbols are uniquely readable.** In every registry that is accepted with the built-in prefixes, a text has
one reading at most, the symbols of units have none, except those allowed, and readings are what prefixes split. -/
theorem uniquely_readable {families : List (UnitFamily κ)} {aliases : List (String × String)}
    (hbuild : build families Catalog.prefixes Catalog.allowed aliases = .ok r) :
    (∀ s, Subsingleton (Reading r s)) ∧
      (∀ e ∈ r.units, ∀ s ∈ e.unit.symbols, s ∉ Catalog.allowed → IsEmpty (Reading r s)) ∧
        ∀ p ∈ r.prefixes, ∀ s, SplitBySymbol r p s ↔ ∃ x : Reading r s, x.siPrefix = p :=
  ⟨subsingleton_reading hbuild apart_prefixes,
    fun _ he _ hs hallowed => isEmpty_reading hbuild apart_prefixes he hs hallowed,
    fun _ hp _ => splitBySymbol_iff_reading hbuild apart_prefixes hp⟩

/-! ### A catalog with two prefixes that begin alike -/

open Sample

/-- decameters are read in one way, although deci begins deca; a second is no prefixed unit -/
theorem uniquely_readable_decameter :
    ∃ r, build [lengths, times "s" []] Catalog.prefixes Catalog.allowed [] = .ok r ∧
      (∃ x : Reading r "dam", x.siPrefix.name = "deca" ∧ ∀ y : Reading r "dam", y = x) ∧ IsEmpty (Reading r "s") := by
  let r := folded [lengths, times "s" []] Catalog.prefixes Catalog.allowed []
  have hbuild : build [lengths, times "s" []] Catalog.prefixes Catalog.allowed [] = .ok r :=
    build_eq_ok_iff.2 ⟨rfl, by decide +kernel, by decide +kernel⟩
  obtain ⟨hunique, hnone, hsplit⟩ := uniquely_readable hbuild
  have hdeca : (⟨"deca", "da", 1, []⟩ : SiPrefix) ∈ r.prefixes := by
    rw [prefixes_of_build hbuild]
    decide
  obtain ⟨x, hx⟩ := (hsplit _ hdeca "dam").1 (by decide +kernel)
  have hsecond : (⟨⟨"second", "s", [], .one, Numeric.one, Numeric.zero, .metric⟩, times "s" []⟩ : Entry Float) ∈ r.units := by
    rw [mem_units, families_of_build hbuild]
    exact ⟨List.mem_cons_of_mem _ List.mem_cons_self, List.mem_cons_self⟩
  exact ⟨r, hbuild, ⟨x, congrArg SiPrefix.name hx, fun y => (hunique "dam").elim y x⟩,
    hnone _ hsecond "s" List.mem_cons_self (by decide)⟩

end UnitAlgebra.Registry

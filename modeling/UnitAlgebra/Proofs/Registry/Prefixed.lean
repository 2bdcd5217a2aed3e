/-
Which units an orderly registry finds. In an orderly list of families and prefixes all symbols differ, no symbol and no
name is a prefixed symbol as well, and no prefixed symbol can be taken apart in two ways. Then every symbol finds its
unit, and every prefix symbol before the symbol of a prefixable unit finds the two again.

Results:
- `Orderly.find?_symbol`: a symbol finds its unit.
- `Orderly.find?_prefixed`: a prefixed symbol is neither a symbol nor a name.
- `Orderly.findPrefixed?_prefixed`: a prefixed symbol is taken apart into prefix and unit.
- `splitByFirst_eq_none`: a text that begins with no prefix is not taken apart.
- `splitByFirst_append`: the first prefix that splits a text is the one that is taken off.
-/
import UnitAlgebra.Proofs.Registry.Listing
import UnitAlgebra.Proofs.Text.Case

namespace UnitAlgebra.Registry

open Text

variable {κ : Type} [Numeric κ]

/-! ## Orderly lists -/

/-- the symbols of all units that take a prefix -/
def prefixableSymbols (families : List (UnitFamily κ)) : List (List Char) :=
  families.flatMap fun f => (f.units.filter f.isPrefixable).flatMap fun u => u.symbols.map String.toList

/-- the names of all units, in the singular and the plural -/
def unitNames (families : List (UnitFamily κ)) : List String :=
  families.flatMap fun f => f.units.flatMap fun u => [u.name, Spelling.plural u.name]

/-- the characters of a text are compared one by one -/
def Plain (cs : List Char) : Prop := ∀ c ∈ cs, isBlank c = false ∧ isSimple c = true

instance (cs : List Char) : Decidable (Plain cs) := List.decidableBAll _ cs

/-- two beginnings that no two endings from a list make equal -/
def Unmixed (ends : List (List Char)) (s t : List Char) : Prop :=
  s.head? ≠ t.head? ∨ ∀ b ∈ ends, ∀ c ∈ ends, s ++ b ≠ t ++ c

instance (ends : List (List Char)) (s t : List Char) : Decidable (Unmixed ends s t) :=
  inferInstanceAs (Decidable (_ ∨ _))

/-- families and prefixes whose spellings do not get in each other's way -/
structure Orderly (families : List (UnitFamily κ)) (prefixes : List SiPrefix) : Prop where
  symbols : ((symbolListing families).map Prod.fst).Nodup
  /-- no symbol is a prefixed one -/
  unprefixedSymbols : ∀ e ∈ symbolListing families, ∀ p ∈ prefixes,
    ∀ rest ∈ after? p.symbol.toList e.1.toList, rest ∉ prefixableSymbols families
  /-- no name is a prefixed symbol -/
  unprefixedNames : ∀ n ∈ unitNames families, ∀ p ∈ prefixes,
    ∀ rest ∈ after? (p.symbol.toList.map compared) (n.toList.map compared),
      rest ∉ (prefixableSymbols families).map (List.map compared)
  plainNames : ∀ n ∈ unitNames families, Plain n.toList
  plainPrefixes : ∀ p ∈ prefixes, Plain p.symbol.toList
  plainSymbols : ∀ b ∈ prefixableSymbols families, b ≠ [] ∧ Plain b
  /-- prefixes begin with letters of their own, or are told apart by what follows -/
  unmixed : ∀ p ∈ prefixes, ∀ q ∈ prefixes, ∀ s ∈ q.symbols, s.toList ≠ [] ∧
    (s = p.symbol ∧ q = p ∨ Unmixed (prefixableSymbols families) p.symbol.toList s.toList)
  /-- no prefixed symbol begins with the name of a prefix -/
  unnamed : ∀ p ∈ prefixes, ∀ q ∈ prefixes, q.name.toList ≠ [] ∧
    ∀ b ∈ prefixableSymbols families, after? q.name.toList.tail (p.symbol.toList.tail ++ b) = none

/-! ## Listed units -/

omit [Numeric κ] in
theorem mem_symbolListing {families : List (UnitFamily κ)} {s : String} {e : Entry κ} :
    (s, e) ∈ symbolListing families ↔ e.family ∈ families ∧ e.unit ∈ e.family.units ∧ s ∈ e.unit.symbols := by
  simp only [symbolListing, familySymbols, List.mem_flatMap, List.mem_map, Prod.mk.injEq]
  constructor
  · rintro ⟨f, hf, u, hu, _, hs, rfl, rfl⟩
    exact ⟨hf, hu, hs⟩
  · rintro ⟨hf, hu, hs⟩
    exact ⟨e.family, hf, e.unit, hu, s, hs, rfl, rfl⟩

theorem mem_prefixableSymbols {families : List (UnitFamily κ)} {s : String} {e : Entry κ}
    (h : (s, e) ∈ symbolListing families) (hp : e.isPrefixable = true) : s.toList ∈ prefixableSymbols families := by
  obtain ⟨hf, hu, hs⟩ := mem_symbolListing.1 h
  simp only [prefixableSymbols, List.mem_flatMap, List.mem_map]
  exact ⟨e.family, hf, e.unit, List.mem_filter.2 ⟨hu, hp⟩, s, hs, rfl⟩

omit [Numeric κ] in
theorem mem_nameListing {families : List (UnitFamily κ)} {k : String} {e : Entry κ} :
    (k, e) ∈ nameListing families ↔ e.family ∈ families ∧ e.unit ∈ e.family.units ∧
      ∃ n ∈ [e.unit.name, Spelling.plural e.unit.name], Spelling.unitName n = k := by
  simp only [nameListing, familyUnitNames, List.mem_flatMap, List.mem_map, Prod.mk.injEq]
  constructor
  · rintro ⟨f, hf, u, hu, n, hn, hk, rfl⟩
    exact ⟨hf, hu, n, hn, hk⟩
  · rintro ⟨hf, hu, n, hn, hk⟩
    exact ⟨e.family, hf, e.unit, hu, n, hn, hk, rfl⟩

omit [Numeric κ] in
theorem exists_name_of_mem {families : List (UnitFamily κ)} {k : String} {e : Entry κ}
    (h : (k, e) ∈ nameListing families) : ∃ n ∈ unitNames families, k = Spelling.unitName n := by
  obtain ⟨hf, hu, n, hn, hk⟩ := mem_nameListing.1 h
  exact ⟨n, List.mem_flatMap.2 ⟨e.family, hf, List.mem_flatMap.2 ⟨e.unit, hu, hn⟩⟩, hk.symm⟩

variable {families : List (UnitFamily κ)} {prefixes : List SiPrefix} {r : Registry κ}

/-- A symbol finds its unit. -/
theorem Orderly.find?_symbol (ho : Orderly families prefixes) (hb : r.BuiltFrom families prefixes) {s : String}
    {e : Entry κ} (h : (s, e) ∈ symbolListing families) : r.findSymbol? s = some e := by
  rw [hb.symbols]
  exact Directory.find?_of_mem ho.symbols h

theorem mem_of_prefixable? (hb : r.BuiltFrom families prefixes) {cs : List Char} {e : Entry κ}
    (h : prefixable? (r.findSymbol? (String.ofList cs)) = some e) : cs ∈ prefixableSymbols families := by
  obtain ⟨hfind, hp⟩ := Option.filter_eq_some_iff.1 h
  rw [hb.symbols] at hfind
  have := mem_prefixableSymbols (Directory.mem_of_find? hfind) hp
  rwa [String.toList_ofList] at this

theorem find?_eq_none (ho : Orderly families prefixes) (hb : r.BuiltFrom families prefixes) {s : String}
    (hplain : Plain s.toList) (hs : ∀ e ∈ symbolListing families, e.1.toList ≠ s.toList)
    (hn : ∀ n ∈ unitNames families, n.toList.map compared ≠ s.toList.map compared) : r.find? s = none := by
  have hsymbol : r.findSymbol? s = none := by
    rw [hb.symbols]
    exact Directory.find?_eq_none_iff.2 fun e he heq => hs e he (heq ▸ rfl)
  have hname : r.findName? s = none := by
    rw [hb.names]
    refine Directory.find?_eq_none_iff.2 fun e he heq => ?_
    obtain ⟨n, hmem, hkey⟩ := exists_name_of_mem he
    apply hn n hmem
    have hplain' := ho.plainNames n hmem
    rw [← toList_unitName (fun c hc => (hplain' c hc).1) fun c hc => (hplain' c hc).2,
      ← toList_unitName (fun c hc => (hplain c hc).1) fun c hc => (hplain c hc).2, ← hkey, heq]
  rw [find?, hsymbol, hname]
  rfl

/-! ## Prefixes -/

theorem stripName_eq_none {p : SiPrefix} {c : Char} {rest : List Char} (hne : p.name.toList ≠ [])
    (h : after? p.name.toList.tail rest = none) : p.stripName (c :: rest) = .ok none := by
  unfold SiPrefix.stripName
  cases hp : p.name.toList with
  | nil => exact absurd hp hne
  | cons n name =>
    rw [hp] at h
    simp only [List.tail_cons] at h
    simp only [h, ite_self]

theorem stripSymbol_bind_eq_none (hb : r.BuiltFrom families prefixes) {p : SiPrefix} {text : List Char}
    (hs : ∀ s ∈ p.symbols, ∀ b ∈ prefixableSymbols families, text ≠ s.toList ++ b) :
    (p.stripSymbol text).bind (fun s => prefixable? (r.findSymbol? (String.ofList s))) = none := by
  rw [Option.bind_eq_none_iff]
  intro b hstrip
  obtain ⟨_, s, hmem, hsplit⟩ := SiPrefix.stripSymbol_eq_some hstrip
  cases hp : prefixable? (r.findSymbol? (String.ofList b)) with
  | none => rfl
  | some e => exact absurd hsplit (hs s hmem b (mem_of_prefixable? hb hp))

/-- a prefix that no symbol of a prefixable unit stands behind is not taken off -/
theorem splitBy_eq_none (hb : r.BuiltFrom families prefixes) {p : SiPrefix} {c : Char} {rest : List Char}
    (hs : ∀ s ∈ p.symbols, ∀ b ∈ prefixableSymbols families, c :: rest ≠ s.toList ++ b) (hne : p.name.toList ≠ [])
    (hn : after? p.name.toList.tail rest = none) : r.splitBy (c :: rest) p = .ok none := by
  rw [splitBy, stripSymbol_bind_eq_none hb hs, stripName_eq_none hne hn]
  rfl

/-- A text that begins with no prefix is not taken apart. -/
theorem splitByFirst_eq_none {text : List Char} {ps : List SiPrefix} (h : ∀ p ∈ ps, r.splitBy text p = .ok none) :
    r.splitByFirst text ps = .ok none := by
  induction ps with
  | nil => rfl
  | cons p ps ih =>
    rw [splitByFirst, h p List.mem_cons_self]
    exact ih fun q hq => h q (List.mem_cons_of_mem p hq)

/-- The first prefix that splits a text is the one that is taken off. -/
theorem splitByFirst_append {text : List Char} {before after : List SiPrefix} {p : SiPrefix} {e : Entry κ}
    (hbefore : ∀ q ∈ before, r.splitBy text q = .ok none) (hp : r.splitBy text p = .ok (some e)) :
    r.splitByFirst text (before ++ p :: after) = .ok (some (p, e)) := by
  induction before with
  | nil =>
    rw [List.nil_append, splitByFirst, hp]
    rfl
  | cons q before ih =>
    rw [List.cons_append, splitByFirst, hbefore q List.mem_cons_self]
    exact ih fun q' hq' => hbefore q' (List.mem_cons_of_mem q hq')

theorem exists_of_splitByFirst {text : List Char} {ps : List SiPrefix} {p : SiPrefix} {e : Entry κ}
    (h : r.splitByFirst text ps = .ok (some (p, e))) : p ∈ ps ∧ r.splitBy text p = .ok (some e) := by
  induction ps with
  | nil => cases h
  | cons q ps ih =>
    rw [splitByFirst] at h
    cases hs : r.splitBy text q with
    | error fault =>
      rw [hs] at h
      cases h
    | ok found =>
      rw [hs] at h
      cases found with
      | some f =>
        cases h
        exact ⟨List.mem_cons_self, hs⟩
      | none =>
        obtain ⟨hp, hsplit⟩ := ih h
        exact ⟨List.mem_cons_of_mem q hp, hsplit⟩

/-- the only prefix that can be taken off is found -/
theorem splitByFirst_eq_some {text : List Char} {ps : List SiPrefix} {p : SiPrefix} {e : Entry κ}
    (hother : ∀ q ∈ ps, q ≠ p → r.splitBy text q = .ok none) (hp : p ∈ ps) (hsplit : r.splitBy text p = .ok (some e)) :
    r.splitByFirst text ps = .ok (some (p, e)) := by
  obtain ⟨before, after, rfl, hnew⟩ := List.eq_append_cons_of_mem hp
  refine splitByFirst_append (fun q hq => hother q (List.mem_append_left _ hq) ?_) hsplit
  rintro rfl
  exact hnew hq

/-! ## Prefixed units -/

/-- a prefix and a prefixable unit of an orderly list -/
structure Prefixed (families : List (UnitFamily κ)) (prefixes : List SiPrefix) (p : SiPrefix) (e : Entry κ) : Prop where
  siPrefix : p ∈ prefixes
  family : e.family ∈ families
  unit : e.unit ∈ e.family.units
  prefixable : e.isPrefixable = true

namespace Prefixed

variable {p : SiPrefix} {e : Entry κ}

omit [Numeric κ] in
theorem symbols_cons (u : UnitDef κ) : u.symbol ∈ u.symbols := List.mem_cons_self

theorem mem_listing (h : Prefixed families prefixes p e) : (e.unit.symbol, e) ∈ symbolListing families :=
  mem_symbolListing.2 ⟨h.family, h.unit, symbols_cons e.unit⟩

theorem mem_symbols (h : Prefixed families prefixes p e) : e.unit.symbol.toList ∈ prefixableSymbols families :=
  mem_prefixableSymbols h.mem_listing h.prefixable

end Prefixed

section

variable {p : SiPrefix} {e : Entry κ} (ho : Orderly families prefixes) (hb : r.BuiltFrom families prefixes)
  (h : Prefixed families prefixes p e)

include ho h in
theorem Orderly.plain_prefixed : Plain (p.symbol ++ e.unit.symbol).toList := by
  intro c hc
  rw [String.toList_append] at hc
  rcases List.mem_append.1 hc with hc | hc
  · exact ho.plainPrefixes p h.siPrefix c hc
  · exact (ho.plainSymbols _ h.mem_symbols).2 c hc

include ho hb h in
/-- A prefixed symbol is neither a symbol nor a name. -/
theorem Orderly.find?_prefixed : r.find? (p.symbol ++ e.unit.symbol) = none := by
  refine find?_eq_none ho hb (ho.plain_prefixed h) (fun s hs heq => ?_) (fun n hn heq => ?_)
  · rw [String.toList_append] at heq
    exact ho.unprefixedSymbols s hs p h.siPrefix _ (after?_eq_some_iff.2 heq) h.mem_symbols
  · rw [String.toList_append, List.map_append] at heq
    exact ho.unprefixedNames n hn p h.siPrefix _ (after?_eq_some_iff.2 heq) (List.mem_map_of_mem h.mem_symbols)

include ho h in
theorem Orderly.exists_head : ∃ c rest, p.symbol.toList = c :: rest := by
  have := (ho.unmixed p h.siPrefix p h.siPrefix p.symbol List.mem_cons_self).1
  cases hp : p.symbol.toList with
  | nil => exact absurd hp this
  | cons c rest => exact ⟨c, rest, rfl⟩

include ho hb h in
/-- A prefixed symbol is taken apart into prefix and unit. -/
theorem Orderly.findPrefixed?_prefixed : r.findPrefixed? (p.symbol ++ e.unit.symbol) = .ok (some (p, e)) := by
  obtain ⟨c, rest, hp⟩ := ho.exists_head h
  have htext : (p.symbol ++ e.unit.symbol).toList = c :: (rest ++ e.unit.symbol.toList) := by
    rw [String.toList_append, hp, List.cons_append]
  rw [findPrefixed?, hb.prefixes, htext]
  refine splitByFirst_eq_some (fun q hq hne => ?_) h.siPrefix ?_
  · refine splitBy_eq_none hb (fun s hs b hmem heq => ?_) (ho.unnamed p h.siPrefix q hq).1 ?_
    · obtain ⟨hsne, ⟨_, heqp⟩ | hunmixed⟩ := ho.unmixed p h.siPrefix q hq s hs
      · exact hne heqp
      · rcases hunmixed with hhead | hends
        · obtain ⟨d, ds, hd⟩ := List.exists_cons_of_ne_nil hsne
          rw [hd, List.cons_append] at heq
          rw [hp, hd] at hhead
          exact hhead (congrArg some (List.cons.inj heq).1)
        · rw [← List.cons_append, ← hp] at heq
          exact hends _ h.mem_symbols b hmem heq
    · have := (ho.unnamed p h.siPrefix q hq).2 _ h.mem_symbols
      rwa [hp, List.tail_cons] at this
  · have hstrip : p.stripSymbol (c :: (rest ++ e.unit.symbol.toList)) = some e.unit.symbol.toList := by
      have hafter : after? p.symbol.toList (c :: (rest ++ e.unit.symbol.toList)) = some e.unit.symbol.toList := by
        rw [after?_eq_some_iff, hp, List.cons_append]
      obtain ⟨d, ds, hd⟩ := List.exists_cons_of_ne_nil (ho.plainSymbols _ h.mem_symbols).1
      rw [SiPrefix.stripSymbol, SiPrefix.symbols, List.findSome?_cons, SiPrefix.afterSymbol, hafter, hd]
    rw [splitBy, hstrip, Option.bind_some, String.ofList_toList, ho.find?_symbol hb h.mem_listing]
    rw [prefixable?, Option.filter_some, if_pos h.prefixable]

end

end UnitAlgebra.Registry

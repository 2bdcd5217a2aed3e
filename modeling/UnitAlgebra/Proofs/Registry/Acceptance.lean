/-
Which catalogs make a registry. One pass over families and aliases fills four directories and notes conflicts on the way;
then every symbol is compared with every prefix. A registry is refused exactly when the catalog has a conflict, and a
registry that is accepted finds every unit under each of its symbols.

Results:
- `Directory.Fresh`: entries under new keys, which are all that a directory grows by.
- `Draft.conflicts_addFamilies`, `conflicts_addAliases`: the pass notes no conflict where keys are new and aliases lead on.
- `prefixedReadings_eq_nil_iff`: no symbol of the registry reads as a prefixed one.
- `refused_iff_and_finds`: the conflicts of a catalog, and what a registry without conflicts finds.
-/
import Mathlib.Tactic.Push
import UnitAlgebra.Decimal.Functions
import UnitAlgebra.Proofs.Registry.Prefixed

namespace UnitAlgebra

/-! ## New entries -/

namespace Directory

variable {K α : Type} [DecidableEq K]

/-- entries under keys of their own, none of which stands in the directory -/
def Fresh (d entries : Directory K α) : Prop :=
  (entries.map Prod.fst).Nodup ∧ ∀ e ∈ entries, d.find? e.1 = none

theorem find?_enter_eq_none_iff {d : Directory K α} {e : K × α} {k : K} :
    find? (d.enter e) k = none ↔ find? d k = none ∧ k ≠ e.1 := by
  rw [enter, find?_addNew]
  split
  · next hk => simp [hk]
  · next hk => simp [hk]

theorem fresh_nil (d : Directory K α) : Fresh d [] := ⟨List.nodup_nil, nofun⟩

theorem fresh_cons_iff {d entries : Directory K α} {e : K × α} :
    Fresh d (e :: entries) ↔ d.find? e.1 = none ∧ Fresh (d.enter e) entries := by
  unfold Fresh
  rw [List.map_cons, List.nodup_cons]
  constructor
  · rintro ⟨⟨hnew, hnodup⟩, hall⟩
    have he := hall e List.mem_cons_self
    refine ⟨he, hnodup, fun x hx => find?_enter_eq_none_iff.2 ⟨hall x (List.mem_cons_of_mem e hx), fun hk => ?_⟩⟩
    exact hnew (hk ▸ List.mem_map_of_mem hx)
  · rintro ⟨he, hnodup, hall⟩
    refine ⟨⟨fun hmem => ?_, hnodup⟩, fun x hx => ?_⟩
    · obtain ⟨x, hx, hk⟩ := List.mem_map.1 hmem
      exact (find?_enter_eq_none_iff.1 (hall x hx)).2 hk
    · rcases List.mem_cons.1 hx with rfl | hx
      · exact he
      · exact (find?_enter_eq_none_iff.1 (hall x hx)).1

theorem fresh_append_iff {d entries more : Directory K α} :
    Fresh d (entries ++ more) ↔ Fresh d entries ∧ Fresh (entries.foldl enter d) more := by
  induction entries generalizing d with
  | nil => exact ⟨fun h => ⟨fresh_nil d, h⟩, And.right⟩
  | cons e entries ih => rw [List.cons_append, fresh_cons_iff, fresh_cons_iff, ih, List.foldl_cons, and_assoc]

theorem fresh_empty_iff {entries : Directory K α} : Fresh [] entries ↔ (entries.map Prod.fst).Nodup :=
  ⟨And.left, fun h => ⟨h, fun _ _ => rfl⟩⟩

theorem foldl_enter_of_fresh {d entries : Directory K α} (h : Fresh d entries) : entries.foldl enter d = d ++ entries := by
  induction entries generalizing d with
  | nil => exact (List.append_nil d).symm
  | cons e entries ih =>
    obtain ⟨he, hrest⟩ := fresh_cons_iff.1 h
    have henter : d.enter e = d ++ [e] := by simp only [enter, addNew, he, Option.isSome_none, Bool.false_eq_true, if_false]
    rw [List.foldl_cons, ih hrest, henter, List.append_assoc, List.singleton_append]

end Directory

namespace Registry

open Directory

variable {κ : Type}

/-! ## Conflicts met on the way -/

namespace Draft

variable {d : Draft κ}

theorem conflicts_addSymbol (d : Draft κ) (e : Entry κ) (s : String) :
    (d.addSymbol e s).conflicts = [] ↔ d.conflicts = [] ∧ d.registry.symbols.find? s = none := by
  unfold addSymbol
  cases d.registry.symbols.find? s with
  | some first => simp
  | none => simp

theorem conflicts_addSymbols (d : Draft κ) (e : Entry κ) (ss : List String) :
    (ss.foldl (addSymbol · e) d).conflicts = [] ↔
      d.conflicts = [] ∧ Fresh d.registry.symbols (ss.map fun s => (s, e)) := by
  induction ss generalizing d with
  | nil => exact ⟨fun h => ⟨h, fresh_nil _⟩, And.left⟩
  | cons s ss ih =>
    have hsymbols := (holds_addSymbol (d := d) ⟨rfl, rfl, rfl, rfl⟩ e s).symbols
    rw [List.foldl_cons, ih, conflicts_addSymbol, hsymbols, List.map_cons, fresh_cons_iff, and_assoc]

theorem conflicts_addUnit (d : Draft κ) (e : Entry κ) :
    (d.addUnit e).conflicts = [] ↔
      d.conflicts = [] ∧ Fresh d.registry.symbols (e.unit.symbols.map fun s => (s, e)) :=
  conflicts_addSymbols d e e.unit.symbols

theorem conflicts_addUnits (d : Draft κ) (f : UnitFamily κ) (us : List (UnitDef κ)) :
    (us.foldl (fun d u => d.addUnit ⟨u, f⟩) d).conflicts = [] ↔
      d.conflicts = [] ∧
        Fresh d.registry.symbols (us.flatMap fun u => u.symbols.map fun s => (s, (⟨u, f⟩ : Entry κ))) := by
  induction us generalizing d with
  | nil => exact ⟨fun h => ⟨h, fresh_nil _⟩, And.left⟩
  | cons u us ih =>
    have hsymbols := (holds_addUnit (d := d) ⟨rfl, rfl, rfl, rfl⟩ ⟨u, f⟩).symbols
    rw [List.foldl_cons, ih, conflicts_addUnit, hsymbols, List.flatMap_cons, fresh_append_iff, and_assoc]

theorem conflicts_addFamily (d : Draft κ) (f : UnitFamily κ) :
    (d.addFamily f).conflicts = [] ↔
      d.conflicts = [] ∧ d.registry.dimensions.find? f.dimension = none ∧
        Fresh d.registry.symbols (familySymbols f) := by
  refine (conflicts_addUnits _ f f.units).trans ?_
  unfold addDimension
  cases hfind : d.registry.dimensions.find? f.dimension with
  | some first => simp [addFamilyNames]
  | none => simp [addFamilyNames, familySymbols]

theorem conflicts_addFamilies (d : Draft κ) (fs : List (UnitFamily κ)) :
    (fs.foldl addFamily d).conflicts = [] ↔
      d.conflicts = [] ∧ Fresh d.registry.dimensions (fs.map fun f => (f.dimension, f)) ∧
        Fresh d.registry.symbols (symbolListing fs) := by
  induction fs generalizing d with
  | nil => exact ⟨fun h => ⟨h, fresh_nil _, fresh_nil _⟩, And.left⟩
  | cons f fs ih =>
    have hadded := holds_addFamily (d := d) ⟨rfl, rfl, rfl, rfl⟩ f
    have hlisting : symbolListing (f :: fs) = familySymbols f ++ symbolListing fs := rfl
    rw [List.foldl_cons, ih, conflicts_addFamily, hadded.symbols, hadded.dimensions, hlisting, List.map_cons,
      fresh_cons_iff, fresh_append_iff]
    constructor
    · rintro ⟨⟨hd, hdimension, hfamily⟩, hdimensions, hsymbols⟩
      exact ⟨hd, ⟨hdimension, hdimensions⟩, hfamily, hsymbols⟩
    · rintro ⟨hd, ⟨hdimension, hdimensions⟩, hfamily, hsymbols⟩
      exact ⟨⟨hd, hdimension, hfamily⟩, hdimensions, hsymbols⟩

/-! ## Names of families -/

/-- a step that leaves the names of families and the allowed symbols alone -/
structure Keeps (d d' : Draft κ) : Prop where
  familyNames : d'.registry.familyNames = d.registry.familyNames
  allowed : d'.registry.allowed = d.registry.allowed

theorem Keeps.refl (d : Draft κ) : Keeps d d := ⟨rfl, rfl⟩

theorem Keeps.trans {d d' d'' : Draft κ} (h : Keeps d d') (h' : Keeps d' d'') : Keeps d d'' :=
  ⟨h'.familyNames.trans h.familyNames, h'.allowed.trans h.allowed⟩

theorem keeps_foldl {α : Type} {add : Draft κ → α → Draft κ} (h : ∀ d a, Keeps d (add d a)) (l : List α) (d : Draft κ) :
    Keeps d (l.foldl add d) := by
  induction l generalizing d with
  | nil => exact .refl d
  | cons a l ih => exact (h d a).trans (ih (add d a))

theorem keeps_addSymbol (d : Draft κ) (e : Entry κ) (s : String) : Keeps d (d.addSymbol e s) := by
  unfold addSymbol
  split <;> exact ⟨rfl, rfl⟩

theorem keeps_addUnit (d : Draft κ) (e : Entry κ) : Keeps d (d.addUnit e) :=
  (keeps_foldl (fun d s => keeps_addSymbol d e s) e.unit.symbols d).trans ⟨rfl, rfl⟩

theorem keeps_addDimension (d : Draft κ) (f : UnitFamily κ) : Keeps d (d.addDimension f) := by
  unfold addDimension
  split <;> exact ⟨rfl, rfl⟩

/-- a family with its names, before its units -/
def begin (d : Draft κ) (f : UnitFamily κ) : Draft κ :=
  let d := addFamilyNames (addDimension d f) f
  { d with registry := { d.registry with families := d.registry.families ++ [f] } }

theorem keeps_units (d : Draft κ) (f : UnitFamily κ) : Keeps (d.begin f) (d.addFamily f) :=
  keeps_foldl (fun d u => keeps_addUnit d ⟨u, f⟩) f.units (d.begin f)

theorem isSome_familyName_addFamily (d : Draft κ) (f : UnitFamily κ) (k : String) :
    ((d.addFamily f).registry.familyNames.find? k).isSome = true ↔
      (d.registry.familyNames.find? k).isSome = true ∨ k = Spelling.familyName f.name ∨
        k = Spelling.familyName f.symbol := by
  have hnames : (d.begin f).registry.familyNames = (d.registry.familyNames.put (Spelling.familyName f.name) f).addNew
      (Spelling.familyName f.symbol) f := by
    rw [← (keeps_addDimension d f).familyNames]
    rfl
  rw [(keeps_units d f).familyNames, hnames]
  simp only [find?_addNew, find?_put]
  by_cases hsymbol : k = Spelling.familyName f.symbol
  · simp [hsymbol]
  · by_cases hname : k = Spelling.familyName f.name
    · rw [if_neg hsymbol, if_pos hname]
      simp [hname]
    · simp [hsymbol, hname]

theorem isSome_familyName_addFamilies (d : Draft κ) (fs : List (UnitFamily κ)) (k : String) :
    ((fs.foldl addFamily d).registry.familyNames.find? k).isSome = true ↔
      (d.registry.familyNames.find? k).isSome = true ∨
        ∃ f ∈ fs, k = Spelling.familyName f.name ∨ k = Spelling.familyName f.symbol := by
  induction fs generalizing d with
  | nil => simp
  | cons f fs ih =>
    rw [List.foldl_cons, ih, isSome_familyName_addFamily, or_assoc]
    simp only [List.mem_cons, exists_eq_or_imp]

theorem allowed_addFamily (d : Draft κ) (f : UnitFamily κ) : (d.addFamily f).registry.allowed = d.registry.allowed :=
  (keeps_units d f).allowed.trans (keeps_addDimension d f).allowed

theorem allowed_addAlias (d : Draft κ) (entry : String × String) :
    (d.addAlias entry).registry.allowed = d.registry.allowed := by
  unfold addAlias
  split <;> rfl

/-! ## Families -/

theorem families_foldl {α : Type} {f : Draft κ → α → Draft κ}
    (h : ∀ d a, (f d a).registry.families = d.registry.families) (l : List α) (d : Draft κ) :
    (l.foldl f d).registry.families = d.registry.families := by
  induction l generalizing d with
  | nil => rfl
  | cons a l ih => exact (ih (f d a)).trans (h d a)

theorem families_addUnit (d : Draft κ) (e : Entry κ) : (d.addUnit e).registry.families = d.registry.families := by
  refine families_foldl (f := (addSymbol · e)) (fun d s => ?_) e.unit.symbols d
  unfold addSymbol
  split <;> rfl

theorem families_addFamily (d : Draft κ) (f : UnitFamily κ) :
    (d.addFamily f).registry.families = d.registry.families ++ [f] := by
  refine (families_foldl (f := fun d u => d.addUnit ⟨u, f⟩) (fun d u => families_addUnit d _) f.units _).trans ?_
  unfold addDimension
  split <;> rfl

theorem families_addFamilies (d : Draft κ) (fs : List (UnitFamily κ)) :
    (fs.foldl addFamily d).registry.families = d.registry.families ++ fs := by
  induction fs generalizing d with
  | nil => exact (List.append_nil _).symm
  | cons f fs ih => rw [List.foldl_cons, ih, families_addFamily, List.append_assoc, List.singleton_append]

theorem families_addAlias (d : Draft κ) (entry : String × String) :
    (d.addAlias entry).registry.families = d.registry.families := by
  unfold addAlias
  split <;> rfl

/-! ## Aliases -/

/-- every alias leads to a known name or to an alias before it -/
def LeadOn (known : String → Prop) (aliases : List (String × String)) : Prop :=
  ∀ before entry after, aliases = before ++ entry :: after →
    known (Spelling.familyName entry.2) ∨ ∃ earlier ∈ before, Spelling.familyName entry.2 = Spelling.familyName earlier.1

theorem leadOn_nil (known : String → Prop) : LeadOn known [] := by
  intro before entry after h
  cases before <;> cases h

theorem leadOn_cons_iff {known : String → Prop} {entry : String × String} {aliases : List (String × String)} :
    LeadOn known (entry :: aliases) ↔ known (Spelling.familyName entry.2) ∧
      LeadOn (fun k => known k ∨ k = Spelling.familyName entry.1) aliases := by
  constructor
  · intro h
    refine ⟨?_, fun before next after hsplit => ?_⟩
    · rcases h [] entry aliases rfl with hknown | ⟨_, hmem, _⟩
      · exact hknown
      · cases hmem
    · rcases h (entry :: before) next after (by rw [hsplit, List.cons_append]) with hknown | ⟨earlier, hmem, hk⟩
      · exact .inl (.inl hknown)
      · rcases List.mem_cons.1 hmem with rfl | hmem
        · exact .inl (.inr hk)
        · exact .inr ⟨earlier, hmem, hk⟩
  · rintro ⟨hknown, hrest⟩ before next after hsplit
    cases before with
    | nil =>
      cases hsplit
      exact .inl hknown
    | cons first before =>
      cases hsplit
      rcases hrest before next after rfl with (hk | hk) | ⟨earlier, hmem, hk⟩
      · exact .inl hk
      · exact .inr ⟨entry, List.mem_cons_self, hk⟩
      · exact .inr ⟨earlier, List.mem_cons_of_mem _ hmem, hk⟩

theorem conflicts_addAlias (d : Draft κ) (entry : String × String) :
    (d.addAlias entry).conflicts = [] ↔
      d.conflicts = [] ∧ (d.registry.familyNames.find? (Spelling.familyName entry.2)).isSome = true := by
  unfold addAlias
  cases d.registry.familyNames.find? (Spelling.familyName entry.2) <;> simp

theorem isSome_familyName_addAlias {d : Draft κ} {entry : String × String}
    (h : (d.registry.familyNames.find? (Spelling.familyName entry.2)).isSome = true) (k : String) :
    ((d.addAlias entry).registry.familyNames.find? k).isSome = true ↔
      (d.registry.familyNames.find? k).isSome = true ∨ k = Spelling.familyName entry.1 := by
  obtain ⟨f, hf⟩ := Option.isSome_iff_exists.1 h
  unfold addAlias
  simp only [hf, find?_addNew]
  by_cases hk : k = Spelling.familyName entry.1
  · simp [hk]
  · simp [hk]

theorem conflicts_addAliases (d : Draft κ) (aliases : List (String × String)) :
    (aliases.foldl addAlias d).conflicts = [] ↔
      d.conflicts = [] ∧ LeadOn (fun k => (d.registry.familyNames.find? k).isSome = true) aliases := by
  induction aliases generalizing d with
  | nil => exact ⟨fun h => ⟨h, leadOn_nil _⟩, And.left⟩
  | cons entry aliases ih =>
    rw [List.foldl_cons, ih, conflicts_addAlias, leadOn_cons_iff, and_assoc]
    refine and_congr_right fun _ => and_congr_right fun hknown => ?_
    rw [funext fun k => propext (isSome_familyName_addAlias hknown k)]

end Draft

/-! ## Catalogs without conflicts -/

/-- the symbols of all units, with all their repetitions -/
def unitSymbols (families : List (UnitFamily κ)) : List String := families.flatMap fun f => f.units.flatMap UnitDef.symbols

theorem map_fst_symbolListing (families : List (UnitFamily κ)) :
    (symbolListing families).map Prod.fst = unitSymbols families := by
  simp only [symbolListing, familySymbols, unitSymbols, List.map_flatMap, List.map_map, Function.comp_def, List.map_id']

theorem map_fst_dimensions (families : List (UnitFamily κ)) :
    (families.map fun f => (f.dimension, f)).map Prod.fst = families.map UnitFamily.dimension := by
  rw [List.map_map]
  rfl

/-- a text is one of the names of a family, as names are compared -/
def NamesFamily (families : List (UnitFamily κ)) (k : String) : Prop :=
  ∃ f ∈ families, k = Spelling.familyName f.name ∨ k = Spelling.familyName f.symbol

variable {families : List (UnitFamily κ)} {prefixes : List SiPrefix} {allowed : List String}
  {aliases : List (String × String)}

/-- the pass over a catalog notes no conflict -/
theorem conflicts_draft_eq_nil_iff : (draft families prefixes allowed aliases).conflicts = [] ↔
    (families.map UnitFamily.dimension).Nodup ∧ (unitSymbols families).Nodup ∧
      Draft.LeadOn (NamesFamily families) aliases := by
  have hknown : (fun k => ((families.foldl Draft.addFamily ⟨empty prefixes allowed, []⟩).registry.familyNames.find?
      k).isSome = true) = NamesFamily families := by
    funext k
    rw [Draft.isSome_familyName_addFamilies]
    exact propext ⟨fun h => h.resolve_left Bool.false_ne_true, .inr⟩
  rw [draft, Draft.conflicts_addAliases, Draft.conflicts_addFamilies, hknown]
  simp only [empty, fresh_empty_iff, map_fst_dimensions, map_fst_symbolListing, true_and, and_assoc]

theorem allowed_draft : (draft families prefixes allowed aliases).registry.allowed = allowed := by
  have hfamilies (d : Draft κ) : (families.foldl Draft.addFamily d).registry.allowed = d.registry.allowed := by
    induction families generalizing d with
    | nil => rfl
    | cons f families ih => exact (ih (d.addFamily f)).trans (Draft.allowed_addFamily d f)
  have haliases (d : Draft κ) : (aliases.foldl Draft.addAlias d).registry.allowed = d.registry.allowed := by
    induction aliases generalizing d with
    | nil => rfl
    | cons entry aliases ih => exact (ih (d.addAlias entry)).trans (Draft.allowed_addAlias d entry)
  exact (haliases _).trans (hfamilies _)

theorem families_draft : (draft families prefixes allowed aliases).registry.families = families :=
  (Draft.families_foldl Draft.families_addAlias aliases _).trans (Draft.families_addFamilies _ families)

theorem holds_draft : (draft families prefixes allowed aliases).Holds ((symbolListing families).foldl enter [])
    ((nameListing families).foldl enter []) ((families.map fun f => (f.dimension, f)).foldl enter []) prefixes :=
  Draft.holds_addAliases (Draft.holds_addFamilies ⟨rfl, rfl, rfl, rfl⟩ families) aliases

theorem symbols_draft (h : (unitSymbols families).Nodup) :
    (draft families prefixes allowed aliases).registry.symbols = symbolListing families := by
  rw [holds_draft.symbols]
  exact foldl_enter_of_fresh (fresh_empty_iff.2 (by rwa [map_fst_symbolListing]))

theorem findSymbol?_draft (h : (unitSymbols families).Nodup) {s : String} {e : Entry κ} :
    (draft families prefixes allowed aliases).registry.findSymbol? s = some e ↔ (s, e) ∈ symbolListing families := by
  rw [findSymbol?, symbols_draft h]
  exact ⟨mem_of_find?, find?_of_mem (by rwa [map_fst_symbolListing])⟩

theorem familyOf?_draft (h : (families.map UnitFamily.dimension).Nodup) {f : UnitFamily κ} (hf : f ∈ families) :
    (draft families prefixes allowed aliases).registry.familyOf? f.dimension = some f := by
  have hkeys : ((families.map fun f => (f.dimension, f)).map Prod.fst).Nodup := by
    rw [map_fst_dimensions]
    exact h
  rw [familyOf?, holds_draft.dimensions, foldl_enter_of_fresh (fresh_empty_iff.2 hkeys), List.nil_append]
  exact find?_of_mem hkeys (List.mem_map_of_mem hf)

theorem familyOf?_folded (h : (families.map UnitFamily.dimension).Nodup) {f : UnitFamily κ} (hf : f ∈ families) :
    (folded families prefixes allowed aliases).familyOf? f.dimension = some f := familyOf?_draft h hf

theorem mem_unitSymbols {s : String} : s ∈ unitSymbols families ↔ ∃ e, (s, e) ∈ symbolListing families := by
  rw [← map_fst_symbolListing, List.mem_map]
  exact ⟨fun ⟨x, hx, hs⟩ => ⟨x.2, hs ▸ hx⟩, fun ⟨e, he⟩ => ⟨(s, e), he, rfl⟩⟩

section

variable [Numeric κ]

theorem readsPrefixed_eq_none_iff {r : Registry κ} {p : SiPrefix} {s : String} :
    r.readsPrefixed p s = none ↔
      ∀ rest, p.stripSymbol s.toList = some rest → prefixable? (r.findSymbol? (String.ofList rest)) = none := by
  unfold readsPrefixed findSymbol? prefixable?
  cases p.stripSymbol s.toList with
  | none => simp
  | some rest =>
    cases hfind : r.symbols.find? (String.ofList rest) with
    | none => simp [hfind]
    | some e => cases hprefixable : e.isPrefixable <;> simp [hfind, hprefixable]

/-- No symbol of the registry reads as a prefixed one. -/
theorem prefixedReadings_eq_nil_iff {r : Registry κ} :
    r.prefixedReadings = [] ↔
      ∀ s ∈ r.symbols, s.1 ∉ r.allowed → ∀ p ∈ r.prefixes, r.readsPrefixed p s.1 = none := by
  unfold prefixedReadings
  simp only [List.flatMap_eq_nil_iff, List.mem_filter, List.filterMap_eq_nil_iff, Option.map_eq_none_iff,
    Bool.not_eq_true', List.contains_eq_mem, decide_eq_false_iff_not, and_imp]

/-- the conflicts that a catalog may have -/
inductive InConflict (families : List (UnitFamily κ)) (prefixes : List SiPrefix) (allowed : List String)
    (aliases : List (String × String)) : Prop
  /-- two families share a dimension -/
  | dimension (h : ¬ (families.map UnitFamily.dimension).Nodup)
  /-- a symbol is used twice -/
  | symbol (h : ¬ (unitSymbols families).Nodup)
  /-- an alias leads neither to a family nor to an alias before it -/
  | leadsNowhere {before after : List (String × String)} {entry : String × String}
      (hentry : aliases = before ++ entry :: after) (hfamilies : ¬ NamesFamily families (Spelling.familyName entry.2))
      (hearlier : ∀ earlier ∈ before, Spelling.familyName entry.2 ≠ Spelling.familyName earlier.1)
  /-- a symbol that is not allowed to reads as a prefix before the symbol of a prefixable unit -/
  | reading {s : String} (hs : s ∈ unitSymbols families) (hallowed : s ∉ allowed) {p : SiPrefix} (hp : p ∈ prefixes)
      {rest : List Char} (hrest : p.stripSymbol s.toList = some rest) {f : UnitFamily κ} (hf : f ∈ families)
      {u : UnitDef κ} (hu : u ∈ f.units) (hprefixable : f.isPrefixable u = true) (hsymbol : String.ofList rest ∈ u.symbols)

theorem prefixedReadings_draft (h : (unitSymbols families).Nodup) :
    (draft families prefixes allowed aliases).registry.prefixedReadings = [] ↔
      ∀ s ∈ unitSymbols families, s ∉ allowed → ∀ p ∈ prefixes, ∀ rest, p.stripSymbol s.toList = some rest →
        ∀ e, (String.ofList rest, e) ∈ symbolListing families → e.isPrefixable = false := by
  rw [prefixedReadings_eq_nil_iff, symbols_draft h, allowed_draft, holds_draft.prefixes]
  simp only [readsPrefixed_eq_none_iff, prefixable?, Option.filter_eq_none_iff, findSymbol?_draft h, mem_unitSymbols,
    Bool.not_eq_true]
  constructor
  · rintro hall s ⟨e, he⟩
    exact hall (s, e) he
  · intro hall x hx
    exact hall x.1 ⟨x.2, hx⟩

/-- the conflicts that are noted on the way -/
theorem inConflict_of_conflicts (h : (draft families prefixes allowed aliases).conflicts ≠ []) :
    InConflict families prefixes allowed aliases := by
  rw [ne_eq, conflicts_draft_eq_nil_iff] at h
  by_cases hdimensions : (families.map UnitFamily.dimension).Nodup
  · by_cases hsymbols : (unitSymbols families).Nodup
    · have hlead : ¬ Draft.LeadOn (NamesFamily families) aliases := fun hlead => h ⟨hdimensions, hsymbols, hlead⟩
      unfold Draft.LeadOn at hlead
      push Not at hlead
      obtain ⟨before, entry, after, hentry, hfamilies, hearlier⟩ := hlead
      exact .leadsNowhere hentry hfamilies hearlier
    · exact .symbol hsymbols
  · exact .dimension hdimensions

/-- the conflicts that are met when the pass is over -/
theorem inConflict_of_readings (hsymbols : (unitSymbols families).Nodup)
    (h : (draft families prefixes allowed aliases).registry.prefixedReadings ≠ []) :
    InConflict families prefixes allowed aliases := by
  rw [ne_eq, prefixedReadings_draft hsymbols] at h
  push Not at h
  obtain ⟨s, hs, hallowed, p, hp, rest, hrest, e, he, hprefixable⟩ := h
  obtain ⟨hf, hu, hsymbol⟩ := mem_symbolListing.1 he
  exact .reading hs hallowed hp hrest hf hu (Bool.not_eq_false _ ▸ hprefixable) hsymbol

theorem InConflict.noted (h : InConflict families prefixes allowed aliases) :
    (draft families prefixes allowed aliases).conflicts ≠ [] ∨
      (draft families prefixes allowed aliases).registry.prefixedReadings ≠ [] := by
  by_cases hclean : (draft families prefixes allowed aliases).conflicts = []
  · obtain ⟨hdimensions, hsymbols, hlead⟩ := conflicts_draft_eq_nil_iff.1 hclean
    cases h with
    | dimension h => exact absurd hdimensions h
    | symbol h => exact absurd hsymbols h
    | leadsNowhere hentry hfamilies hearlier =>
      rcases hlead _ _ _ hentry with hnames | ⟨earlier, hmem, hk⟩
      · exact absurd hnames hfamilies
      · exact absurd hk (hearlier earlier hmem)
    | @reading s hs hallowed p hp rest hrest f hf u hu hprefixable hsymbol =>
      refine .inr fun hreadings => ?_
      have hnot := (prefixedReadings_draft hsymbols).1 hreadings s hs hallowed p hp rest hrest ⟨u, f⟩
        (mem_symbolListing.2 ⟨hf, hu, hsymbol⟩)
      exact absurd hprefixable (Bool.eq_false_iff.1 hnot)
  · exact .inl hclean

/-- a registry is accepted exactly when its catalog has no conflict -/
theorem build_eq_ok_iff_not_inConflict {r : Registry κ} : build families prefixes allowed aliases = .ok r ↔
    r = (draft families prefixes allowed aliases).registry ∧ ¬ InConflict families prefixes allowed aliases := by
  rw [build_eq_ok_iff]
  refine and_congr_right fun hr => ⟨fun ⟨hconflicts, hreadings⟩ h => ?_, fun h => ?_⟩
  · rcases h.noted with h | h
    · exact h hconflicts
    · exact h (hr ▸ hreadings)
  · have hconflicts : (draft families prefixes allowed aliases).conflicts = [] :=
      Classical.byContradiction fun hne => h (inConflict_of_conflicts hne)
    have hsymbols := (conflicts_draft_eq_nil_iff.1 hconflicts).2.1
    exact ⟨hconflicts, Classical.byContradiction fun hne => h (inConflict_of_readings hsymbols (hr ▸ hne))⟩

/-- **Acceptance.** A catalog is refused exactly when it has a conflict. A registry that is accepted finds every unit
under each of its symbols, and every family under its dimension. -/
theorem refused_iff_and_finds (families : List (UnitFamily κ)) (prefixes : List SiPrefix) (allowed : List String)
    (aliases : List (String × String)) :
    ((∃ conflicts, build families prefixes allowed aliases = .error conflicts) ↔
        InConflict families prefixes allowed aliases) ∧
      ∀ r, build families prefixes allowed aliases = .ok r →
        (∀ f ∈ families, ∀ u ∈ f.units, ∀ s ∈ u.symbols, r.find? s = some ⟨u, f⟩) ∧
          ∀ f ∈ families, r.familyOf? f.dimension = some f := by
  constructor
  · have hok (r : Registry κ) : build families prefixes allowed aliases = .ok r ↔
        r = (draft families prefixes allowed aliases).registry ∧ ¬ InConflict families prefixes allowed aliases :=
      build_eq_ok_iff_not_inConflict
    cases hbuild : build families prefixes allowed aliases with
    | error conflicts =>
      refine ⟨fun _ => Classical.byContradiction fun hnone => ?_, fun _ => ⟨conflicts, rfl⟩⟩
      have := (hok _).2 ⟨rfl, hnone⟩
      rw [hbuild] at this
      cases this
    | ok r => exact ⟨nofun, fun h => absurd h ((hok r).1 hbuild).2⟩
  · intro r hr
    obtain ⟨rfl, hnone⟩ := build_eq_ok_iff_not_inConflict.1 hr
    have hdimensions : (families.map UnitFamily.dimension).Nodup := Classical.byContradiction fun h => hnone (.dimension h)
    have hsymbols : (unitSymbols families).Nodup := Classical.byContradiction fun h => hnone (.symbol h)
    refine ⟨fun f hf u hu s hs => ?_, fun f hf => familyOf?_draft hdimensions hf⟩
    exact find?_symbol ((findSymbol?_draft hsymbols).2 (mem_symbolListing.2 ⟨hf, hu, hs⟩))

end

/-! ### A catalog of one unit -/

namespace Sample

def meter : UnitDef Float := ⟨"meter", "m", ["metre"], .one, Numeric.one, Numeric.zero, .metric⟩

def lengths : UnitFamily Float := ⟨"Length", "L", { length := 1 }, [meter]⟩

def kilo : SiPrefix := ⟨"kilo", "k", 3, []⟩

end Sample

open Sample

/-- a meter is found under its second symbol; an alias of a family that is not there is refused -/
theorem refused_iff_and_finds_metre :
    (∃ r, build [lengths] [kilo] [] [("Distance", "Length")] = .ok r ∧ r.find? "metre" = some ⟨meter, lengths⟩) ∧
      ∃ conflicts, build [lengths] [kilo] [] [("Span", "Width")] = .error conflicts := by
  constructor
  · have hbuild : build [lengths] [kilo] [] [("Distance", "Length")] =
        .ok (folded [lengths] [kilo] [] [("Distance", "Length")]) :=
      build_eq_ok_iff.2 ⟨rfl, by decide +kernel, by decide +kernel⟩
    have hfinds := ((refused_iff_and_finds [lengths] [kilo] [] [("Distance", "Length")]).2 _ hbuild).1
    exact ⟨_, hbuild, hfinds lengths List.mem_cons_self meter List.mem_cons_self "metre" (by decide)⟩
  · refine (refused_iff_and_finds [lengths] [kilo] [] [("Span", "Width")]).1.2 ?_
    refine .leadsNowhere (List.nil_append _).symm ?_ nofun
    rintro ⟨f, hf, hname⟩
    obtain rfl := List.mem_singleton.1 hf
    revert hname
    decide +kernel

end Registry

end UnitAlgebra

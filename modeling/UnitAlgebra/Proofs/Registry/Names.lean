/-
Which unit or family a name finds. No conflict is noted between names, so an accepted registry may hold several units, or
several families, whose names are compared as the same. A name that is taken stays with the first unit that has it, in
the singular or the plural; a family takes its name over from all families before it. Nothing else takes part: the symbol
of a family and an alias yield to a name, whether it comes before them or after.

Results:
- `Directory.find?_flatMap`: the first element with a key is found under it.
- `findName?_of_build`: a name finds the first unit that has it.
- `Draft.familyName_addFamily`, `Draft.familyName_kept`: what a family takes over, and what it leaves.
- `findFamily?_of_build`: the name of a family finds the last family that has it.
- `found_by_name_iff`: which units and families are found by their own names.
- `not_found_by_name`: catalogs that are accepted, in which something is not.
-/
import UnitAlgebra.Proofs.Registry.Readings

namespace UnitAlgebra

/-! ## First elements -/

theorem find?_split_iff {α : Type} {passes : α → Bool} {before after : List α} {a : α}
    (hnodup : (before ++ a :: after).Nodup) (ha : passes a = true) :
    (before ++ a :: after).find? passes = some a ↔ ∀ b ∈ before, passes b = false := by
  rw [List.find?_append, List.find?_cons_of_pos ha]
  constructor
  · intro h b hb
    cases hfind : before.find? passes with
    | none => exact Bool.eq_false_iff.2 (List.find?_eq_none.1 hfind b hb)
    | some first =>
      rw [hfind, Option.some_or] at h
      obtain rfl := Option.some.inj h
      exact absurd rfl ((List.nodup_append.1 hnodup).2.2 _ (List.mem_of_find?_eq_some hfind) _ List.mem_cons_self)
  · intro h
    rw [List.find?_eq_none.2 fun b hb => Bool.eq_false_iff.1 (h b hb)]
    rfl

namespace Directory

variable {K α : Type} [DecidableEq K]

theorem find?_append (d d' : Directory K α) (k : K) : find? (d ++ d') k = (find? d k).or (find? d' k) := by
  unfold find?
  rw [List.find?_append]
  cases List.find? (fun e => e.1 = k) d <;> rfl

theorem find?_map_key (a : α) (keys : List K) (k : K) :
    find? (keys.map fun j => (j, a)) k = if k ∈ keys then some a else none := by
  cases hfind : find? (keys.map fun j => (j, a)) k with
  | none =>
    rw [if_neg]
    exact fun hk => find?_eq_none_iff.1 hfind (k, a) (List.mem_map_of_mem hk) rfl
  | some b =>
    obtain ⟨j, hj, heq⟩ := List.mem_map.1 (mem_of_find? hfind)
    cases heq
    rw [if_pos hj]

/-- The first element with a key is found under it. -/
theorem find?_flatMap (l : List α) (keys : α → List K) (k : K) :
    find? (l.flatMap fun a => (keys a).map fun j => (j, a)) k = l.find? fun a => k ∈ keys a := by
  induction l with
  | nil => rfl
  | cons a l ih =>
    rw [List.flatMap_cons, find?_append, ih, find?_map_key]
    by_cases hk : k ∈ keys a
    · simp [hk]
    · simp [hk]

end Directory

/-- the names of a unit, in the singular and the plural, as they are compared -/
def Entry.nameKeys {κ : Type} (e : Entry κ) : List String :=
  [e.unit.name, Spelling.plural e.unit.name].map Spelling.unitName

namespace Registry

open Directory Spelling

variable {κ : Type}

/-! ## Names of units -/

/-- the units of a catalog, in their order -/
def entriesOf (families : List (UnitFamily κ)) : List (Entry κ) :=
  families.flatMap fun f => f.units.map fun u => ⟨u, f⟩

theorem nameListing_eq (families : List (UnitFamily κ)) :
    nameListing families = (entriesOf families).flatMap fun e => e.nameKeys.map fun k => (k, e) := by
  simp only [nameListing, entriesOf, Entry.nameKeys, List.flatMap_assoc, List.flatMap_map, List.map_map]
  rfl

theorem unitSymbols_eq (families : List (UnitFamily κ)) :
    unitSymbols families = (entriesOf families).flatMap fun e => e.unit.symbols := by
  simp only [unitSymbols, entriesOf, List.flatMap_assoc, List.flatMap_map]

theorem nodup_of_symbols {entries : List (Entry κ)} (h : (entries.flatMap fun e => e.unit.symbols).Nodup) :
    entries.Nodup := by
  induction entries with
  | nil => exact List.nodup_nil
  | cons e entries ih =>
    obtain ⟨_, hrest, hapart⟩ := List.nodup_append.1 (List.flatMap_cons ▸ h)
    refine List.nodup_cons.2 ⟨fun he => ?_, ih hrest⟩
    exact hapart _ List.mem_cons_self _ (List.mem_flatMap.2 ⟨e, he, List.mem_cons_self⟩) rfl

/-! ## Names of families -/

namespace Draft

variable {d : Draft κ} {k : String} {g : UnitFamily κ}

theorem familyNames_addFamily (d : Draft κ) (f : UnitFamily κ) : (d.addFamily f).registry.familyNames =
    (d.registry.familyNames.put (familyName f.name) f).addNew (familyName f.symbol) f := by
  rw [(keeps_units d f).familyNames, ← (keeps_addDimension d f).familyNames]
  rfl

theorem find?_addNew_of_some {d : Directory String (UnitFamily κ)} (h : d.find? k = some g) (j : String)
    (f : UnitFamily κ) : (d.addNew j f).find? k = some g := by
  rw [find?_addNew]
  split
  · next hk => rw [← hk, h]; rfl
  · exact h

theorem familyName_addFamily (d : Draft κ) (f : UnitFamily κ) :
    (d.addFamily f).registry.familyNames.find? (familyName f.name) = some f := by
  rw [familyNames_addFamily]
  exact find?_addNew_of_some (by rw [find?_put, if_pos rfl]) _ _

theorem familyName_kept (h : d.registry.familyNames.find? k = some g) {f : UnitFamily κ} (hk : familyName f.name ≠ k) :
    (d.addFamily f).registry.familyNames.find? k = some g := by
  rw [familyNames_addFamily]
  exact find?_addNew_of_some (by rw [find?_put, if_neg (Ne.symm hk), h]) _ _

theorem familyName_addFamilies (h : d.registry.familyNames.find? k = some g) {fs : List (UnitFamily κ)}
    (hk : ∀ f ∈ fs, familyName f.name ≠ k) : (fs.foldl addFamily d).registry.familyNames.find? k = some g := by
  induction fs generalizing d with
  | nil => exact h
  | cons f fs ih =>
    exact ih (familyName_kept h (hk f List.mem_cons_self)) fun f' hf' => hk f' (List.mem_cons_of_mem f hf')

theorem familyName_addAlias (h : d.registry.familyNames.find? k = some g) (entry : String × String) :
    (d.addAlias entry).registry.familyNames.find? k = some g := by
  unfold addAlias
  split
  · exact h
  · exact find?_addNew_of_some h _ _

theorem familyName_addAliases (h : d.registry.familyNames.find? k = some g) (aliases : List (String × String)) :
    (aliases.foldl addAlias d).registry.familyNames.find? k = some g := by
  induction aliases generalizing d with
  | nil => exact h
  | cons entry aliases ih => exact ih (familyName_addAlias h entry)

end Draft

/-! ## What names find -/

variable [Numeric κ] {families : List (UnitFamily κ)} {prefixes : List SiPrefix} {allowed : List String}
  {aliases : List (String × String)} {r : Registry κ} (hbuild : build families prefixes allowed aliases = .ok r)

include hbuild

theorem units_of_build : r.units = entriesOf families := by rw [units, families_of_build hbuild, entriesOf]

theorem nodup_units : r.units.Nodup := by
  rw [units_of_build hbuild]
  have hnone := (build_eq_ok_iff_not_inConflict.1 hbuild).2
  have hsymbols : (unitSymbols families).Nodup := Classical.byContradiction fun h => hnone (.symbol h)
  exact nodup_of_symbols (unitSymbols_eq families ▸ hsymbols)

theorem nodup_families : r.families.Nodup := by
  rw [families_of_build hbuild]
  have hnone := (build_eq_ok_iff_not_inConflict.1 hbuild).2
  exact List.Nodup.of_map _ (Classical.byContradiction fun h => hnone (.dimension h))

/-- A name finds the first unit that has it. -/
theorem findName?_of_build (n : String) : r.findName? n = r.units.find? fun e => unitName n ∈ e.nameKeys := by
  rw [units_of_build hbuild, ← find?_flatMap, ← nameListing_eq, (build_eq_ok_iff.1 hbuild).1]
  exact (builtFrom_folded families prefixes allowed aliases).names n

theorem findFamily?_last {before after : List (UnitFamily κ)} {f : UnitFamily κ} (hsplit : families = before ++ f :: after)
    (hlast : ∀ g ∈ after, familyName g.name ≠ familyName f.name) : r.findFamily? f.name = some f := by
  obtain ⟨rfl, _⟩ := build_eq_ok_iff.1 hbuild
  rw [findFamily?, draft, hsplit, List.foldl_append, List.foldl_cons]
  exact Draft.familyName_addAliases (Draft.familyName_addFamilies (Draft.familyName_addFamily _ f) hlast) aliases

/-- The name of a family finds the last family that has it. -/
theorem findFamily?_of_build {f : UnitFamily κ} (hf : f ∈ r.families) :
    r.findFamily? f.name = r.families.reverse.find? fun g => familyName g.name = familyName f.name := by
  cases hfind : r.families.reverse.find? fun g => familyName g.name = familyName f.name with
  | none => exact absurd (decide_eq_true rfl) (List.find?_eq_none.1 hfind f (List.mem_reverse.2 hf))
  | some g =>
    obtain ⟨hg, before, after, hsplit, hbefore⟩ := List.find?_eq_some_iff_append.1 hfind
    have hname : familyName g.name = familyName f.name := of_decide_eq_true hg
    have hfamilies : families = after.reverse ++ g :: before.reverse := by
      rw [← families_of_build hbuild, ← List.reverse_inj, hsplit]
      simp
    have hlast : ∀ o ∈ before.reverse, familyName o.name ≠ familyName g.name := fun o ho heq => by
      have := hbefore o (List.mem_reverse.1 ho)
      rw [decide_eq_true (heq.trans hname)] at this
      cases this
    have hfound := findFamily?_last hbuild hfamilies hlast
    rwa [findFamily?, hname] at hfound

/-- a unit is found by one of its names exactly if no unit before it has the name -/
theorem findName?_eq_some_iff {before after : List (Entry κ)} {e : Entry κ} (hsplit : r.units = before ++ e :: after)
    {n : String} (hn : n ∈ [e.unit.name, plural e.unit.name]) :
    r.findName? n = some e ↔ ∀ o ∈ before, unitName n ∉ o.nameKeys := by
  have hnodup : (before ++ e :: after).Nodup := hsplit ▸ nodup_units hbuild
  rw [findName?_of_build hbuild, hsplit, find?_split_iff hnodup (decide_eq_true (List.mem_map_of_mem hn))]
  simp only [decide_eq_false_iff_not]

/-- a family is found by its name exactly if no family after it has the name -/
theorem findFamily?_eq_some_iff {before after : List (UnitFamily κ)} {f : UnitFamily κ}
    (hsplit : r.families = before ++ f :: after) :
    r.findFamily? f.name = some f ↔ ∀ g ∈ after, familyName g.name ≠ familyName f.name := by
  have hreverse : r.families.reverse = after.reverse ++ f :: before.reverse := by
    rw [hsplit, List.reverse_append, List.reverse_cons, List.append_assoc, List.singleton_append]
  have hnodup : (after.reverse ++ f :: before.reverse).Nodup := hreverse ▸ List.nodup_reverse.2 (nodup_families hbuild)
  rw [findFamily?_of_build hbuild (hsplit ▸ List.mem_append_right _ List.mem_cons_self), hreverse,
    find?_split_iff hnodup (decide_eq_true rfl)]
  simp only [List.mem_reverse, decide_eq_false_iff_not, ne_eq]

theorem findName?_of_own (hown : ∀ e ∈ r.units, ∀ o ∈ r.units, e ≠ o → ∀ k ∈ e.nameKeys, k ∉ o.nameKeys)
    {e : Entry κ} (he : e ∈ r.units) {n : String} (hn : n ∈ [e.unit.name, plural e.unit.name]) :
    r.findName? n = some e := by
  obtain ⟨before, after, hsplit⟩ := List.append_of_mem he
  have hnodup : (before ++ e :: after).Nodup := hsplit ▸ nodup_units hbuild
  refine (findName?_eq_some_iff hbuild hsplit hn).2 fun o ho => hown e he o ?_ ?_ _ (List.mem_map_of_mem hn)
  · exact hsplit ▸ List.mem_append_left _ ho
  · exact ((List.nodup_append.1 hnodup).2.2 o ho e List.mem_cons_self).symm

theorem findFamily?_of_own (hown : ∀ f ∈ r.families, ∀ g ∈ r.families, f ≠ g → familyName g.name ≠ familyName f.name)
    {f : UnitFamily κ} (hf : f ∈ r.families) : r.findFamily? f.name = some f := by
  obtain ⟨before, after, hsplit⟩ := List.append_of_mem hf
  have hnodup : (before ++ f :: after).Nodup := hsplit ▸ nodup_families hbuild
  refine (findFamily?_eq_some_iff hbuild hsplit).2 fun g hg => hown f hf g ?_ ?_
  · exact hsplit ▸ List.mem_append_right _ (List.mem_cons_of_mem f hg)
  · rintro rfl
    exact (List.nodup_cons.1 (List.nodup_append.1 hnodup).2.1).1 hg

/-- **Names find the first unit and the last family.** A unit is found by its name, or by its plural, exactly if no unit
listed before it has a name that is compared as the same; a family is found by its name exactly if no family listed
after it has. So all are found, in any order, where units and families have names of their own. -/
theorem found_by_name_iff :
    (∀ before e after, r.units = before ++ e :: after → ∀ n ∈ [e.unit.name, plural e.unit.name],
        (r.findName? n = some e ↔ ∀ o ∈ before, unitName n ∉ o.nameKeys)) ∧
      (∀ before f after, r.families = before ++ f :: after →
        (r.findFamily? f.name = some f ↔ ∀ g ∈ after, familyName g.name ≠ familyName f.name)) ∧
        ((∀ e ∈ r.units, ∀ o ∈ r.units, e ≠ o → ∀ k ∈ e.nameKeys, k ∉ o.nameKeys) →
          ∀ e ∈ r.units, ∀ n ∈ [e.unit.name, plural e.unit.name], r.findName? n = some e) ∧
          ((∀ f ∈ r.families, ∀ g ∈ r.families, f ≠ g → familyName g.name ≠ familyName f.name) →
            ∀ f ∈ r.families, r.findFamily? f.name = some f) :=
  ⟨fun _ _ _ hsplit _ hn => findName?_eq_some_iff hbuild hsplit hn,
    fun _ _ _ hsplit => findFamily?_eq_some_iff hbuild hsplit,
    fun hown _ he _ hn => findName?_of_own hbuild hown he hn, fun hown _ hf => findFamily?_of_own hbuild hown hf⟩

omit hbuild

/-! ### Names that are taken -/

namespace Sample

/-- a unit of time that is stored as it is -/
def timed (name symbol : String) : UnitDef Float := ⟨name, symbol, [], .one, Numeric.one, Numeric.zero, .metric⟩

theorem unitName_second : unitName "Second" = unitName "second" := calc
  unitName "Second" = "second" := by decide +kernel
  _ = unitName "second" := by decide +kernel

end Sample

open Sample

/-- the first of two seconds is found, and the second is not -/
theorem found_by_name_second :
    ∃ r, build [lengths, times "s" [timed "Second" "sec"]] [] [] [] = .ok r ∧
      r.findName? "Seconds" = some ⟨timed "second" "s", times "s" [timed "Second" "sec"]⟩ ∧
        r.findName? "Second" ≠ some ⟨timed "Second" "sec", times "s" [timed "Second" "sec"]⟩ ∧
          r.findFamily? "Length" = some lengths := by
  let f := times "s" [timed "Second" "sec"]
  let r := folded [lengths, f] [] [] []
  have hbuild : build [lengths, f] [] [] [] = .ok r := build_eq_ok_iff.2 ⟨rfl, by decide +kernel, by decide +kernel⟩
  have hunits : r.units = [⟨meter, lengths⟩, ⟨timed "second" "s", f⟩, ⟨timed "Second" "sec", f⟩] := by
    rw [units_of_build hbuild]
    rfl
  obtain ⟨hname, hfamily, _, _⟩ := found_by_name_iff hbuild
  have hkey : unitName "Seconds" = unitName "seconds" := calc
    unitName "Seconds" = "seconds" := by decide +kernel
    _ = unitName "seconds" := by decide +kernel
  refine ⟨r, hbuild, ?_, ?_, ?_⟩
  · rw [findName?, hkey]
    exact (hname [⟨meter, lengths⟩] _ _ hunits "seconds" (by decide +kernel)).2 (by decide +kernel)
  · rw [ne_eq, hname [⟨meter, lengths⟩, ⟨timed "second" "s", f⟩] _ [] hunits "Second" List.mem_cons_self]
    exact fun hfree => hfree ⟨timed "second" "s", f⟩ (List.mem_cons_of_mem _ List.mem_cons_self)
      (List.mem_cons.2 (.inl unitName_second))
  · exact (hfamily [] lengths [f] (families_of_build hbuild)).2 (by decide +kernel)

/-- every unit is found by its names, and every family by its name -/
def Unshadowed (families : List (UnitFamily κ)) (prefixes : List SiPrefix) (allowed : List String)
    (aliases : List (String × String)) : Prop :=
  ∀ r, build families prefixes allowed aliases = .ok r →
    (∀ e ∈ r.units, ∀ n ∈ [e.unit.name, plural e.unit.name], r.findName? n = some e) ∧
      ∀ f ∈ r.families, r.findFamily? f.name = some f

/-- a catalog without conflicts, in which a name of some unit is taken by one before it -/
theorem not_unshadowed_of_unit {families : List (UnitFamily κ)}
    (hclear : (draft families [] [] []).conflicts = [] ∧ (folded families [] [] []).prefixedReadings = [])
    (before : List (Entry κ)) (o e : Entry κ) (after : List (Entry κ)) (hsplit : entriesOf families = before ++ e :: after)
    {n : String} (hn : n ∈ [e.unit.name, plural e.unit.name]) (ho : o ∈ before) (htaken : unitName n ∈ o.nameKeys) :
    ¬ Unshadowed families [] [] [] := by
  intro h
  have hbuild : build families [] [] [] = .ok (folded families [] [] []) := build_eq_ok_iff.2 ⟨rfl, hclear⟩
  have hunits : (folded families [] [] []).units = before ++ e :: after := (units_of_build hbuild).trans hsplit
  have hfound := (h _ hbuild).1 e (hunits ▸ List.mem_append_right _ List.mem_cons_self) n hn
  exact (findName?_eq_some_iff hbuild hunits hn).1 hfound o ho htaken

/-- a catalog without conflicts, in which the name of some family is taken by one after it -/
theorem not_unshadowed_of_family {families : List (UnitFamily κ)}
    (hclear : (draft families [] [] []).conflicts = [] ∧ (folded families [] [] []).prefixedReadings = [])
    (before : List (UnitFamily κ)) (f g : UnitFamily κ) (after : List (UnitFamily κ))
    (hsplit : families = before ++ f :: after) (hg : g ∈ after) (htaken : familyName g.name = familyName f.name) :
    ¬ Unshadowed families [] [] [] := by
  intro h
  have hbuild : build families [] [] [] = .ok (folded families [] [] []) := build_eq_ok_iff.2 ⟨rfl, hclear⟩
  have hfamilies := (families_of_build hbuild).trans hsplit
  have hfound := (h _ hbuild).2 f (hfamilies ▸ List.mem_append_right _ List.mem_cons_self)
  exact (findFamily?_eq_some_iff hbuild hfamilies).1 hfound g hg htaken

/-- **Names are shadowed.** A catalog is accepted in which a unit has the name of one before it, or its plural is the name
of one before it, or a family has the name of one after it. -/
theorem accepted_not_unshadowed :
    ¬ Unshadowed [times "s" [timed "Second" "sec"]] [] [] [] ∧
      ¬ Unshadowed [times "s" [timed "ticks" "ts", timed "tick" "t"]] [] [] [] ∧
        ¬ Unshadowed [lengths, ⟨"length", "l", { time := 1 }, []⟩] [] [] [] := by
  refine ⟨?_, ?_, ?_⟩
  · let f := times "s" [timed "Second" "sec"]
    exact not_unshadowed_of_unit (by decide +kernel) [⟨timed "second" "s", f⟩] ⟨timed "second" "s", f⟩
      ⟨timed "Second" "sec", f⟩ [] rfl List.mem_cons_self List.mem_cons_self
      (List.mem_cons.2 (.inl unitName_second))
  · let f := times "s" [timed "ticks" "ts", timed "tick" "t"]
    exact not_unshadowed_of_unit (n := "ticks") (by decide +kernel) [⟨timed "second" "s", f⟩, ⟨timed "ticks" "ts", f⟩]
      ⟨timed "ticks" "ts", f⟩ ⟨timed "tick" "t", f⟩ [] rfl (by decide +kernel)
      (List.mem_cons_of_mem _ List.mem_cons_self) (List.mem_cons.2 (.inl rfl))
  · have hname : familyName "length" = familyName "Length" := calc
      familyName "length" = "length" := by decide +kernel
      _ = familyName "Length" := by decide +kernel
    exact not_unshadowed_of_family (by decide +kernel) [] lengths ⟨"length", "l", { time := 1 }, []⟩
      [⟨"length", "l", { time := 1 }, []⟩] rfl List.mem_cons_self hname

end Registry

end UnitAlgebra

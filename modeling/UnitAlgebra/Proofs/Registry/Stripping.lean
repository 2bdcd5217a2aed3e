/-
What is left behind a prefix. The unit behind a prefix is looked for once, and its prefix is then taken off once more to
tell what was left: by the symbol of the prefix if that leaves any symbol, and else by its name. The unit itself has to
take prefixes, but the symbol that is left the second time does not. So a text that is split by names can leave the symbol
of another unit, if that takes no prefix; in all other cases what is left is a symbol or a name of the unit.

Results:
- `Leaves`, `splitBy_eq_some_iff`: what a prefix leaves of a text that it splits.
- `stripAnyPrefix_of_leaves`, `stripAnyPrefix_of_misled`: what is told to be left.
- `strips_as_found`: a prefix is told exactly where one is found, and what is left of the text is told by the unit.
- `accepted_not_in_agreement`: a registry that is accepted, in which another symbol is left.
-/
import UnitAlgebra.Proofs.Registry.Names

namespace UnitAlgebra.Registry

open Spelling

variable {κ : Type} [Numeric κ] {r : Registry κ} {p : SiPrefix} {e : Entry κ} {text rest : String}

/-! ## What a prefix leaves -/

/-- what a prefix leaves of a text that it splits -/
inductive Leaves (r : Registry κ) (p : SiPrefix) (text : String) (e : Entry κ) (rest : String) : Prop
  /-- a symbol of the unit -/
  | symbol (hstrip : p.stripSymbol text.toList = some rest.toList) (hfind : r.findSymbol? rest = some e)
  /-- a name of the unit, if no symbol of a unit that takes prefixes is left -/
  | name (hsymbol : ¬ SplitBySymbol r p text) (hstrip : p.stripName text.toList = .ok (some rest.toList))
      (hfind : r.findName? rest = some e)

/-- the symbol of the prefix leaves the symbol of a unit that takes no prefixes -/
def Misled (r : Registry κ) (p : SiPrefix) (text rest : String) : Prop :=
  p.stripSymbol text.toList = some rest.toList ∧ ∃ o, r.findSymbol? rest = some o ∧ o.isPrefixable = false

/-- a prefix splits a text exactly where it leaves a unit that takes prefixes -/
theorem splitBy_eq_some_iff :
    r.splitBy text.toList p = .ok (some e) ↔ e.isPrefixable = true ∧ ∃ rest, Leaves r p text e rest := by
  constructor
  · intro h
    refine ⟨splitBy_prefixable h, ?_⟩
    by_cases hsymbol : SplitBySymbol r p text
    · obtain ⟨rest, o, hstrip, hfind, hp⟩ := hsymbol
      rw [splitBy_of_symbol hstrip hfind hp] at h
      cases h
      exact ⟨String.ofList rest, .symbol (by rw [String.toList_ofList, hstrip]) hfind⟩
    · rw [splitBy, symbolSplit_eq_none hsymbol] at h
      cases hstrip : p.stripName text.toList with
      | error fault =>
        rw [hstrip] at h
        cases h
      | ok remainder =>
        rw [hstrip] at h
        obtain ⟨rest, rfl, hfind⟩ := Option.bind_eq_some_iff.1 (Except.ok.inj h)
        exact ⟨String.ofList rest, .name hsymbol (by rw [String.toList_ofList, hstrip]) (prefixable?_eq_some_iff.1 hfind).1⟩
  · rintro ⟨hp, rest, hleaves⟩
    cases hleaves with
    | symbol hstrip hfind => exact splitBy_of_symbol hstrip (by rwa [String.ofList_toList]) hp
    | name hsymbol hstrip hfind => exact splitBy_of_name hsymbol hstrip (by rwa [String.ofList_toList]) hp

/-! ## What is told to be left -/

theorem stripAnyPrefix_of_found (h : r.findPrefixed? text = .ok (some (p, e))) :
    r.stripAnyPrefix text = match (p.stripSymbol text.toList).map String.ofList with
      | some s => if (r.findSymbol? s).isSome then .ok (some (p, some s)) else stripAnyPrefix.byName text p
      | none => stripAnyPrefix.byName text p := by
  rw [stripAnyPrefix, h]
  rfl

theorem byName_of_strip (hstrip : p.stripName text.toList = .ok (some rest.toList)) :
    stripAnyPrefix.byName text p = .ok (some (p, some rest)) := by
  rw [stripAnyPrefix.byName, hstrip]
  exact congrArg (fun s => Except.ok (some (p, some s))) String.ofList_toList

theorem stripAnyPrefix_of_symbol (h : r.findPrefixed? text = .ok (some (p, e)))
    (hstrip : p.stripSymbol text.toList = some rest.toList) {o : Entry κ} (hfind : r.findSymbol? rest = some o) :
    r.stripAnyPrefix text = .ok (some (p, some rest)) := by
  simp only [stripAnyPrefix_of_found h, hstrip, Option.map_some, String.ofList_toList, hfind, Option.isSome_some, if_true]

/-- What is left is told, unless another symbol is left. -/
theorem stripAnyPrefix_of_leaves (h : r.findPrefixed? text = .ok (some (p, e))) (hleaves : Leaves r p text e rest)
    (hmisled : ∀ other, ¬ Misled r p text other) : r.stripAnyPrefix text = .ok (some (p, some rest)) := by
  cases hleaves with
  | symbol hstrip hfind => exact stripAnyPrefix_of_symbol h hstrip hfind
  | name hsymbol hstrip hfind =>
    rw [stripAnyPrefix_of_found h]
    cases hleft : p.stripSymbol text.toList with
    | none => exact byName_of_strip hstrip
    | some left =>
      have hnone : r.findSymbol? (String.ofList left) = none := by
        refine Option.eq_none_iff_forall_ne_some.2 fun o ho => ?_
        cases hp : o.isPrefixable with
        | true => exact hsymbol ⟨left, o, hleft, ho, hp⟩
        | false => exact hmisled (String.ofList left) ⟨by rw [hleft, String.toList_ofList], o, ho, hp⟩
      simp only [Option.map_some, hnone, Option.isSome_none, Bool.false_eq_true, if_false]
      exact byName_of_strip hstrip

/-- Another symbol that is left is told. -/
theorem stripAnyPrefix_of_misled (h : r.findPrefixed? text = .ok (some (p, e))) (hmisled : Misled r p text rest) :
    r.stripAnyPrefix text = .ok (some (p, some rest)) := by
  obtain ⟨hstrip, o, hfind, _⟩ := hmisled
  exact stripAnyPrefix_of_symbol h hstrip hfind

theorem stripAnyPrefix_of_none (h : r.findPrefixed? text = .ok none) : r.stripAnyPrefix text = .ok none := by
  rw [stripAnyPrefix, h]
  rfl

theorem stripAnyPrefix_of_error {fault : Fault} (h : r.findPrefixed? text = .error fault) :
    r.stripAnyPrefix text = .error fault := by
  rw [stripAnyPrefix, h]
  rfl

/-- a prefix is told exactly where one is found -/
theorem stripAnyPrefix_cases (r : Registry κ) (text : String) :
    (∃ fault, r.findPrefixed? text = .error fault ∧ r.stripAnyPrefix text = .error fault) ∨
      (r.findPrefixed? text = .ok none ∧ r.stripAnyPrefix text = .ok none) ∨
        ∃ p e rest, r.findPrefixed? text = .ok (some (p, e)) ∧ r.stripAnyPrefix text = .ok (some (p, some rest)) ∧
          (Misled r p text rest ∨ (∀ other, ¬ Misled r p text other) ∧ Leaves r p text e rest) := by
  cases hfind : r.findPrefixed? text with
  | error fault => exact .inl ⟨fault, rfl, stripAnyPrefix_of_error hfind⟩
  | ok found =>
    cases found with
    | none => exact .inr (.inl ⟨rfl, stripAnyPrefix_of_none hfind⟩)
    | some pair =>
      obtain ⟨p, e⟩ := pair
      obtain ⟨_, rest, hleaves⟩ := splitBy_eq_some_iff.1 (exists_of_splitByFirst hfind).2
      by_cases hmisled : ∃ other, Misled r p text other
      · obtain ⟨other, hother⟩ := hmisled
        exact .inr (.inr ⟨p, e, other, rfl, stripAnyPrefix_of_misled hfind hother, .inl hother⟩)
      · have hnone : ∀ other, ¬ Misled r p text other := fun other hother => hmisled ⟨other, hother⟩
        exact .inr (.inr ⟨p, e, rest, rfl, stripAnyPrefix_of_leaves hfind hleaves hnone, .inr ⟨hnone, hleaves⟩⟩)

/-! ## In registries that are accepted -/

section

variable {families : List (UnitFamily κ)} {prefixes : List SiPrefix} {allowed : List String}
  {aliases : List (String × String)} (hbuild : build families prefixes allowed aliases = .ok r)

include hbuild

theorem mem_nameKeys_of_findName? {n : String} (h : r.findName? n = some e) : e ∈ r.units ∧ unitName n ∈ e.nameKeys := by
  rw [findName?_of_build hbuild] at h
  have hkey := List.find?_some h
  exact ⟨List.mem_of_find?_eq_some h, of_decide_eq_true hkey⟩

theorem Leaves.spells (h : Leaves r p text e rest) :
    e ∈ r.units ∧ (rest ∈ e.unit.symbols ∨ unitName rest ∈ e.nameKeys) := by
  cases h with
  | symbol hstrip hfind =>
    obtain ⟨he, hrest⟩ := (findSymbol?_of_build hbuild).1 hfind
    exact ⟨he, .inl hrest⟩
  | name hsymbol hstrip hfind =>
    obtain ⟨he, hrest⟩ := mem_nameKeys_of_findName? hbuild hfind
    exact ⟨he, .inr hrest⟩

/-- **A prefix is told where one is found.** The two fail alike, and find nothing alike. Where a prefix is found before a
unit, the unit takes prefixes, and the same prefix is told with the symbol that misleads it, if there is one, and else
with a symbol or a name of the unit. -/
theorem strips_as_found (text : String) :
    (∀ fault, r.stripAnyPrefix text = .error fault ↔ r.findPrefixed? text = .error fault) ∧
      (r.stripAnyPrefix text = .ok none ↔ r.findPrefixed? text = .ok none) ∧
        ∀ p e, r.findPrefixed? text = .ok (some (p, e)) → p ∈ r.prefixes ∧ e ∈ r.units ∧ e.isPrefixable = true ∧
          ∃ rest, r.stripAnyPrefix text = .ok (some (p, some rest)) ∧
            (Misled r p text rest ∨
              (∀ other, ¬ Misled r p text other) ∧ (rest ∈ e.unit.symbols ∨ unitName rest ∈ e.nameKeys)) := by
  rcases stripAnyPrefix_cases r text with ⟨fault, hfind, hstrip⟩ | ⟨hfind, hstrip⟩ | ⟨p, e, rest, hfind, hstrip, hrest⟩
  · rw [hfind, hstrip]
    refine ⟨fun other => ?_, ⟨nofun, nofun⟩, fun _ _ h => by cases h⟩
    rw [Except.error.injEq, Except.error.injEq]
  · rw [hfind, hstrip]
    exact ⟨fun _ => ⟨nofun, nofun⟩, ⟨fun _ => rfl, fun _ => rfl⟩, fun _ _ h => by cases h⟩
  · obtain ⟨hp, hsplit⟩ := exists_of_splitByFirst hfind
    obtain ⟨hprefixable, left, hleaves⟩ := splitBy_eq_some_iff.1 hsplit
    rw [hfind, hstrip]
    refine ⟨fun _ => ⟨nofun, nofun⟩, ⟨nofun, nofun⟩, fun p' e' h => ?_⟩
    cases h
    refine ⟨hp, (hleaves.spells hbuild).1, hprefixable, rest, rfl, hrest.imp_right fun ⟨hnone, hleft⟩ => ?_⟩
    exact ⟨hnone, (hleft.spells hbuild).2⟩

end

/-! ### A symbol that misleads -/

open Sample

theorem eq_found {α : Type} {o : Outcome (Option α)} {a : α} (h : o.toOption.join = some a) : o = .ok (some a) := by
  cases o with
  | error fault => cases h
  | ok found => exact congrArg Except.ok h

/-- kilometers are told by symbols and by names -/
theorem strips_as_found_kilometers :
    ∃ r, build [lengths, times "s" []] [mega, kilo] [] [] = .ok r ∧ ∀ text ∈ ["km", "Kilometers"],
      ∃ p e rest, r.findPrefixed? text = .ok (some (p, e)) ∧ r.stripAnyPrefix text = .ok (some (p, some rest)) ∧
        (rest ∈ e.unit.symbols ∨ unitName rest ∈ e.nameKeys) := by
  let r := folded [lengths, times "s" []] [mega, kilo] [] []
  have hbuild : build [lengths, times "s" []] [mega, kilo] [] [] = .ok r :=
    build_eq_ok_iff.2 ⟨rfl, by decide +kernel, by decide +kernel⟩
  have hsome : ∀ text ∈ ["km", "Kilometers"], (r.findPrefixed? text).toOption.join.isSome = true := by decide +kernel
  have hclear : ∀ text ∈ ["km", "Kilometers"], ∀ p ∈ [mega, kilo], ∀ rest ∈ p.stripSymbol text.toList,
      ∀ o ∈ r.findSymbol? (String.ofList rest), o.isPrefixable = true := by decide +kernel
  refine ⟨r, hbuild, fun text htext => ?_⟩
  obtain ⟨⟨p, e⟩, hfound⟩ := Option.isSome_iff_exists.1 (hsome text htext)
  obtain ⟨hp, _, _, rest, hstrip, hrest⟩ := (strips_as_found hbuild text).2.2 p e (eq_found hfound)
  rw [prefixes_of_build hbuild] at hp
  refine ⟨p, e, rest, eq_found hfound, hstrip, ?_⟩
  rcases hrest with ⟨hleft, o, ho, hnot⟩ | ⟨_, hspells⟩
  · have hprefixable := hclear text htext p hp _ hleft o (by rwa [String.ofList_toList])
    rw [hnot] at hprefixable
    cases hprefixable
  · exact hspells

/-- the prefix that is told is the one that is found, and what is left is a symbol or a name of the unit -/
def InAgreement (r : Registry κ) (text : String) : Prop :=
  (r.stripAnyPrefix text = .ok none ↔ r.findPrefixed? text = .ok none) ∧
    ∀ p rest q e, r.stripAnyPrefix text = .ok (some (p, rest)) → r.findPrefixed? text = .ok (some (q, e)) →
      p = q ∧ ∃ s, rest = some s ∧ (s ∈ e.unit.symbols ∨ unitName s ∈ e.nameKeys)

/-- **Another symbol is told.** A kilometer is split by names, but the letters behind the k are the symbol of a unit. -/
theorem accepted_not_in_agreement :
    ∃ r, build [lengths, times "s" [timed "other" "ilometer"]] [kilo] [] [] = .ok r ∧ ¬ InAgreement r "kilometer" := by
  let r := folded [lengths, times "s" [timed "other" "ilometer"]] [kilo] [] []
  have hbuild : build [lengths, times "s" [timed "other" "ilometer"]] [kilo] [] [] = .ok r :=
    build_eq_ok_iff.2 ⟨rfl, by decide +kernel, by decide +kernel⟩
  refine ⟨r, hbuild, fun h => ?_⟩
  have hspellings : (r.findPrefixed? "kilometer").toOption.join.map (fun x => (x.2.unit.symbols, x.2.nameKeys)) =
      some (["m", "metre"], ["meter", "meters"]) := by decide +kernel
  obtain ⟨⟨q, e⟩, hfound, hunit⟩ := Option.map_eq_some_iff.1 hspellings
  obtain ⟨hsymbols, hkeys⟩ := Prod.mk.injEq .. ▸ hunit
  have hstrip : r.stripAnyPrefix "kilometer" = .ok (some (kilo, some "ilometer")) := eq_found (by decide +kernel)
  obtain ⟨_, s, hs, hspells⟩ := h.2 _ _ _ _ hstrip (eq_found hfound)
  obtain rfl := Option.some.inj hs
  rw [hsymbols, hkeys] at hspells
  revert hspells
  decide +kernel

end UnitAlgebra.Registry

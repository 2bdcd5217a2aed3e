/-
Names in registries of any kind. A registry that is accepted may have other symbols than names are composed of, symbols
that are no names of the grammar, and units that take a prefixed symbol for themselves. Its names parse back where it
understands them: where the symbol that a name consists of is one name that nothing else takes, and where the symbols
that a name is composed of are read as they are meant.

A scale too far from the base unit has no name, though it could be written out, and neither has a mass where the base
unit has no prefix.

Results:
- `evaluates_registered`, `evaluates_prefixed`, `evaluates_composed`: what the three kinds of names evaluate to.
- `unitName_spec`: which names are made, and what they evaluate to.
- `unitName_unsound`: a name that its registry does not know, and two units without a name.
-/
import UnitAlgebra.Proofs.Expression.Names
import UnitAlgebra.Proofs.Naming.RoundTrip
import UnitAlgebra.Proofs.Registry.Transparency

namespace UnitAlgebra.Naming

open Registry (build folded builtFrom_folded build_eq_ok_iff build_eq_ok_iff_not_inConflict findSymbol?_draft find?_symbol
  familyOf?_folded mem_symbolListing allowed_draft holds_draft Spelt Untaken prefixedExponent prefixedScale_spec
  resolve_of_split splitBy_eq_ok_none splitByFirst_eq_none isOne_and_isZero_of_isStorage isStorage_of_isPrefixable)
open Expression Catalog

/-! ## What names evaluate to -/

/-- a text is evaluated to a storage unit alone -/
def Evaluates (r : Registry Float) (text : String) (d : Dimension) (s : Scale) : Prop :=
  ∃ u, evaluateText r false text = .ok u ∧ u.dimension = d ∧ u.scale = s ∧ u.isStorage = true

variable {families : List (UnitFamily Float)} {prefixes : List SiPrefix} {allowed : List String}
  {aliases : List (String × String)} {r : Registry Float} {d : Dimension} {s : Scale} {f : UnitFamily Float}
  {u : UnitDef Float}

theorem isStorage_meaningOf (h : u.isStorage = true) (f : UnitFamily Float) (s : Scale) (text : String) :
    (meaningOf u f s text).isStorage = true := by
  obtain ⟨hone, hzero⟩ := isOne_and_isZero_of_isStorage h
  exact Bool.and_eq_true_iff.2 ⟨hone, hzero⟩

theorem family_of_build (hbuild : build families prefixes allowed aliases = .ok r) (hf : r.familyOf? d = some f) :
    f ∈ families ∧ f.dimension = d := by
  obtain ⟨rfl, -⟩ := build_eq_ok_iff_not_inConflict.1 hbuild
  exact (builtFrom_folded families prefixes allowed aliases).dimensions d f hf

/-- The symbol of a storage unit is evaluated to the unit, if it is one name. -/
theorem evaluates_registered (hbuild : build families prefixes allowed aliases = .ok r) (hf : r.familyOf? d = some f)
    (hu : u ∈ f.units) (hstorage : u.isStorage = true) (hname : IsName u.symbol.toList) :
    Evaluates r u.symbol d u.scale := by
  obtain ⟨hmem, rfl⟩ := family_of_build hbuild hf
  obtain ⟨rfl, hnone⟩ := build_eq_ok_iff_not_inConflict.1 hbuild
  have hnodup : (Registry.unitSymbols families).Nodup := Classical.byContradiction fun h => hnone (.symbol h)
  have hlisted : (u.symbol, ⟨u, f⟩) ∈ Registry.symbolListing families := mem_symbolListing.2 ⟨hmem, hu, List.mem_cons_self⟩
  have hfound : (Registry.draft families prefixes allowed aliases).registry.findSymbol? u.symbol = some ⟨u, f⟩ :=
    (findSymbol?_draft hnodup).2 hlisted
  exact ⟨_, evaluateText_name hname (resolve_of_find? (find?_symbol hfound)), rfl, rfl,
    isStorage_meaningOf hstorage f u.scale u.symbol⟩

theorem spelt_symbols {p : SiPrefix} {e : Entry Float} (hne : e.unit.symbol ≠ "") :
    Spelt r p e (p.symbol ++ e.unit.symbol) := by
  refine .symbols List.mem_cons_self List.mem_cons_self ?_
  obtain ⟨c, cs, hcs⟩ := List.exists_cons_of_ne_nil (mt String.toList_eq_nil_iff.1 hne)
  have hafter : Text.after? p.symbol.toList (p.symbol ++ e.unit.symbol).toList = some (c :: cs) := by
    rw [Text.after?_eq_some_iff, String.toList_append, hcs]
  rw [SiPrefix.stripSymbol, SiPrefix.symbols, List.findSome?_cons, SiPrefix.afterSymbol, hafter, hcs]

/-- A prefixed symbol is evaluated to the base unit in the scale of the prefix, if it is one name that nothing that is
tried before takes. -/
theorem evaluates_prefixed (hbuild : build families prefixes allowed aliases = .ok r) (hf : r.familyOf? d = some f)
    (hu : f.baseUnit? = some u) (hp : f.isPrefixable u = true) {before after : List SiPrefix} {p : SiPrefix}
    (hprefixes : r.prefixes = before ++ p :: after) (hrange : InRange p.exponent)
    (hscale : ∀ b, (s.get b).val = (u.scale.get b).val + p.exponent * decadic b) (hne : u.symbol ≠ "")
    (hname : IsName (p.symbol ++ u.symbol).toList) (hallowed : p.symbol ++ u.symbol ∉ r.allowed)
    (huntaken : Untaken r before (p.symbol ++ u.symbol)) : Evaluates r (p.symbol ++ u.symbol) d s := by
  obtain ⟨hmem, rfl⟩ := family_of_build hbuild hf
  obtain rfl : prefixes = before ++ p :: after := by
    rw [← hprefixes, (build_eq_ok_iff_not_inConflict.1 hbuild).1]
    exact holds_draft.prefixes.symm
  rw [(build_eq_ok_iff_not_inConflict.1 hbuild).1, allowed_draft] at hallowed
  obtain ⟨hfind, hsplit⟩ := (spelt_symbols (r := r) (p := p) (e := ⟨u, f⟩) hne).lookup hbuild hmem
    (List.mem_of_head? hu) hp hallowed huntaken
  have hexponents : ∀ b, prefixedExponent p u.scale b = (s.get b).val := by
    intro b
    rw [hscale, prefixedExponent]
    cases b <;> simp [Registry.powerOf, decadic]
  obtain ⟨t, ht, hget⟩ := (prefixedScale_spec p u.scale).1 ⟨hrange, fun b => hexponents b ▸ (s.get b).bounded⟩
  obtain rfl : t = s := Scale.ext_get fun b => Exponent.ext ((hget b).trans (hexponents b))
  have hresolve := resolve_of_split hfind hsplit hp false
  rw [ht] at hresolve
  have hstorage : u.isStorage = true := isStorage_of_isPrefixable (e := ⟨u, f⟩) hp
  exact ⟨_, evaluateText_name hname hresolve, rfl, rfl, isStorage_meaningOf hstorage _ _ _⟩

theorem evaluates_of_spells {text : String} (h : Spells r .expr text.toList (slots d s)) : Evaluates r text d s := by
  obtain ⟨v, hv, hexact⟩ := h.evaluateText
  refine ⟨v, hv, Dimension.ext_get fun a => Exponent.ext ?_, Scale.ext_get fun b => Exponent.ext ?_, ?_⟩
  · exact hexact.exponents (.inl a)
  · exact hexact.exponents (.inr b)
  · rw [UnitMeaning.isStorage, hexact.factor, hexact.offset]
    rfl

/-- A composition is evaluated to what it is composed from, if its symbols are read as they are meant. -/
theorem evaluates_composed (hr : Speaks r d s) {text : String} (h : compose r d s = .ok text) :
    Evaluates r text d s := evaluates_of_spells (spells_compose hr h)

/-! ## Which names are made -/

/-- a registry reads the names of a dimension and a scale as they are meant, of whatever kind they are -/
structure Understands (r : Registry Float) (d : Dimension) (s : Scale) : Prop where
  registered : ∀ f u, r.familyOf? d = some f → u ∈ f.units → u.isStorage = true → u.scale = s → IsName u.symbol.toList
  /-- a prefixed symbol is one name, which neither another unit nor an earlier prefix takes -/
  prefixed : ∀ f u before p after, r.familyOf? d = some f → f.baseUnit? = some u → f.isPrefixable u = true →
    r.prefixes = before ++ p :: after → (∀ b, (s.get b).val = (u.scale.get b).val + p.exponent * decadic b) →
    u.symbol ≠ "" ∧ IsName (p.symbol ++ u.symbol).toList ∧ p.symbol ++ u.symbol ∉ r.allowed ∧
      Untaken r before (p.symbol ++ u.symbol)
  composed : unitName r d s = compose r d s → Speaks r d s

/-- why a storage unit has no name -/
inductive Unnamed (r : Registry Float) (d : Dimension) (s : Scale) : Fault → Prop
  /-- no unit is registered for the scale, and it is too far from that of the base unit -/
  | farOff {f : UnitFamily Float} {u : UnitDef Float} (hd : d.isOne = false) (hf : r.familyOf? d = some f)
      (hnone : registered? f s = none) (hu : f.baseUnit? = some u) (hp : f.isPrefixable u = true) (b : Base)
      (hfar : ¬ InRange ((s.get b).val - (u.scale.get b).val)) :
      Unnamed r d s (.unit (.scaleOverflow (.product s u.scale.neg)))
  /-- the name would be composed, of a mass without its base unit -/
  | baseless (hbase : ¬ HasBase r d)
      (hcomposed : ∀ f, r.familyOf? d = some f → registered? f s = none ∧ prefixed? r f s = .ok none) :
      Unnamed r d s (.wrongType none)

theorem div_eq_error_iff {s t : Scale} {fault : Fault} : s.div t = .error fault ↔
    (∃ b, ¬ InRange ((s.get b).val - (t.get b).val)) ∧ fault = .unit (.scaleOverflow (.product s t.neg)) := by
  have hreaches := Scale.reaches_div s t
  cases hdiv : s.div t with
  | ok ratio =>
    rw [hdiv] at hreaches
    have hget (b : Base) : (ratio.get b).val = (s.get b).val - (t.get b).val := hreaches b
    exact ⟨nofun, fun ⟨⟨b, hb⟩, _⟩ => absurd (hget b ▸ (ratio.get b).bounded) hb⟩
  | error cause =>
    rw [hdiv] at hreaches
    have hcause : cause = .unit (.scaleOverflow (.product s t.neg)) := by
      unfold Scale.div Scale.mul at hdiv
      split at hdiv
      · cases hdiv
      · exact (Except.error.inj hdiv).symm
    rw [hcause, Except.error.injEq]
    exact ⟨fun h => ⟨hreaches.1, h.symm⟩, fun h => h.2.symm⟩

theorem prefixed?_eq_error_iff {fault : Fault} : prefixed? r f s = .error fault ↔
    ∃ u, f.baseUnit? = some u ∧ f.isPrefixable u = true ∧ s.div u.scale = .error fault := by
  unfold prefixed?
  cases hu : f.baseUnit? with
  | none => exact ⟨nofun, nofun⟩
  | some u =>
    simp only [Option.some.injEq, exists_eq_left']
    by_cases hp : f.isPrefixable u = true
    · rw [if_pos hp]
      cases s.div u.scale with
      | error cause =>
        change Except.error cause = Except.error fault ↔ _
        rw [Except.error.injEq, Except.error.injEq]
        exact ⟨fun h => ⟨hp, h⟩, And.right⟩
      | ok ratio => exact ⟨nofun, nofun⟩
    · rw [if_neg hp]
      exact ⟨nofun, fun h => absurd h.1 hp⟩

/-- A unit has no name for one of two reasons. -/
theorem unitName_eq_error_iff {fault : Fault} : unitName r d s = .error fault ↔ Unnamed r d s fault := by
  constructor
  · intro h
    unfold unitName at h
    split at h
    · next hd =>
      obtain ⟨hbase, rfl⟩ := compose_eq_error_iff.1 h
      have hone : d = .one := by simpa [Dimension.isOne] using hd
      exact absurd (fun hmass => absurd (hone ▸ rfl) hmass) hbase
    · next hd =>
      split at h
      · next hf =>
        obtain ⟨hbase, rfl⟩ := compose_eq_error_iff.1 h
        exact .baseless hbase fun f hsome => nomatch hf.symm.trans hsome
      · next f hf =>
        split at h
        · cases h
        · next hnone =>
          cases hp : prefixed? r f s with
          | error cause =>
            rw [hp] at h
            cases h
            obtain ⟨u, hu, hprefixable, hdiv⟩ := prefixed?_eq_error_iff.1 hp
            obtain ⟨⟨b, hfar⟩, rfl⟩ := div_eq_error_iff.1 hdiv
            exact .farOff (Bool.eq_false_iff.2 hd) hf hnone hu hprefixable b hfar
          | ok symbol? =>
            rw [hp] at h
            cases symbol? with
            | some symbol => cases h
            | none =>
              obtain ⟨hbase, rfl⟩ := compose_eq_error_iff.1 h
              refine .baseless hbase fun g hg => ?_
              cases hf.symm.trans hg
              exact ⟨hnone, hp⟩
  · intro h
    cases h with
    | @farOff f u hd hf hnone hu hp b hfar =>
      have hprefixed : prefixed? r f s = .error (.unit (.scaleOverflow (.product s u.scale.neg))) :=
        prefixed?_eq_error_iff.2 ⟨u, hu, hp, div_eq_error_iff.2 ⟨⟨b, hfar⟩, rfl⟩⟩
      unfold unitName
      simp only [hd, hf, hnone, hprefixed, Bool.false_eq_true, if_false]
      rfl
    | baseless hbase hcomposed =>
      have hcompose : compose r d s = .error (.wrongType none) := compose_eq_error_iff.2 ⟨hbase, rfl⟩
      unfold unitName
      split
      · exact hcompose
      · split
        · exact hcompose
        · next f hf =>
          obtain ⟨hnone, hprefixed⟩ := hcomposed f hf
          simp only [hnone, hprefixed]
          exact hcompose

/-- **Names in every registry.** The name that a registry makes for a storage unit is evaluated, by this registry, to
exactly the dimension and the scale that it was made for, with factor one and no offset, if the registry understands it.
A unit has no name if its scale is too far from that of a base unit that takes prefixes, though it could be written out,
or if its mass has no base unit. -/
theorem unitName_spec (hbuild : build families prefixes allowed aliases = .ok r) (d : Dimension) (s : Scale) :
    (∀ text, unitName r d s = .ok text → Understands r d s → Evaluates r text d s) ∧
      ∀ fault, unitName r d s = .error fault ↔ Unnamed r d s fault := by
  refine ⟨fun text h hr => ?_, fun fault => unitName_eq_error_iff⟩
  cases named_of_unitName h with
  | @registered f u hf hu hstorage hscale =>
    have hname := hr.registered f u hf hu hstorage hscale
    exact hscale ▸ evaluates_registered hbuild hf hu hstorage hname
  | @prefixed f u m symbol hf hu hp hrange hm hscale =>
    rcases prefixSymbol?_eq_some hm with ⟨rfl, rfl⟩ | ⟨p, hlisted, rfl, rfl⟩
    · have hstorage : u.isStorage = true := isStorage_of_isPrefixable (e := ⟨u, f⟩) hp
      have hsame : u.scale = s := Scale.ext_get fun b => Exponent.ext (by rw [hscale, zero_mul, add_zero])
      rw [String.empty_append]
      exact hsame ▸ evaluates_registered hbuild hf (List.mem_of_head? hu) hstorage
        (hr.registered f u hf (List.mem_of_head? hu) hstorage hsame)
    · obtain ⟨before, after, hprefixes⟩ := List.append_of_mem hlisted
      obtain ⟨hne, hname, hallowed, huntaken⟩ := hr.prefixed f u before p after hf hu hp hprefixes hscale
      exact evaluates_prefixed hbuild hf hu hp hprefixes hrange hscale hne hname hallowed huntaken
  | composed hcompose => exact evaluates_composed (hr.composed (h.trans hcompose.symm)) hcompose

namespace Sample

/-- the only unit of a family -/
def pace : UnitDef Float := ⟨"pace", "pace", [], .one, Numeric.one, Numeric.zero, .metric⟩

/-- a family of paces, whatever they measure -/
def paces (d : Dimension) : UnitFamily Float := ⟨"Pacing", "P", d, [pace]⟩

end Sample

open Registry.Sample Sample

/-- meters and kilometers are read as they are meant, where there is nothing else -/
theorem speaks_lengths {r : Registry Float} (hbuild : build [lengths] [kilo] [] [] = .ok r) (n : Exponent) :
    Speaks r { length := n } .one := by
  have hprefixes : r.prefixes = [kilo] := by
    rw [(build_eq_ok_iff_not_inConflict.1 hbuild).1]
    exact holds_draft.prefixes
  have hexact (k : Int) (s : Scale) (hs : ∀ b, (s.get b).val = k * decadic b) (text : String) :
      (meaningOf meter lengths s text).IsExact (axisSlots .length k) := by
    refine ⟨fun i => ?_, rfl, rfl⟩
    rcases i with a | b
    · cases a <;> rfl
    · exact hs b
  refine ⟨fun a ha m symbol hm _ => ?_, fun hpi => absurd rfl hpi⟩
  obtain rfl : a = .length := by
    cases a with
    | length => rfl
    | _ => exact absurd rfl ha
  rcases prefixSymbol?_eq_some hm with ⟨rfl, rfl⟩ | ⟨p, hp, rfl, rfl⟩
  · have hfound : r.find? "m" = some ⟨meter, lengths⟩ := by
      rw [(build_eq_ok_iff_not_inConflict.1 hbuild).1]
      rfl
    exact ⟨by decide, _, resolve_of_find? hfound, hexact 0 .one (fun b => by cases b <;> rfl) "m"⟩
  · rw [hprefixes] at hp
    cases List.mem_singleton.1 hp
    have hspelt : Spelt r kilo ⟨meter, lengths⟩ "km" := spelt_symbols (e := ⟨meter, lengths⟩) (by decide)
    have hunnamed : r.findName? "km" = none := by
      rw [(build_eq_ok_iff_not_inConflict.1 hbuild).1, ← Option.isNone_iff_eq_none]
      decide +kernel
    have hkilo : build [lengths] ([] ++ kilo :: []) [] [] = .ok r := hbuild
    obtain ⟨hnone, hsplit⟩ := hspelt.lookup hkilo List.mem_cons_self List.mem_cons_self (by decide +kernel)
      List.not_mem_nil ⟨hunnamed, nofun, nofun, nofun⟩
    exact ⟨by decide, _, resolve_of_findPrefixed? hnone hsplit rfl rfl, hexact 3 (.ten 3) (fun b => by cases b <;> rfl) "km"⟩

/-- square meters, in a registry of meters and kilometers -/
theorem unitName_spec_square : ∃ r, build [lengths] [kilo] [] [] = .ok r ∧
    unitName r { length := 2 } .one = .ok "m^2" ∧ Evaluates r "m^2" { length := 2 } .one := by
  have hbuild : build [lengths] [kilo] [] [] = .ok (folded [lengths] [kilo] [] []) :=
    build_eq_ok_iff.2 ⟨rfl, by decide +kernel, by decide +kernel⟩
  have hname : unitName (folded [lengths] [kilo] [] []) { length := 2 } .one = .ok "m^2" := by decide +kernel
  have hfamily (f : UnitFamily Float) : (folded [lengths] [kilo] [] []).familyOf? { length := 2 } ≠ some f := nofun
  have hunderstands : Understands (folded [lengths] [kilo] [] []) { length := 2 } .one :=
    ⟨fun f u hf => absurd hf (hfamily f), fun f u before p after hf => absurd hf (hfamily f),
      fun _ => speaks_lengths hbuild 2⟩
  exact ⟨_, hbuild, hname, (unitName_spec hbuild _ _).1 _ hname hunderstands⟩

theorem evaluates_pace {d e : Dimension} (hsquare : ∀ a, (e.get a).val = 2 * (d.get a).val) (ps : List SiPrefix) :
    Evaluates (folded [paces d] ps [] []) "pace^2" e .one := by
  have hpace : StandsFor (folded [paces d] ps [] []) "pace" (slots d .one) := by
    refine ⟨by decide, _, resolve_of_find? (e := ⟨pace, paces d⟩) rfl, fun i => ?_, rfl, rfl⟩
    cases i <;> rfl
  have hslots : (fun i => 2 * slots d .one i) = slots e .one := by
    funext i
    rcases i with a | b
    · exact (hsquare a).symm
    · cases b <;> rfl
  have hraised := hpace.spells.raised (n := 2) (by decide) fun i => by
    rw [congrFun hslots i]
    exact inRange_slots e .one i
  rw [hslots] at hraised
  exact evaluates_of_spells hraised.single.whole

theorem evaluateText_unknown {suggestions : List String}
    (h : resolve r false "m" = .error (.unit (.unknownUnit "m" none suggestions))) :
    evaluateText r false "m^2" = .error (.unit (.unknownUnit "m" (some "m^2") suggestions)) := by
  have hparse : parse "m^2" = .ok (.pow (.identifier "m") 2) := by decide +kernel
  rw [evaluateText_of_parse hparse, evaluate, evaluate, h]
  rfl

/-- where there are only paces, there are no meters -/
theorem evaluateText_meter_of_paces : ∃ suggestions, evaluateText (folded [paces { length := 1 }] [kilo] [] []) false
    "m^2" = .error (.unit (.unknownUnit "m" (some "m^2") suggestions)) := by
  have hfind : (folded [paces { length := 1 }] [kilo] [] []).find? "m" = none := by
    rw [← Option.isNone_iff_eq_none]
    decide +kernel
  have hsplit : (folded [paces { length := 1 }] [kilo] [] []).findPrefixed? "m" = .ok none := by
    refine splitByFirst_eq_none fun p hp => ?_
    cases List.mem_singleton.1 hp
    exact splitBy_eq_ok_none (by decide) (by decide +kernel) (by decide +kernel)
  exact ⟨_, evaluateText_unknown (resolve_of_unknown (by decide) hfind hsplit)⟩

/-- two to the power 32767 times a kilogram, written out -/
theorem compose_far : compose registry { mass := 1 } { two := 32767 } = .ok "2^32767*kg" := by
  have hfold : foldScale registry { two := 32767 } (termsIn { mass := 1 } (baseSymbol registry)) =
      ({ two := 32767 }, termsIn { mass := 1 } (baseSymbol registry)) := rfl
  have hmass : baseSymbol registry .mass = "kg" := by
    rw [baseSymbol, show (axisSymbol .mass).2 = 3 from rfl, prefixSymbol?_kilo]
    decide
  rw [compose_eq (hasBase_registry _) hfold]
  rw [show above { mass := 1 } = [.mass] by decide, show below { mass := 1 } = [] by decide, List.map_cons, hmass]
  decide +kernel

theorem familyOf?_registry (hf : f ∈ Catalog.families) : registry.familyOf? f.dimension = some f := by
  have hdimensions : ((Catalog.families : List (UnitFamily Float)).map UnitFamily.dimension).Nodup := by decide +kernel
  exact familyOf?_folded hdimensions hf

/-- the scale is too far from that of the gram -/
theorem unnamed_far : Unnamed registry { mass := 1 } { two := 32767 }
    (.unit (.scaleOverflow (.product { two := 32767 } (.ten 3)))) := by
  obtain ⟨f, hf, hd, hnone, u, hu, hp, hscale⟩ : ∃ f ∈ (families : List (UnitFamily Float)),
      f.dimension = { mass := 1 } ∧ registered? f { two := 32767 } = none ∧
        ∃ u, f.baseUnit? = some u ∧ f.isPrefixable u = true ∧ u.scale = .ten (-3) :=
    ⟨_, List.mem_cons_self, rfl, by decide +kernel, _, rfl, by decide +kernel, rfl⟩
  have hfamily : registry.familyOf? { mass := 1 } = some f := hd ▸ familyOf?_registry hf
  have hneg : u.scale.neg = .ten 3 := by
    rw [hscale]
    decide
  rw [← hneg]
  exact .farOff (by decide) hfamily hnone hu hp .two (by rw [hscale]; decide)

/-- **Names are not read everywhere.** A registry of paces names their squares in meters, which it does not know, or not
at all, where kilograms are wanted; and the built-in registry has no name for a mass that it can write out. -/
theorem unitName_unsound :
    (∃ r, build [paces { length := 1 }] [kilo] [] [] = .ok r ∧ Evaluates r "pace^2" { length := 2 } .one ∧
      unitName r { length := 2 } .one = .ok "m^2" ∧
      ∃ suggestions, evaluateText r false "m^2" = .error (.unit (.unknownUnit "m" (some "m^2") suggestions))) ∧
    (∃ r, build [paces { mass := 1 }] [] [] [] = .ok r ∧ Evaluates r "pace^2" { mass := 2 } .one ∧
      unitName r { mass := 2 } .one = .error (.wrongType none)) ∧
    Evaluates registry "2^32767*kg" { mass := 1 } { two := 32767 } ∧
    unitName registry { mass := 1 } { two := 32767 } =
      .error (.unit (.scaleOverflow (.product { two := 32767 } (.ten 3)))) := by
  have hlengths : build [paces { length := 1 }] [kilo] [] [] = .ok (folded [paces { length := 1 }] [kilo] [] []) :=
    build_eq_ok_iff.2 ⟨rfl, by decide +kernel, by decide +kernel⟩
  have hmasses : build [paces { mass := 1 }] [] [] [] = .ok (folded [paces { mass := 1 }] [] [] []) :=
    build_eq_ok_iff.2 ⟨rfl, by decide +kernel, by decide +kernel⟩
  exact ⟨⟨_, hlengths, evaluates_pace (fun a => by cases a <;> rfl) [kilo], by decide +kernel, evaluateText_meter_of_paces⟩,
    ⟨_, hmasses, evaluates_pace (fun a => by cases a <;> rfl) [], by decide +kernel⟩,
    evaluates_composed (speaks_registry _ _) compose_far, unitName_eq_error_iff.2 unnamed_far⟩

end UnitAlgebra.Naming

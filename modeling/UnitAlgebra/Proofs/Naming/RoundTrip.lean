/-
Names of storage units parse back. However a name comes about, from a registered unit, from a prefix before a base unit
or as a composition, it spells the exponents of the unit, and a text that spells exponents evaluates to the storage unit
that has them.

Results:
- `named_of_unitName`: every name comes about in one of three ways.
- `spells_unitName`: every name spells the dimension and the scale that it names.
- `evaluateText_unitName`: names evaluate to what they name, and dimensions in base units to themselves.
-/
import UnitAlgebra.Proofs.Naming.Compose

namespace UnitAlgebra.Naming

open Registry (symbolListing mem_symbolListing)
open Expression Catalog UnitMeaning

/-! ## The three kinds of names -/

/-- how a name comes about: from a registered unit, from a prefix before a base unit, or as a composition -/
inductive Named (r : Registry Float) (d : Dimension) (s : Scale) : String → Prop
  | registered {f : UnitFamily Float} {u : UnitDef Float} (hf : r.familyOf? d = some f) (hu : u ∈ f.units)
      (hstorage : u.isStorage = true) (hscale : u.scale = s) : Named r d s u.symbol
  | prefixed {f : UnitFamily Float} {u : UnitDef Float} {m : Int} {symbol : String} (hf : r.familyOf? d = some f)
      (hu : f.baseUnit? = some u) (hp : f.isPrefixable u = true) (hrange : InRange m)
      (hm : prefixSymbol? r m = some symbol) (hscale : ∀ b, (s.get b).val = (u.scale.get b).val + m * decadic b) :
      Named r d s (symbol ++ u.symbol)
  | composed {text : String} (h : compose r d s = .ok text) : Named r d s text

section

variable {r : Registry Float} {d : Dimension} {s : Scale} {f : UnitFamily Float}

theorem named_of_registered? (hf : r.familyOf? d = some f) {symbol : String} (h : registered? f s = some symbol) :
    Named r d s symbol := by
  obtain ⟨u, hu, rfl⟩ := Option.map_eq_some_iff.1 h
  have hfound : u.isStorage = true ∧ u.scale = s := by simpa using List.find?_some hu
  exact .registered hf (List.mem_of_find?_eq_some hu) hfound.1 hfound.2

theorem named_of_prefixed? (hf : r.familyOf? d = some f) {symbol : String} (h : prefixed? r f s = .ok (some symbol)) :
    Named r d s symbol := by
  unfold prefixed? at h
  split at h
  · cases h
  · next u hu =>
    split at h
    · next hp =>
      cases hratio : s.div u.scale with
      | error fault =>
        rw [hratio] at h
        cases h
      | ok ratio =>
        rw [hratio] at h
        have hsymbol : (ratio.log10?.bind (prefixSymbol? r)).map (· ++ u.symbol) = some symbol := Except.ok.inj h
        obtain ⟨before, hbefore, rfl⟩ := Option.map_eq_some_iff.1 hsymbol
        obtain ⟨m, hm, hprefix⟩ := Option.bind_eq_some_iff.1 hbefore
        have hdiff : ∀ b, (ratio.get b).val = (s.get b).val - (u.scale.get b).val := by
          have h := Scale.reaches_div s u.scale
          rwa [hratio] at h
        refine .prefixed hf hu hp (inRange_of_log10? hm) hprefix fun b => ?_
        have hsum := hdiff b
        rw [scale_of_log10? hm b] at hsum
        change (s.get b).val = (u.scale.get b).val + m * decadic b
        omega
    · cases h

/-- Every name comes about in one of three ways. -/
theorem named_of_unitName {text : String} (h : unitName r d s = .ok text) : Named r d s text := by
  unfold unitName at h
  split at h
  · exact .composed h
  · split at h
    · exact .composed h
    · next f hf =>
      split at h
      · next symbol hsymbol =>
        cases h
        exact named_of_registered? hf hsymbol
      · cases hp : prefixed? r f s with
        | error fault =>
          rw [hp] at h
          cases h
        | ok symbol? =>
          rw [hp] at h
          cases symbol? with
          | none => exact .composed h
          | some symbol =>
            cases h
            exact named_of_prefixed? hf hp

end

theorem prefixSymbol?_kilo : prefixSymbol? registry 3 = some "k" := by
  unfold prefixSymbol?
  rw [builtFrom.prefixes]
  decide

theorem hasBase_registry (d : Dimension) : HasBase registry d :=
  fun _ => Option.isSome_iff_exists.2 ⟨"k", prefixSymbol?_kilo⟩

/-- Every name spells the dimension and the scale that it names. -/
theorem spells_unitName {d : Dimension} {s : Scale} {text : String} (h : unitName registry d s = .ok text) :
    Spells registry .expr text.toList (slots d s) := by
  cases named_of_unitName h with
  | @registered f u hf hu hstorage hscale =>
    obtain ⟨hmem, rfl⟩ := builtFrom.dimensions d f hf
    have hlisted : (u.symbol, ⟨u, f⟩) ∈ symbolListing families := mem_symbolListing.2 ⟨hmem, hu, List.mem_cons_self⟩
    have hsymbol : StandsFor registry u.symbol (slots f.dimension s) := hscale ▸ standsFor_symbol hlisted hstorage
    exact hsymbol.spells.plain.single.whole
  | @prefixed f u m symbol hf hu hp _ hm hscale =>
    obtain ⟨hmem, rfl⟩ := builtFrom.dimensions d f hf
    have hsymbol : StandsFor registry (symbol ++ u.symbol) (slots f.dimension s) :=
      standsFor_prefixed (e := ⟨u, f⟩) hmem (List.mem_of_head? hu) hp hm hscale
    exact hsymbol.spells.plain.single.whole
  | composed h => exact spells_compose (speaks_registry d s) h

/-! ## Round trips -/

/-- a text is a unit expression for a storage unit -/
def Names (text : String) (d : Dimension) (s : Scale) : Prop :=
  ∃ u, evaluateText registry false text = .ok u ∧ u.dimension = d ∧ u.scale = s ∧ u.factor = Numeric.one ∧
    u.offset = Numeric.zero

theorem names_of_spells {text : String} {d : Dimension} {s : Scale}
    (h : Spells registry .expr text.toList (slots d s)) : Names text d s := by
  obtain ⟨u, hu, hexact⟩ := h.evaluateText
  refine ⟨u, hu, Dimension.ext_get fun a => Exponent.ext ?_, Scale.ext_get fun b => Exponent.ext ?_,
    hexact.factor, hexact.offset⟩
  · exact hexact.exponents (.inl a)
  · exact hexact.exponents (.inr b)

/-- **Names parse back.** The name of a storage unit evaluates to exactly the dimension and the scale that it names, with
factor one and no offset. Every dimension has a text in base units, and that evaluates to the dimension alone. -/
theorem evaluateText_unitName :
    (∀ d s text, unitName registry d s = .ok text → Names text d s) ∧
      ∀ d, ∃ text, baseUnits registry d = .ok text ∧ Names text d .one := by
  refine ⟨fun d s text h => names_of_spells (spells_unitName h), fun d => ?_⟩
  obtain ⟨text, htext⟩ : ∃ text, baseUnits registry d = .ok text := by
    cases h : baseUnits registry d with
    | ok text => exact ⟨text, rfl⟩
    | error fault => exact absurd (hasBase_registry d) (compose_eq_error_iff.1 h).1
  exact ⟨text, htext, names_of_spells (spells_compose (speaks_registry d .one) htext)⟩

/-- a thousand is named by its power of ten -/
theorem evaluateText_unitName_thousand :
    unitName registry .one (.ten 3) = .ok "10^3" ∧ Names "10^3" .one (.ten 3) :=
  ⟨rfl, evaluateText_unitName.1 _ _ _ rfl⟩

end UnitAlgebra.Naming

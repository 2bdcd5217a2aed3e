/-
What the symbols of names stand for: the symbols of storage units, the symbols of base units behind a prefix, the symbols
of the axes, and pi. Other bases of scales are written in figures, and mean the same in every registry.

Results:
- `spells_factor`, `spells_ten`: the bases of scales, and ten.
- `standsFor_symbol`: the symbol of a storage unit stands for its dimension and scale.
- `standsFor_prefixed`: a prefix moves the scale of a base unit by its power of ten.
- `standsFor_axis`: the symbol of an axis stands for the axis, at the power of ten that its prefix leaves.
- `speaks_registry`: the built-in registry reads all symbols of names as they are meant.
-/
import UnitAlgebra.Naming
import UnitAlgebra.Proofs.Catalog.Orderly
import UnitAlgebra.Proofs.Expression.Composition

namespace UnitAlgebra.Naming

open Registry (symbolListing mem_symbolListing Prefixed)
open Expression Catalog UnitMeaning

/-! ## Exponents -/

/-- the exponents of a dimension and a scale -/
def slots (d : Dimension) (s : Scale) : Slot → Int := Sum.elim (fun a => (d.get a).val) fun b => (s.get b).val

theorem inRange_slots (d : Dimension) (s : Scale) (i : Slot) : InRange (slots d s i) := by
  cases i with
  | inl a => exact (d.get a).bounded
  | inr b => exact (s.get b).bounded

/-- the power of a base in ten -/
def decadic : Base → Int
  | .two | .five => 1
  | .three | .pi => 0

/-- one axis, at a power of ten -/
def axisSlots (a : Axis) (k : Int) : Slot → Int := Sum.elim (fun b => if b = a then 1 else 0) fun b => k * decadic b

/-- one base -/
def baseSlots (b : Base) : Slot → Int := Sum.elim (fun _ => 0) fun c => if c = b then 1 else 0

/-- a power of ten -/
def tenSlots : Slot → Int := Sum.elim (fun _ => 0) decadic

/-! ## Symbols -/

/-- a text is one name of the grammar, which a registry reads as a storage unit with the exponents given -/
structure StandsFor (r : Registry Float) (text : String) (f : Slot → Int) : Prop where
  isName : IsName text.toList
  resolved : ∃ u, resolve r false text = .ok u ∧ u.IsExact f

/-- a registry reads the symbols that a dimension and a scale are composed of as they are meant -/
structure Speaks (r : Registry Float) (d : Dimension) (s : Scale) : Prop where
  /-- the symbol of an axis stands for the axis, at the power of ten that its prefix leaves -/
  axis : ∀ a, (d.get a).val ≠ 0 → ∀ m symbol, prefixSymbol? r m = some symbol → InRange (m - (axisSymbol a).2) →
    StandsFor r (symbol ++ (axisSymbol a).1) (axisSlots a (m - (axisSymbol a).2))
  pi : (s.get .pi).val ≠ 0 → StandsFor r "pi" (baseSlots .pi)

section

variable {r : Registry Float} {f : Slot → Int}

theorem StandsFor.spells {text : String} (h : StandsFor r text f) : Spells r .atom text.toList f := by
  obtain ⟨⟨hne, hletters⟩, u, hu, hexact⟩ := h
  exact spells_name hne hletters hu hexact

/-- a prefix symbol belongs to a prefix, or is empty for the power zero -/
theorem prefixSymbol?_eq_some {m : Int} {symbol : String} (h : prefixSymbol? r m = some symbol) :
    (m = 0 ∧ symbol = "") ∨ ∃ p ∈ r.prefixes, p.exponent = m ∧ symbol = p.symbol := by
  unfold prefixSymbol? at h
  split at h
  · next hm =>
    cases h
    exact Or.inl ⟨hm, rfl⟩
  · obtain ⟨p, hp, rfl⟩ := Option.map_eq_some_iff.1 h
    have hexp : p.exponent = m := by simpa using List.find?_some hp
    exact Or.inr ⟨p, List.mem_of_find?_eq_some hp, hexp, rfl⟩

/-! ## Figures -/

theorem integerScale_written : integerScale 1 = .ok .one ∧ integerScale 2 = .ok { two := 1 } ∧
    integerScale 3 = .ok { three := 1 } ∧ integerScale 5 = .ok { five := 1 } ∧ integerScale 10 = .ok (.ten 1) := by
  decide +kernel

/-- The bases of scales. -/
theorem spells_factor {b : Base} (hpi : b = .pi → StandsFor r "pi" (baseSlots .pi)) :
    Spells r .atom b.factor.toList (baseSlots b) := by
  have hinteger : ∀ (n : Nat) (s : Scale), InRange n → integerScale n = .ok s → (∀ c, (s.get c).val = baseSlots b (.inr c)) →
      b.factor.toList = Exponent.decimalDigits n → Spells r .atom b.factor.toList (baseSlots b) := by
    intro n s hn hs hget htext
    have h := spells_integer (r := r) hn hs
    have hslots : (Sum.elim (fun _ => 0) fun b => (s.get b).val : Slot → Int) = baseSlots b := by
      funext i
      cases i with
      | inl a => rfl
      | inr c => exact hget c
    rwa [hslots, ← htext] at h
  obtain ⟨-, htwo, hthree, hfive, -⟩ := integerScale_written
  cases b with
  | two => exact hinteger 2 { two := 1 } (by decide) htwo (fun c => by cases c <;> rfl) (by decide)
  | three => exact hinteger 3 { three := 1 } (by decide) hthree (fun c => by cases c <;> rfl) (by decide)
  | five => exact hinteger 5 { five := 1 } (by decide) hfive (fun c => by cases c <;> rfl) (by decide)
  | pi => exact (hpi rfl).spells

theorem spells_ten : Spells r .atom "10".toList tenSlots := by
  have h := spells_integer (r := r) (n := 10) (s := .ten 1) (by decide) integerScale_written.2.2.2.2
  have hslots : (Sum.elim (fun _ => 0) fun b => ((Scale.ten 1).get b).val : Slot → Int) = tenSlots := by
    funext i
    rcases i with a | c
    · rfl
    · cases c <;> rfl
  rwa [hslots, show Exponent.decimalDigits (10 : Nat) = "10".toList by decide] at h

end

/-! ## Units of the catalog -/

/-- storage units of the catalog have no factor and no offset of their own -/
theorem factor_of_isStorage {e : String × Entry Float} (h : e ∈ symbolListing families)
    (hs : e.2.unit.isStorage = true) : e.2.unit.factor = Numeric.one ∧ e.2.unit.offset = Numeric.zero := by
  have all : ∀ e ∈ symbolListing (families : List (UnitFamily Float)), e.2.unit.isStorage = true →
      e.2.unit.factor = Numeric.one ∧ e.2.unit.offset = Numeric.zero := by decide +kernel
  exact all e h hs

theorem isExact_meaningOf {symbol : String} {e : Entry Float} (h : (symbol, e) ∈ symbolListing families)
    (hs : e.unit.isStorage = true) (s : Scale) (text : String) :
    (meaningOf e.unit e.family s text).IsExact (slots e.family.dimension s) := by
  obtain ⟨hfactor, hoffset⟩ := factor_of_isStorage h hs
  refine ⟨fun i => ?_, hfactor, hoffset⟩
  cases i <;> rfl

/-- The symbol of a storage unit stands for its dimension and scale. -/
theorem standsFor_symbol {symbol : String} {e : Entry Float} (h : (symbol, e) ∈ symbolListing families)
    (hs : e.unit.isStorage = true) : StandsFor registry symbol (slots e.family.dimension e.unit.scale) :=
  ⟨isName_symbol h, _, resolve_symbol h, isExact_meaningOf h hs _ _⟩

/-! ## Prefixes -/

/-- prefixes are powers of ten from 10^-30 to 10^30 -/
theorem natAbs_exponent_le {p : SiPrefix} (h : p ∈ prefixes) : p.exponent.natAbs ≤ 30 := by
  have all : ∀ p ∈ prefixes, p.exponent.natAbs ≤ 30 := by decide
  exact all p h

theorem exists_scale {p : SiPrefix} (h : p ∈ prefixes) :
    ∃ t, p.scale = .ok t ∧ ∀ b, (t.get b).val = p.exponent * decadic b := by
  have hle := natAbs_exponent_le h
  have hreach : Scale.Reaches (fun b => p.exponent * decadic b) p.scale := by
    have hwanted : (fun b => p.exponent * decadic b) = fun
        | .two | .five => p.exponent
        | .three | .pi => 0 := by
      funext b
      cases b <;> simp [decadic]
    rw [hwanted]
    exact Scale.reaches_ofInts _ _
  refine hreach.exists_of_inRange fun b => ?_
  cases b <;> simp only [InRange, decadic, exponentLimit] <;> omega

/-- A prefix moves the scale of a base unit by its power of ten. -/
theorem standsFor_prefixed {e : Entry Float} (hf : e.family ∈ families) (hu : e.unit ∈ e.family.units)
    (hp : e.isPrefixable = true) {m : Int} {symbol : String} (hm : prefixSymbol? registry m = some symbol) {s : Scale}
    (hs : ∀ b, (s.get b).val = (e.unit.scale.get b).val + m * decadic b) :
    StandsFor registry (symbol ++ e.unit.symbol) (slots e.family.dimension s) := by
  have hmem : (e.unit.symbol, e) ∈ symbolListing families := mem_symbolListing.2 ⟨hf, hu, List.mem_cons_self⟩
  have hstorage : e.unit.isStorage = true := (Bool.and_eq_true_iff.1 hp).2
  rcases prefixSymbol?_eq_some hm with ⟨rfl, rfl⟩ | ⟨p, hmemp, rfl, rfl⟩
  · have hscale : e.unit.scale = s := Scale.ext_get fun b => Exponent.ext (by rw [hs]; simp)
    rw [String.empty_append, ← hscale]
    exact standsFor_symbol hmem hstorage
  · rw [builtFrom.prefixes] at hmemp
    have h : Prefixed families prefixes p e := ⟨hmemp, hf, hu, hp⟩
    obtain ⟨t, ht, hget⟩ := exists_scale hmemp
    obtain ⟨u, hmul, hsum⟩ := (Scale.reaches_mul e.unit.scale t).exists_of_inRange fun b => by
      rw [hget, ← hs]
      exact (s.get b).bounded
    have hscale : u = s := Scale.ext_get fun b => Exponent.ext (by rw [hsum, hget, hs])
    refine ⟨isName_prefixed h, _, resolve_prefixed h ht hmul, ?_⟩
    rw [hscale]
    exact isExact_meaningOf hmem hstorage s _

/-! ## Axes -/

/-- the dimension of an axis -/
def single (a : Axis) : Dimension := Dimension.ofFn fun b => if b = a then 1 else 0

/-- every axis has a base unit that takes prefixes, off the SI base unit by the power of ten of the axis -/
theorem exists_axisUnit (a : Axis) : ∃ f ∈ (families : List (UnitFamily Float)), ∃ u ∈ f.units,
    f.isPrefixable u = true ∧ u.symbol = (axisSymbol a).1 ∧ f.dimension = single a ∧
      ∀ b ∈ Base.all, (u.scale.get b).val = -(axisSymbol a).2 * decadic b := by
  have all : ∀ a ∈ Axis.all, ∃ f ∈ (families : List (UnitFamily Float)), ∃ u ∈ f.units,
      f.isPrefixable u = true ∧ u.symbol = (axisSymbol a).1 ∧ f.dimension = single a ∧
        ∀ b ∈ Base.all, (u.scale.get b).val = -(axisSymbol a).2 * decadic b := by decide +kernel
  exact all a a.mem_all

/-- The symbol of an axis stands for the axis, at the power of ten that its prefix leaves. -/
theorem standsFor_axis (a : Axis) {m : Int} {symbol : String} (hm : prefixSymbol? registry m = some symbol) :
    StandsFor registry (symbol ++ (axisSymbol a).1) (axisSlots a (m - (axisSymbol a).2)) := by
  obtain ⟨f, hf, u, hu, hp, hsymbol, hdim, hscale⟩ := exists_axisUnit a
  have hm' : m.natAbs ≤ 30 := by
    rcases prefixSymbol?_eq_some hm with ⟨rfl, _⟩ | ⟨p, hmem, rfl, _⟩
    · decide
    · exact natAbs_exponent_le (builtFrom.prefixes ▸ hmem)
  have hshift : (axisSymbol a).2.natAbs ≤ 3 := by cases a <;> decide
  let k : Exponent := ⟨m - (axisSymbol a).2, by unfold exponentLimit; omega⟩
  have hten : ∀ b, ((Scale.ten k).get b).val = (u.scale.get b).val + m * decadic b := by
    intro b
    rw [hscale b b.mem_all]
    cases b <;> simp [Scale.ten, Scale.get, decadic, k] <;> omega
  have h := standsFor_prefixed (e := ⟨u, f⟩) hf hu hp hm hten
  rw [hsymbol] at h
  have hslots : slots f.dimension (.ten k) = axisSlots a (m - (axisSymbol a).2) := by
    funext i
    cases i with
    | inl b =>
      rw [slots, hdim, single]
      simp only [Sum.elim_inl, Dimension.get_ofFn, axisSlots]
      split <;> rfl
    | inr b => cases b <;> simp [slots, axisSlots, Scale.ten, Scale.get, decadic, k]
  rwa [hslots] at h

/-- Pi is pi. -/
theorem standsFor_pi : StandsFor registry "pi" (baseSlots .pi) := by
  refine ⟨by decide, _, resolve_pi, fun i => ?_, rfl, rfl⟩
  rcases i with a | c
  · cases a <;> rfl
  · cases c <;> rfl

/-- The built-in registry reads all symbols of names as they are meant. -/
theorem speaks_registry (d : Dimension) (s : Scale) : Speaks registry d s :=
  ⟨fun a _ _ _ hm _ => standsFor_axis a hm, fun _ => standsFor_pi⟩

end UnitAlgebra.Naming

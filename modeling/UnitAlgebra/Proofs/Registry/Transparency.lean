/-
Prefixes before units, in every registry. A registry that is accepted lets no symbol be taken for a prefix before a
prefixable unit. It does not look at names, nor at prefixes that begin alike: a text is a symbol, or else a name, or
else what the first prefix of the list makes of it. So a prefix before a unit is read as the two, in the dimension of
the unit and as many powers of ten from its scale as the prefix has, where nothing that is tried before takes the text.

Results:
- `splitBy_of_symbol`, `splitBy_of_name`, `splitBy_eq_ok_none`: which texts a prefix splits.
- `Spelt.splitBy`, `Spelt.findSymbol?`: a prefix before a unit is split by the prefix, and is no symbol.
- `transparent_of_untaken`: what a prefix before a unit means, in a registry that is accepted.
- `accepted_not_transparent`: catalogs that are accepted, in which a text that puts a prefix before a unit is taken.
-/
import UnitAlgebra.Expression.Evaluate
import UnitAlgebra.Proofs.Registry.Acceptance
import UnitAlgebra.Proofs.Unit.Arithmetic

namespace UnitAlgebra.Registry

open Expression

variable {κ : Type} [Numeric κ] {r : Registry κ} {p : SiPrefix} {e : Entry κ} {s : String}

/-! ## Splits -/

/-- a symbol of the prefix stands before the symbol of a prefixable unit -/
def SplitBySymbol (r : Registry κ) (p : SiPrefix) (s : String) : Prop :=
  ∃ rest e, p.stripSymbol s.toList = some rest ∧ r.findSymbol? (String.ofList rest) = some e ∧ e.isPrefixable = true

/-- the name of the prefix stands before the name of a prefixable unit -/
def SplitByName (r : Registry κ) (p : SiPrefix) (s : String) : Prop :=
  ∃ rest e, p.stripName s.toList = .ok (some rest) ∧ r.findName? (String.ofList rest) = some e ∧ e.isPrefixable = true

theorem prefixable?_eq_some_iff {o : Option (Entry κ)} : prefixable? o = some e ↔ o = some e ∧ e.isPrefixable = true :=
  Option.filter_eq_some_iff

theorem splitBySymbol_iff : SplitBySymbol r p s ↔
    ((p.stripSymbol s.toList).bind fun rest => prefixable? (r.findSymbol? (String.ofList rest))).isSome = true := by
  simp only [SplitBySymbol, Option.isSome_iff_exists, Option.bind_eq_some_iff, prefixable?_eq_some_iff]
  exact ⟨fun ⟨rest, e, hrest, he⟩ => ⟨e, rest, hrest, he⟩, fun ⟨e, rest, hrest, he⟩ => ⟨rest, e, hrest, he⟩⟩

theorem splitByName_iff : SplitByName r p s ↔
    ((p.stripName s.toList).toOption.join.bind fun rest => prefixable? (r.findName? (String.ofList rest))).isSome = true := by
  have hstrip (rest : List Char) : p.stripName s.toList = .ok (some rest) ↔
      (p.stripName s.toList).toOption.join = some rest := by
    cases p.stripName s.toList with
    | error fault => simp [Except.toOption]
    | ok o => simp [Except.toOption]
  simp only [SplitByName, Option.isSome_iff_exists, Option.bind_eq_some_iff, prefixable?_eq_some_iff, hstrip]
  exact ⟨fun ⟨rest, e, hrest, he⟩ => ⟨e, rest, hrest, he⟩, fun ⟨e, rest, hrest, he⟩ => ⟨rest, e, hrest, he⟩⟩

instance : Decidable (SplitBySymbol r p s) := decidable_of_iff _ splitBySymbol_iff.symm

instance : Decidable (SplitByName r p s) := decidable_of_iff _ splitByName_iff.symm

theorem symbolSplit_eq_none (h : ¬ SplitBySymbol r p s) :
    ((p.stripSymbol s.toList).bind fun rest => prefixable? (r.findSymbol? (String.ofList rest))) = none := by
  rwa [splitBySymbol_iff, Option.not_isSome_iff_eq_none] at h

theorem splitBy_of_symbol {rest : List Char} (hrest : p.stripSymbol s.toList = some rest)
    (he : r.findSymbol? (String.ofList rest) = some e) (hp : e.isPrefixable = true) :
    r.splitBy s.toList p = .ok (some e) := by
  rw [splitBy, hrest, Option.bind_some, he, prefixable?_eq_some_iff.2 ⟨rfl, hp⟩]

theorem splitBy_of_name (hsymbol : ¬ SplitBySymbol r p s) {rest : List Char}
    (hrest : p.stripName s.toList = .ok (some rest)) (he : r.findName? (String.ofList rest) = some e)
    (hp : e.isPrefixable = true) : r.splitBy s.toList p = .ok (some e) := by
  rw [splitBy, symbolSplit_eq_none hsymbol, hrest]
  change Except.ok (prefixable? (r.findName? (String.ofList rest))) = _
  rw [he, prefixable?_eq_some_iff.2 ⟨rfl, hp⟩]

/-- the first letter of a name is looked up, so there has to be one -/
theorem exists_stripName (text : List Char) (h : p.name ≠ "") : ∃ o, p.stripName text = .ok o := by
  unfold SiPrefix.stripName
  cases hname : p.name.toList with
  | nil => exact absurd (String.toList_eq_nil_iff.1 hname) h
  | cons n name => cases text <;> exact ⟨_, rfl⟩

theorem splitBy_eq_ok_none (hname : p.name ≠ "") (hsymbol : ¬ SplitBySymbol r p s) (hnames : ¬ SplitByName r p s) :
    r.splitBy s.toList p = .ok none := by
  obtain ⟨o, ho⟩ := exists_stripName s.toList hname
  rw [splitByName_iff, ho, Option.not_isSome_iff_eq_none] at hnames
  rw [splitBy, symbolSplit_eq_none hsymbol, ho]
  exact congrArg Except.ok hnames

/-! ## Prefixes before units -/

/-- the ways to put a prefix before a unit -/
inductive Spelt (r : Registry κ) (p : SiPrefix) (e : Entry κ) : String → Prop
  /-- by symbols, the first of the prefix that the text begins with -/
  | symbols {a b : String} (ha : a ∈ p.symbols) (hb : b ∈ e.unit.symbols)
      (hfirst : p.stripSymbol (a ++ b).toList = some b.toList) : Spelt r p e (a ++ b)
  /-- by names, where the unit is found by its name and the text is neither a symbol nor split by a symbol -/
  | names (hname : p.name ≠ "") (hunit : e.unit.name ≠ "") (hfind : r.findName? e.unit.name = some e)
      (hsymbol : r.findSymbol? (p.name ++ e.unit.name) = none) (hsplit : ¬ SplitBySymbol r p (p.name ++ e.unit.name)) :
      Spelt r p e (p.name ++ e.unit.name)

/-- a text that no unit is named, and that no earlier prefix splits -/
structure Untaken (r : Registry κ) (earlier : List SiPrefix) (s : String) : Prop where
  name : r.findName? s = none
  named : ∀ q ∈ earlier, q.name ≠ ""
  bySymbol : ∀ q ∈ earlier, ¬ SplitBySymbol r q s
  byName : ∀ q ∈ earlier, ¬ SplitByName r q s

theorem stripName_append {rest : List Char} (hname : p.name ≠ "") (hrest : rest ≠ []) :
    p.stripName (p.name.toList ++ rest) = .ok (some rest) := by
  obtain ⟨d, remainder, rfl⟩ := List.exists_cons_of_ne_nil hrest
  unfold SiPrefix.stripName
  cases hp : p.name.toList with
  | nil => exact absurd (String.toList_eq_nil_iff.1 hp) hname
  | cons n name =>
    have hafter : Text.after? name (name ++ d :: remainder) = some (d :: remainder) := Text.after?_eq_some_iff.2 rfl
    simp only [List.cons_append, true_or, if_true, hafter]

section

variable {families : List (UnitFamily κ)} {prefixes : List SiPrefix} {allowed : List String}
  {aliases : List (String × String)}

/-- A prefix before a unit is split by the prefix. -/
theorem Spelt.splitBy (h : Spelt r p e s) (hbuild : build families prefixes allowed aliases = .ok r)
    (hf : e.family ∈ families) (hu : e.unit ∈ e.family.units) (hp : e.isPrefixable = true) :
    r.splitBy s.toList p = .ok (some e) := by
  cases h with
  | @symbols a b ha hb hfirst =>
    refine splitBy_of_symbol hfirst ?_ hp
    obtain ⟨rfl, hnone⟩ := build_eq_ok_iff_not_inConflict.1 hbuild
    have hsymbols : (unitSymbols families).Nodup := Classical.byContradiction fun h => hnone (.symbol h)
    rw [String.ofList_toList]
    exact (findSymbol?_draft hsymbols).2 (mem_symbolListing.2 ⟨hf, hu, hb⟩)
  | names hname hunit hfind hsymbol hsplit =>
    have hstrip : p.stripName (p.name ++ e.unit.name).toList = .ok (some e.unit.name.toList) := by
      rw [String.toList_append]
      exact stripName_append hname fun hnil => hunit (String.toList_eq_nil_iff.1 hnil)
    refine splitBy_of_name hsplit hstrip ?_ hp
    rw [String.ofList_toList]
    exact hfind

/-- A prefix before a unit is no symbol, unless that is allowed. -/
theorem Spelt.findSymbol? (h : Spelt r p e s) (hbuild : build families prefixes allowed aliases = .ok r)
    (hlisted : p ∈ prefixes) (hf : e.family ∈ families) (hu : e.unit ∈ e.family.units) (hp : e.isPrefixable = true)
    (hallowed : s ∉ allowed) : r.findSymbol? s = none := by
  cases h with
  | @symbols a b ha hb hfirst =>
    obtain ⟨rfl, hnone⟩ := build_eq_ok_iff_not_inConflict.1 hbuild
    have hsymbols : (unitSymbols families).Nodup := Classical.byContradiction fun h => hnone (.symbol h)
    refine Option.eq_none_iff_forall_ne_some.2 fun other hother => ?_
    have hmem := mem_unitSymbols.2 ⟨other, (findSymbol?_draft hsymbols).1 hother⟩
    refine hnone (.reading hmem hallowed hlisted hfirst hf hu hp ?_)
    rw [String.ofList_toList]
    exact hb
  | names hname hunit hfind hsymbol hsplit => exact hsymbol

/-- A prefix before a unit is found as the two, if nothing that is tried before takes the text. -/
theorem Spelt.lookup {before after : List SiPrefix} (h : Spelt r p e s)
    (hbuild : build families (before ++ p :: after) allowed aliases = .ok r) (hf : e.family ∈ families)
    (hu : e.unit ∈ e.family.units) (hp : e.isPrefixable = true) (hallowed : s ∉ allowed)
    (huntaken : Untaken r before s) : r.find? s = none ∧ r.findPrefixed? s = .ok (some (p, e)) := by
  have hlisted : p ∈ before ++ p :: after := List.mem_append_right _ List.mem_cons_self
  have hprefixes : r.prefixes = before ++ p :: after := by
    rw [(build_eq_ok_iff_not_inConflict.1 hbuild).1]
    exact holds_draft.prefixes
  constructor
  · rw [find?, h.findSymbol? hbuild hlisted hf hu hp hallowed, huntaken.name]
    rfl
  · rw [findPrefixed?, hprefixes]
    exact splitByFirst_append (fun q hq => splitBy_eq_ok_none (huntaken.named q hq) (huntaken.bySymbol q hq)
      (huntaken.byName q hq)) (h.splitBy hbuild hf hu hp)

end

/-! ## Scales under prefixes -/

/-- the powers of a scale that a prefix stands for -/
def powerOf (p : SiPrefix) : Base → Int
  | .two | .five => p.exponent
  | .three | .pi => 0

theorem reaches_scale (p : SiPrefix) : Scale.Reaches (powerOf p) p.scale := by
  have hpower : powerOf p = fun | .two | .five => p.exponent | .three | .pi => 0 := funext fun b => by cases b <;> rfl
  rw [hpower]
  exact Scale.reaches_ofInts _ _

/-- the exponents of a scale under a prefix -/
def prefixedExponent (p : SiPrefix) (s : Scale) (b : Base) : Int := (s.get b).val + powerOf p b

/-- the power of ten is an exponent, and so are all that come of it -/
structure Fits (p : SiPrefix) (s : Scale) : Prop where
  ten : InRange p.exponent
  product : ∀ b, InRange (prefixedExponent p s b)

/-- the scale of a unit under a prefix -/
def prefixedScale (p : SiPrefix) (s : Scale) : Outcome Scale := do s.mul (← p.scale)

theorem not_fits_of_scale {fault : Fault} (h : p.scale = .error fault) (s : Scale) :
    ¬ Fits p s ∧ ∃ cause, fault = .unit (.scaleOverflow cause) := by
  have hten := reaches_scale p
  rw [h] at hten
  obtain ⟨⟨b, hb⟩, hcause⟩ := hten
  refine ⟨fun hfits => ?_, hcause⟩
  cases b with
  | two | five => exact hb hfits.ten
  | three | pi => exact hb (Nat.zero_le _)

/-- a prefix leads to the scale with the exponents wanted, or to an overflow where they do not fit -/
theorem prefixedScale_spec (p : SiPrefix) (s : Scale) :
    (Fits p s → ∃ t, prefixedScale p s = .ok t ∧ ∀ b, (t.get b).val = prefixedExponent p s b) ∧
      (¬ Fits p s → ∃ cause, prefixedScale p s = .error (.unit (.scaleOverflow cause))) := by
  unfold prefixedScale
  cases hscale : p.scale with
  | error fault =>
    obtain ⟨hnot, cause, rfl⟩ := not_fits_of_scale hscale s
    exact ⟨fun h => absurd h hnot, fun _ => ⟨cause, rfl⟩⟩
  | ok ten =>
    have hten := reaches_scale p
    rw [hscale] at hten
    have hwanted : (fun b => (s.get b).val + (ten.get b).val) = prefixedExponent p s := funext fun b => congrArg _ (hten b)
    have hproduct := hwanted ▸ Scale.reaches_mul s ten
    change (_ → ∃ t, s.mul ten = .ok t ∧ _) ∧ (_ → ∃ cause, s.mul ten = _)
    refine ⟨fun hfits => hproduct.exists_of_inRange hfits.product, fun hnot => ?_⟩
    cases hmul : s.mul ten with
    | error fault =>
      rw [hmul] at hproduct
      obtain ⟨_, cause, rfl⟩ := hproduct
      exact ⟨cause, rfl⟩
    | ok t =>
      rw [hmul] at hproduct
      have htwo : (ten.get .two).val = p.exponent := hten .two
      exact absurd ⟨htwo ▸ (ten.get .two).bounded, fun b => hproduct b ▸ (t.get b).bounded⟩ hnot

/-! ## Meanings -/

/-- a unit under a prefix: the dimension of the unit, its scale times a power of ten, no factor and no offset -/
structure UnderPrefix (p : SiPrefix) (e : Entry κ) (m : UnitMeaning κ) : Prop where
  dimension : m.dimension = e.family.dimension
  scale : ∀ b, (m.scale.get b).val = prefixedExponent p e.unit.scale b
  factor : Numeric.isOne m.factor = true
  offset : Numeric.isZero m.offset = true

theorem isStorage_of_isPrefixable (h : e.isPrefixable = true) : e.unit.isStorage = true := by
  simp only [Entry.isPrefixable, UnitFamily.isPrefixable, Bool.and_eq_true] at h
  exact h.2

theorem isOne_and_isZero_of_isStorage {u : UnitDef κ} (h : u.isStorage = true) :
    Numeric.isOne u.factor = true ∧ Numeric.isZero u.offset = true := by
  simpa only [UnitDef.isStorage, UnitDef.hasFactor, UnitDef.hasOffset, Bool.not_not, Bool.and_eq_true] using h

theorem resolve_of_split (hfind : r.find? s = none) (hsplit : r.findPrefixed? s = .ok (some (p, e)))
    (hp : e.isPrefixable = true) (strict : Bool) :
    resolve r strict s = (prefixedScale p e.unit.scale).map fun scale => meaningOf e.unit e.family scale s := by
  have hlookup : lookupName r s = (prefixedScale p e.unit.scale).map fun scale => some (e, scale) := by
    rw [lookupName, hfind, hsplit, prefixedScale]
    change (p.scale >>= fun ten => e.unit.scale.mul ten >>= fun scale => .ok (some (e, scale))) = _
    cases p.scale with
    | error fault => rfl
    | ok ten =>
      change (e.unit.scale.mul ten >>= fun scale => .ok (some (e, scale))) =
        (e.unit.scale.mul ten).map fun scale => some (e, scale)
      cases e.unit.scale.mul ten <;> rfl
  rw [resolve, hlookup]
  cases prefixedScale p e.unit.scale with
  | error fault => rfl
  | ok scale =>
    change (if (strict && !e.unit.isStorage) = true then _ else _) = _
    rw [isStorage_of_isPrefixable hp, Bool.not_true, Bool.and_false, if_neg Bool.false_ne_true]
    rfl

/-- **Prefixes are transparent.** In a registry that is accepted, a prefix before a prefixable unit means the unit in
the scale of the prefix, if nothing that is tried before takes the text. An exponent that does not fit is reported. -/
theorem transparent_of_untaken {families : List (UnitFamily κ)} {before after : List SiPrefix} {allowed : List String}
    {aliases : List (String × String)} (hbuild : build families (before ++ p :: after) allowed aliases = .ok r)
    (hf : e.family ∈ families) (hu : e.unit ∈ e.family.units) (hp : e.isPrefixable = true) (hspelt : Spelt r p e s)
    (hallowed : s ∉ allowed) (huntaken : Untaken r before s) (strict : Bool) :
    (Fits p e.unit.scale → ∃ m, resolve r strict s = .ok m ∧ UnderPrefix p e m) ∧
      (¬ Fits p e.unit.scale → ∃ cause, resolve r strict s = .error (.unit (.scaleOverflow cause))) := by
  obtain ⟨hfind, hsplit⟩ := hspelt.lookup hbuild hf hu hp hallowed huntaken
  rw [resolve_of_split hfind hsplit hp]
  obtain ⟨hfits, hoverflow⟩ := prefixedScale_spec p e.unit.scale
  constructor
  · intro h
    obtain ⟨scale, hscale, hexponents⟩ := hfits h
    obtain ⟨hone, hzero⟩ := isOne_and_isZero_of_isStorage (isStorage_of_isPrefixable hp)
    rw [hscale]
    exact ⟨_, rfl, rfl, hexponents, hone, hzero⟩
  · intro h
    obtain ⟨cause, hcause⟩ := hoverflow h
    rw [hcause]
    exact ⟨cause, rfl⟩

/-! ### What is tried before -/

namespace Sample

def mega : SiPrefix := ⟨"mega", "M", 6, []⟩

/-- seconds by a symbol, with more units -/
def times (symbol : String) (more : List (UnitDef Float)) : UnitFamily Float :=
  ⟨"Time", "T", { time := 1 }, ⟨"second", symbol, [], .one, Numeric.one, Numeric.zero, .metric⟩ :: more⟩

end Sample

open Sample

/-- kilometers, by symbols and by names -/
theorem transparent_kilometer :
    ∃ r, build [lengths, times "s" []] [mega, kilo] [] [] = .ok r ∧ ∀ s ∈ ["km", "kmetre", "kilometer"],
      ∃ m, resolve r true s = .ok m ∧ UnderPrefix kilo ⟨meter, lengths⟩ m := by
  let r := folded [lengths, times "s" []] [mega, kilo] [] []
  have hbuild : build [lengths, times "s" []] ([mega] ++ [kilo]) [] [] = .ok r :=
    build_eq_ok_iff.2 ⟨rfl, by decide +kernel, by decide +kernel⟩
  have hfind : r.findName? "meter" = some ⟨meter, lengths⟩ := by
    rw [(builtFrom_folded _ _ _ _).names]
    exact Directory.find?_of_mem (by decide +kernel) (mem_nameListing.2
      ⟨List.mem_cons_self, List.mem_cons_self, "meter", List.mem_cons_self, rfl⟩)
  have hspelt : ∀ s ∈ ["km", "kmetre", "kilometer"], Spelt r kilo ⟨meter, lengths⟩ s := by
    intro s hs
    simp only [List.mem_cons, List.not_mem_nil, or_false] at hs
    rcases hs with rfl | rfl | rfl
    · exact .symbols (a := "k") (b := "m") (by decide) (by decide) (by decide)
    · exact .symbols (a := "k") (b := "metre") (by decide) (by decide) (by decide)
    · exact .names (by decide) (by decide) hfind (by decide +kernel) (by decide +kernel)
  have huntaken : ∀ s ∈ ["km", "kmetre", "kilometer"], Untaken r [mega] s := fun s hs =>
    ⟨by revert s; decide +kernel, by decide, by revert s; decide +kernel, by revert s; decide +kernel⟩
  have hfits : Fits kilo meter.scale := ⟨by decide, fun b => by cases b <;> decide⟩
  refine ⟨r, hbuild, fun s hs => ?_⟩
  exact (transparent_of_untaken hbuild List.mem_cons_self List.mem_cons_self (by decide +kernel) (hspelt s hs)
    List.not_mem_nil (huntaken s hs) true).1 hfits

/-- every prefix before every prefixable unit is read as the two -/
def Transparent (families : List (UnitFamily κ)) (prefixes : List SiPrefix) (allowed : List String)
    (aliases : List (String × String)) : Prop :=
  ∀ r, build families prefixes allowed aliases = .ok r → ∀ p ∈ prefixes, ∀ e : Entry κ, e.family ∈ families →
    e.unit ∈ e.family.units → e.isPrefixable = true → ∀ s, s ∉ allowed →
      (∃ a ∈ p.symbols, ∃ b ∈ e.unit.symbols, s = a ++ b) ∨ s = p.name ++ e.unit.name →
        ∃ m, resolve r false s = .ok m ∧ UnderPrefix p e m

/-- a catalog without conflicts, in which some prefix before a meter does not lead to a length -/
theorem not_transparent_of_meter {families : List (UnitFamily Float)} {prefixes : List SiPrefix} {a : String}
    (hbuild : (draft families prefixes [] []).conflicts = [] ∧ (folded families prefixes [] []).prefixedReadings = [])
    (hp : p ∈ prefixes) (ha : a ∈ p.symbols) (hf : lengths ∈ families)
    (hresolve : (resolve (folded families prefixes [] []) false (a ++ "m")).toOption.map UnitMeaning.dimension ≠
      some lengths.dimension) : ¬ Transparent families prefixes [] [] := by
  intro h
  have hok : build families prefixes [] [] = .ok (folded families prefixes [] []) := build_eq_ok_iff.2 ⟨rfl, hbuild⟩
  obtain ⟨m, hm, hunder⟩ := h _ hok p hp ⟨meter, lengths⟩ hf List.mem_cons_self (by decide +kernel) (a ++ "m")
    List.not_mem_nil (.inl ⟨a, ha, "m", List.mem_cons_self, rfl⟩)
  rw [hm] at hresolve
  exact hresolve (congrArg some hunder.dimension)

/-- **Acceptance is not transparency.** A unit may have the name of a prefixed symbol; an earlier prefix may split the
text in another place, and so may another symbol of the prefix; the power of ten may be no exponent. -/
theorem accepted_not_transparent :
    ¬ Transparent [lengths, times "s" [⟨"km", "zz", [], .one, Numeric.one, Numeric.zero, .metric⟩]] [kilo] [] [] ∧
      ¬ Transparent [lengths, times "bm" []] [⟨"aa", "a", 1, []⟩, ⟨"abb", "ab", 2, []⟩] [] [] ∧
        ¬ Transparent [lengths] [⟨"aa", "a", 1, ["ab"]⟩] [] [] ∧
          ¬ Transparent [lengths] [⟨"huge", "h", 40000, []⟩] [] [] := by
  refine ⟨?_, ?_, ?_, ?_⟩
  · exact not_transparent_of_meter (a := "k") (by decide +kernel) List.mem_cons_self (by decide) List.mem_cons_self
      (by decide +kernel)
  · exact not_transparent_of_meter (a := "ab") (by decide +kernel) (List.mem_cons_of_mem _ List.mem_cons_self)
      (by decide) List.mem_cons_self (by decide +kernel)
  · exact not_transparent_of_meter (a := "ab") (by decide +kernel) List.mem_cons_self (by decide) List.mem_cons_self
      (by decide +kernel)
  · exact not_transparent_of_meter (a := "h") (by decide +kernel) List.mem_cons_self (by decide) List.mem_cons_self
      (by decide +kernel)

end UnitAlgebra.Registry

/-
Which storage units have names. The built-in registry names a dimension in every scale that can be written, with one
exception: masses, volumes and kinematic viscosities at the upper end of the exponents. Their base units, the gram, the
liter and the stokes, are smaller than the storage unit of scale one, and a scale is divided by that of the base unit
before it is known whether any prefix makes up the ratio. Where the ratio leaves the exponents the name is lost, though
it would have been written out as a factor; a text of a quantity is lost with it.

Results:
- `neg_scale_baseUnit`, `exists_prefixable`: how far the base units of the catalog are below one.
- `exists_compose`: every storage unit can be written out.
- `unnamed_registry_iff`: the storage units without a name, and why.
- `withUnitName_eq_error_iff`: when a quantity has no text.
- `unitName_total_iff`: names and texts in the built-in registry.
- `unitName_partial`: they are not made for all units.
-/
import UnitAlgebra.Proofs.Naming.Registries
import UnitAlgebra.Quantity.Written

namespace UnitAlgebra.Naming

open Catalog
open Session (beside formatted withUnitName written)

/-! ## Base units -/

/-- the power of ten that the base unit of a dimension is below its storage unit of scale one -/
def depth (d : Dimension) : Exponent :=
  if d = { mass := 1 } ∨ d = { length := 3 } then 3 else if d = { length := 2, time := -1 } then 4 else 0

/-- the ratio of a scale to that of the base unit has an exponent past the limit -/
def Beyond (d : Dimension) (s : Scale) : Prop := (exponentLimit : Int) < max s.two.val s.five.val + (depth d).val

instance (d : Dimension) (s : Scale) : Decidable (Beyond d s) := inferInstanceAs (Decidable (_ < _))

variable {d : Dimension} {s : Scale} {f : UnitFamily Float} {u : UnitDef Float}

theorem depth_nonneg (d : Dimension) : 0 ≤ (depth d).val := by
  unfold depth
  split
  · decide
  · split <;> decide

/-- nothing is beyond a base unit of scale one -/
theorem dimension_of_beyond (h : Beyond d s) :
    d ∈ [({ mass := 1 } : Dimension), { length := 3 }, { length := 2, time := -1 }] := by
  have htwo := s.two.bounded
  have hfive := s.five.bounded
  unfold Beyond at h
  simp only [List.mem_cons, List.not_mem_nil, or_false]
  by_contra hd
  have hzero : (depth d).val = 0 := by
    rw [depth, if_neg (by tauto), if_neg (by tauto)]
    rfl
  omega

/-- Base units that take prefixes are below one by a power of ten, if at all. -/
theorem neg_scale_baseUnit (hf : f ∈ (families : List (UnitFamily Float))) (hu : f.baseUnit? = some u)
    (hp : f.isPrefixable u = true) : u.scale.neg = .ten (depth f.dimension) := by
  have hall : ∀ f ∈ (families : List (UnitFamily Float)), ∀ u ∈ f.units,
      f.isPrefixable u = true → u.scale.neg = .ten (depth f.dimension) := by decide +kernel
  exact hall f hf u (List.mem_of_head? hu) hp

/-- where base units are below one, there is one that takes prefixes -/
theorem exists_prefixable (h : Beyond d s) : ∃ f ∈ (families : List (UnitFamily Float)), f.dimension = d ∧
    ∃ u, f.baseUnit? = some u ∧ f.isPrefixable u = true := by
  have hall : ∀ d ∈ [({ mass := 1 } : Dimension), { length := 3 }, { length := 2, time := -1 }],
      ∃ f ∈ (families : List (UnitFamily Float)), f.dimension = d ∧ f.baseUnit?.any f.isPrefixable = true := by
    decide +kernel
  obtain ⟨f, hf, hd, hany⟩ := hall d (dimension_of_beyond h)
  exact ⟨f, hf, hd, (Option.any_eq_true _ _).1 hany⟩

/-- no unit of the catalog is at the end of the exponents -/
theorem registered?_of_beyond (hf : f ∈ (families : List (UnitFamily Float))) (h : Beyond f.dimension s) :
    registered? f s = none := by
  have hall : ∀ f ∈ (families : List (UnitFamily Float)), ∀ u ∈ f.units, ¬ Beyond f.dimension u.scale := by
    decide +kernel
  rw [registered?, Option.map_eq_none_iff, List.find?_eq_none]
  intro u hu hfound
  obtain ⟨-, rfl⟩ : u.isStorage = true ∧ u.scale = s := by simpa using hfound
  exact hall f hf u hu h

/-- Ratios overflow at the upper end only: by twos or by fives, as powers of ten have no other exponents. -/
theorem beyond_iff_of_neg {t : Scale} (ht : t.neg = .ten (depth d)) :
    Beyond d s ↔ ∃ b, ¬ InRange ((s.get b).val - (t.get b).val) := by
  have hratio (b : Base) : (s.get b).val - (t.get b).val = (s.get b).val + ((Scale.ten (depth d)).get b).val := by
    rw [← ht, Scale.get_neg, Exponent.val_neg, sub_eq_add_neg]
  have hdepth := depth_nonneg d
  simp only [hratio, InRange, Beyond]
  constructor
  · intro h
    rcases le_total s.two.val s.five.val with hle | hle
    · refine ⟨.five, ?_⟩
      simp only [Scale.get, Scale.ten]
      omega
    · refine ⟨.two, ?_⟩
      simp only [Scale.get, Scale.ten]
      omega
  · rintro ⟨b, hb⟩
    have hbounded := (s.get b).bounded
    cases b with
    | two | five =>
      simp only [Scale.get, Scale.ten] at hb hbounded
      omega
    | three | pi =>
      change ¬ ((s.get _).val + 0).natAbs ≤ exponentLimit at hb
      omega

/-! ## Names -/

/-- Every storage unit can be written out, and what is written reads back. -/
theorem exists_compose (d : Dimension) (s : Scale) : ∃ text, compose registry d s = .ok text ∧ Names text d s := by
  cases h : compose registry d s with
  | ok text => exact ⟨text, rfl, names_of_spells (spells_compose (speaks_registry d s) h)⟩
  | error fault => exact absurd (hasBase_registry d) (compose_eq_error_iff.1 h).1

/-- the fault of a unit without a name -/
def farOffFault (d : Dimension) (s : Scale) : Fault := .unit (.scaleOverflow (.product s (.ten (depth d))))

/-- A storage unit has no name exactly if its scale is beyond the base unit. -/
theorem unnamed_registry_iff {fault : Fault} : Unnamed registry d s fault ↔ Beyond d s ∧ fault = farOffFault d s := by
  constructor
  · intro h
    cases h with
    | @farOff f u _ hf _ hu hp b hfar =>
      obtain ⟨hmem, rfl⟩ := builtFrom.dimensions d f hf
      have hneg := neg_scale_baseUnit hmem hu hp
      exact ⟨(beyond_iff_of_neg hneg).2 ⟨b, hfar⟩, by rw [farOffFault, hneg]⟩
    | baseless hbase => exact absurd (hasBase_registry d) hbase
  · rintro ⟨h, rfl⟩
    obtain ⟨f, hmem, rfl, u, hu, hp⟩ := exists_prefixable h
    have hneg := neg_scale_baseUnit hmem hu hp
    obtain ⟨b, hfar⟩ := (beyond_iff_of_neg hneg).1 h
    rw [farOffFault, ← hneg]
    refine .farOff ?_ (familyOf?_registry hmem) (registered?_of_beyond hmem h) hu hp b hfar
    rw [Bool.eq_false_iff]
    intro hone
    rw [of_decide_eq_true hone] at h
    exact absurd (dimension_of_beyond h) (by decide)

theorem unitName_registry_eq_error_iff {fault : Fault} :
    unitName registry d s = .error fault ↔ Beyond d s ∧ fault = farOffFault d s :=
  unitName_eq_error_iff.trans unnamed_registry_iff

/-- All other units have names, and these read back. -/
theorem exists_unitName_iff : (∃ text, unitName registry d s = .ok text ∧ Names text d s) ↔ ¬ Beyond d s := by
  constructor
  · rintro ⟨text, htext, -⟩ h
    exact nomatch htext.symm.trans (unitName_registry_eq_error_iff.2 ⟨h, rfl⟩)
  · intro h
    cases hname : unitName registry d s with
    | ok text => exact ⟨text, rfl, names_of_spells (spells_unitName hname)⟩
    | error fault => exact absurd (unitName_registry_eq_error_iff.1 hname).1 h

/-! ## Texts of quantities -/

section

variable {c : Context Float} {m : Store Float} {q : Quantity (Operand Float)} {value : Session Float String}

/-- a quantity that is written without a unit -/
def IsNumber (q : Quantity (Operand Float)) : Prop := q.dimension = .one ∧ q.scale = .one

theorem withUnitName_of_isNumber (h : IsNumber q) : withUnitName q value = value :=
  if_pos (by rw [h.1, h.2]; rfl)

/-- The name of a unit is looked up first, in the registry in force. -/
theorem withUnitName_of_unit (h : ¬ IsNumber q) : withUnitName q value c m =
    (unitName c.registry q.dimension q.scale >>= fun name => (value c m).map fun r => (beside r.1 name, r.2)) := by
  have hunit : ¬ (q.dimension.isOne && q.scale.isOne) = true := fun hone =>
    h ((Bool.and_eq_true_iff.1 hone).imp of_decide_eq_true of_decide_eq_true)
  unfold withUnitName
  rw [if_neg hunit]
  change ((unitName c.registry q.dimension q.scale >>= fun name => .ok (name, m)) >>= fun r =>
    value c r.2 >>= fun shown => .ok (beside shown.1 r.1, shown.2)) = _
  cases unitName c.registry q.dimension q.scale with
  | error cause => rfl
  | ok name =>
    change (value c m >>= fun shown => .ok (beside shown.1 name, shown.2)) = (value c m).map _
    cases value c m <;> rfl

/-- In the built-in registry a text fails with the name of its unit, and otherwise only with its value. -/
theorem withUnitName_eq_error_iff {p : ScalePolicy} {fault : Fault} :
    withUnitName q value ⟨p, registry⟩ m = .error fault ↔
      Beyond q.dimension q.scale ∧ fault = farOffFault q.dimension q.scale ∨
        ¬ Beyond q.dimension q.scale ∧ value ⟨p, registry⟩ m = .error fault := by
  by_cases hb : Beyond q.dimension q.scale
  · have hunit : ¬ IsNumber q := fun h => absurd (h.1 ▸ dimension_of_beyond hb) (by decide)
    rw [withUnitName_of_unit hunit, unitName_registry_eq_error_iff.2 ⟨hb, rfl⟩]
    change Except.error _ = Except.error fault ↔ _
    rw [Except.error.injEq]
    exact ⟨fun h => .inl ⟨hb, h.symm⟩, fun h => (h.resolve_right fun hnot => hnot.1 hb).2.symm⟩
  · have hvalue : withUnitName q value ⟨p, registry⟩ m = .error fault ↔ value ⟨p, registry⟩ m = .error fault := by
      by_cases hnumber : IsNumber q
      · rw [withUnitName_of_isNumber hnumber]
      · obtain ⟨name, hname, -⟩ := exists_unitName_iff.2 hb
        rw [withUnitName_of_unit hnumber, hname]
        change (value _ m).map _ = _ ↔ _
        cases value ⟨p, registry⟩ m with
        | error cause => exact ⟨fun h => congrArg _ (Except.error.inj h), fun h => congrArg _ (Except.error.inj h)⟩
        | ok shown => exact ⟨nofun, nofun⟩
    rw [hvalue]
    exact ⟨fun h => .inr ⟨hb, h⟩, fun h => (h.resolve_left fun hbeyond => hb hbeyond.1).2⟩

end

/-! ## Totality -/

/-- **Which units have names.** In the built-in registry every storage unit can be written out, but it has a name, which
reads back, exactly if its scale is not beyond the base unit of its dimension; that it is, is also the only fault. The
text of a quantity fails with this fault in just these units, and in all others only if its value cannot be written. -/
theorem unitName_total_iff (d : Dimension) (s : Scale) :
    (∃ text, compose registry d s = .ok text ∧ Names text d s) ∧
      ((∃ text, unitName registry d s = .ok text ∧ Names text d s) ↔ ¬ Beyond d s) ∧
      (∀ fault, unitName registry d s = .error fault ↔ Beyond d s ∧ fault = farOffFault d s) ∧
      ∀ (x : Operand Float) (p : ScalePolicy) (m : Store Float) (fault : Fault),
        written ⟨x, d, s⟩ ⟨p, registry⟩ m = .error fault ↔
          Beyond d s ∧ fault = farOffFault d s ∨ ¬ Beyond d s ∧ formatted x [] ⟨p, registry⟩ m = .error fault :=
  ⟨exists_compose d s, exists_unitName_iff, fun _ => unitName_registry_eq_error_iff,
    fun _ _ _ _ => withUnitName_eq_error_iff⟩

/-- **Names are not made for all units.** A mass of two to the power 32767 can be written out and read, and has no name;
nor has a quantity in it a text, nor a volume by fives or a viscosity by twos at the end of the exponents. -/
theorem unitName_partial :
    Names "2^32767*kg" { mass := 1 } { two := 32767 } ∧
      ¬ (∃ text, unitName registry { mass := 1 } { two := 32767 } = .ok text) ∧
      ¬ (∃ text, unitName registry { length := 3 } { five := 32767 } = .ok text) ∧
      ¬ (∃ text, unitName registry { length := 2, time := -1 } { two := 32764 } = .ok text) ∧
      ∀ r, written ⟨.number 1.0, { mass := 1 }, { two := 32767 }⟩ ⟨.smallerWins, registry⟩ ⟨[]⟩ ≠ .ok r := by
  have hnone {d : Dimension} {s : Scale} (h : Beyond d s) : ¬ ∃ text, unitName registry d s = .ok text :=
    fun ⟨_, htext⟩ => nomatch htext.symm.trans (unitName_registry_eq_error_iff.2 ⟨h, rfl⟩)
  have hmass : Beyond { mass := 1 } { two := 32767 } := by decide
  refine ⟨names_of_spells (spells_compose (speaks_registry _ _) compose_far), hnone hmass, hnone (by decide),
    hnone (by decide), fun r hr => ?_⟩
  have hfails : written ⟨.number 1.0, { mass := 1 }, { two := 32767 }⟩ ⟨.smallerWins, registry⟩ ⟨[]⟩ =
      .error (farOffFault { mass := 1 } { two := 32767 }) := withUnitName_eq_error_iff.2 (.inl ⟨hmass, rfl⟩)
  exact nomatch hr.symm.trans hfails

end UnitAlgebra.Naming

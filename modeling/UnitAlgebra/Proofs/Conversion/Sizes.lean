/-
Sizes of units, in exact numbers. A unit without an offset is a multiple of the unit of its dimension whose scale is
one: its factor times the factor of its scale. Sizes are multiplied, divided and raised as the units are, and a number
is converted by the quotient of two sizes.

Results:
- `parts_mul`, `parts_div`, `parts_pow`: sizes and exponents of products, quotients and powers.
- `rescale_linear`: a number is converted by the quotient of the sizes.
- `exists_mul`, `exists_div`, `exists_pow`: products, quotients and powers whose exponents are in range.
- `within_of_gap`: conversions between scales that do not differ too much are not refused.
-/
import UnitAlgebra.Proofs.Conversion.Groupoid

namespace UnitAlgebra

/-! ## Scales as factors -/

theorem Scale.real_pow {s t : Scale} {n : ℤ} (h : ∀ b, (t.get b).val = n * (s.get b).val) : t.real = s.real ^ n := by
  rw [← zpow_one t.real]
  exact real_zpow fun b => by rw [one_mul, h]

theorem powers_gap_real (s t : Scale) : powers ℝ (s.gap t) = s.real / t.real := by
  have helement (b : Base) : b.element ℝ = b.real := by
    cases b with
    | pi => rfl
    | _ => norm_num [Base.element, Base.real]
  rw [eq_div_iff t.real_pos.ne']
  unfold powers Scale.real
  rw [← List.prod_map_mul]
  refine congrArg List.prod (List.map_congr_left fun b _ => ?_)
  rw [helement, Scale.gap, zpow_sub₀ b.real_pos.ne', div_mul_cancel₀ _ (zpow_pos b.real_pos _).ne']

namespace UnitMeaning

/-! ## Sizes -/

/-- how many of the unit of its dimension in the scale one a unit is -/
noncomputable def size (u : UnitMeaning ℝ) : ℝ := u.factor * u.scale.real

/-- a unit without an offset, and with a positive factor -/
structure IsLinear (u : UnitMeaning ℝ) : Prop where
  offset : u.offset = 0
  positive : 0 < u.factor

variable {u v w : UnitMeaning ℝ}

theorem IsLinear.size_pos (h : u.IsLinear) : 0 < u.size := mul_pos h.positive u.scale.real_pos

/-- A number is converted by the quotient of the sizes. -/
theorem rescale_linear (hu : u.IsLinear) (hv : v.IsLinear) (hd : u.dimension = v.dimension) (h : Within u v) (x : ℝ) :
    rescale x u v = .ok (x * (u.size / v.size)) := by
  obtain ⟨-, hok⟩ := h.rescale_eq hd hv.positive.ne'
  rw [hok, carried, hu.offset, hv.offset, powers_gap_real, size, size]
  have hfactor := hv.positive.ne'
  have hscale := v.scale.real_pos.ne'
  congr 1
  field_simp
  ring

/-- Conversions between scales that do not differ too much are not refused. -/
theorem within_of_gap (hv : v.IsLinear) (hd : u.dimension = v.dimension)
    (h : ∀ b, InRange ((u.scale.get b).val - (v.scale.get b).val)) : Within u v := by
  obtain ⟨s, hs, -⟩ := (Scale.reaches_div u.scale v.scale).exists_of_inRange h
  refine within_of_ratio hd hv.positive.ne' (r := s.real) ?_
  rw [Numeric.ratio, hs]
  rfl

/-! ## Products, quotients and powers -/

theorem power_of_pos {x : ℝ} (hx : 0 < x) (n : ℤ) : Numeric.power x n = .ok (x ^ n) := if_neg fun h => hx.ne' h.1

theorem isZero_of_pos {x : ℝ} (hx : 0 < x) : Numeric.isZero x = false := by
  rw [Bool.eq_false_iff]
  exact fun h => hx.ne' ((Numeric.isZero_iff x).1 h)

/-- sizes and exponents of a unit -/
structure Parts (u : UnitMeaning ℝ) (d : Axis → ℤ) (s : Base → ℤ) (x : ℝ) : Prop where
  dimension : ∀ a, (u.dimension.get a).val = d a
  scale : ∀ b, (u.scale.get b).val = s b
  linear : u.IsLinear
  size : u.size = x

theorem IsLinear.parts (h : u.IsLinear) :
    u.Parts (fun a => (u.dimension.get a).val) (fun b => (u.scale.get b).val) u.size :=
  ⟨fun _ => rfl, fun _ => rfl, h, rfl⟩

variable {d e : Axis → ℤ} {s t : Base → ℤ} {x y : ℝ}

theorem parts_mul (hu : u.Parts d s x) (hv : v.Parts e t y) (h : u.mul v = .ok w) :
    w.Parts (fun a => d a + e a) (fun b => s b + t b) (x * y) := by
  obtain ⟨hdimension, hscale⟩ := (follows_mul u v True).exponents w h
  obtain ⟨c, -, hrest⟩ := Outcome.bind_eq_ok_iff.1 h
  obtain ⟨r, hr, hw⟩ := Outcome.bind_eq_ok_iff.1 hrest
  cases hw
  refine ⟨fun a => ?_, fun b => ?_, ⟨Numeric.Exact.zero, mul_pos hu.linear.positive hv.linear.positive⟩, ?_⟩
  · rw [hdimension, hu.dimension, hv.dimension]
  · rw [hscale, hu.scale, hv.scale]
  · change u.factor * v.factor * r.real = x * y
    rw [Scale.real_mul hr, ← hu.size, ← hv.size, size, size]
    ring

theorem parts_div (hu : u.Parts d s x) (hv : v.Parts e t y) (h : u.div v = .ok w) :
    w.Parts (fun a => d a - e a) (fun b => s b - t b) (x / y) := by
  obtain ⟨hdimension, hscale⟩ := (follows_div u v).exponents w h
  obtain ⟨c, -, hrest⟩ := Outcome.bind_eq_ok_iff.1 h
  obtain ⟨r, hr, hw⟩ := Outcome.bind_eq_ok_iff.1 hrest
  rw [isZero_of_pos hv.linear.positive] at hw
  cases hw
  refine ⟨fun a => ?_, fun b => ?_, ⟨Numeric.Exact.zero, div_pos hu.linear.positive hv.linear.positive⟩, ?_⟩
  · rw [hdimension, hu.dimension, hv.dimension]
  · rw [hscale, hu.scale, hv.scale]
  · change u.factor / v.factor * r.real = x / y
    rw [Scale.real_div hr, ← hu.size, ← hv.size, size, size]
    exact div_mul_div_comm _ _ _ _

theorem parts_pow (hu : u.Parts d s x) {n : ℤ} (h : u.pow n = .ok w) :
    w.Parts (fun a => n * d a) (fun b => n * s b) (x ^ n) := by
  obtain ⟨hdimension, hscale⟩ := (follows_pow u n).exponents w h
  have hfactor : w.offset = 0 ∧ w.factor = u.factor ^ n := by
    unfold pow at h
    split at h
    · next hn =>
      cases h
      exact ⟨hu.linear.offset, by rw [hn, zpow_one]⟩
    · obtain ⟨c, -, hrest⟩ := Outcome.bind_eq_ok_iff.1 h
      obtain ⟨r, -, hw⟩ := Outcome.bind_eq_ok_iff.1 hrest
      rw [power_of_pos hu.linear.positive] at hw
      cases hw
      exact ⟨Numeric.Exact.zero, rfl⟩
  refine ⟨fun a => ?_, fun b => ?_, ⟨hfactor.1, ?_⟩, ?_⟩
  · rw [hdimension, hu.dimension]
  · rw [hscale, hu.scale]
  · rw [hfactor.2]
    exact zpow_pos hu.linear.positive n
  · rw [size, hfactor.2, Scale.real_pow hscale, ← mul_zpow, ← hu.size, size]

theorem exists_mul (hu : u.Parts d s x) (hv : v.Parts e t y) (hd : ∀ a, InRange (d a + e a))
    (hs : ∀ b, InRange (s b + t b)) :
    ∃ w, u.mul v = .ok w ∧ w.Parts (fun a => d a + e a) (fun b => s b + t b) (x * y) := by
  obtain ⟨w, hw⟩ := ((follows_mul u v True).returns trivial).2
    ⟨fun a => by rw [hu.dimension, hv.dimension]; exact hd a, fun b => by rw [hu.scale, hv.scale]; exact hs b⟩
  exact ⟨w, hw, parts_mul hu hv hw⟩

theorem exists_div (hu : u.Parts d s x) (hv : v.Parts e t y) (hd : ∀ a, InRange (d a - e a))
    (hs : ∀ b, InRange (s b - t b)) :
    ∃ w, u.div v = .ok w ∧ w.Parts (fun a => d a - e a) (fun b => s b - t b) (x / y) := by
  obtain ⟨w, hw⟩ := ((follows_div u v).returns (isZero_of_pos hv.linear.positive)).2
    ⟨fun a => by rw [hu.dimension, hv.dimension]; exact hd a, fun b => by rw [hu.scale, hv.scale]; exact hs b⟩
  exact ⟨w, hw, parts_div hu hv hw⟩

theorem exists_pow (hu : u.Parts d s x) {n : ℤ} (hd : ∀ a, InRange (n * d a)) (hs : ∀ b, InRange (n * s b)) :
    ∃ w, u.pow n = .ok w ∧ w.Parts (fun a => n * d a) (fun b => n * s b) (x ^ n) := by
  obtain ⟨w, hw⟩ := ((follows_pow u n).returns ⟨_, power_of_pos hu.linear.positive n⟩).2
    ⟨fun a => by rw [hu.dimension]; exact hd a, fun b => by rw [hu.scale]; exact hs b⟩
  exact ⟨w, hw, parts_pow hu hw⟩

end UnitMeaning

end UnitAlgebra

/-
Conversion in an exact field. A unit is an affine map into its storage unit, and the scales of two storage units differ
by a product of powers; so conversions compose as the maps do. The only thing that stands in the way is a ratio of
scales that is refused.

The field may have any characteristic: where two is zero, the factor of a scale with twos in it is zero, and such a
factor is refused.

Results:
- `ratio_eq_gap`: the ratio of two scales is the product of the powers by which they differ.
- `gap_mul_gap`: ratios that are not refused compose.
- `rescale_eq`: a conversion that is not refused is the affine map of one unit followed by the inverse of the other.
- `rescale_groupoid`: identity, inverse and composition, and when dimensions are refused.
-/
import Mathlib
import UnitAlgebra.Proofs.Conversion.Numbers
import UnitAlgebra.Proofs.Numeric.Exact

namespace UnitAlgebra

/-! ## Exact fields -/

/-- a field whose arithmetic the library uses as it is -/
class ExactField (K : Type) [Field K] [Numeric K] where
  /-- what stands for pi -/
  pi : K
  zero : (Numeric.zero : K) = 0
  one : (Numeric.one : K) = 1
  add (x y : K) : Numeric.add x y = x + y
  sub (x y : K) : Numeric.sub x y = x - y
  mul (x y : K) : Numeric.mul x y = x * y
  div (x y : K) : Numeric.div x y = x / y
  eq (x y : K) : Numeric.eq x y = true ↔ x = y
  /-- a scale may be refused, and it is if its factor is zero -/
  factor? (s : Scale) (x : K) : Numeric.factor? s = some x →
    x = 2 ^ s.two.val * 3 ^ s.three.val * 5 ^ s.five.val * pi ^ s.pi.val ∧ x ≠ 0

theorem real_of_factor? (s : Scale) (x : ℝ) (h : Numeric.factor? s = some x) :
    x = 2 ^ s.two.val * 3 ^ s.three.val * 5 ^ s.five.val * Real.pi ^ s.pi.val ∧ x ≠ 0 := by
  rw [Numeric.Exact.factor? s x h]
  refine ⟨?_, s.real_pos.ne'⟩
  simp [Scale.real, Base.all, Base.real, Scale.get, mul_assoc]

noncomputable instance : ExactField ℝ where
  pi := Real.pi
  zero := Numeric.Exact.zero
  one := Numeric.Exact.one
  add := Numeric.Exact.add
  sub := Numeric.Exact.sub
  mul := Numeric.Exact.mul
  div := Numeric.Exact.div
  eq := Numeric.Exact.eq
  factor? := real_of_factor?

variable {K : Type} [Field K] [Numeric K] [ExactField K]

/-! ## Scales by which others differ -/

/-- the element of the field for a base -/
def Base.element (K : Type) [Field K] [Numeric K] [ExactField K] : Base → K
  | two => (2 : ℕ)
  | three => (3 : ℕ)
  | five => (5 : ℕ)
  | pi => ExactField.pi

/-- the product of the bases to the powers given -/
def powers (K : Type) [Field K] [Numeric K] [ExactField K] (e : Base → ℤ) : K :=
  (Base.all.map fun b => b.element K ^ e b).prod

/-- the powers by which one scale differs from another -/
def Scale.gap (s t : Scale) (b : Base) : ℤ := (s.get b).val - (t.get b).val

/-- a product of powers is zero only by a base that is zero and takes part in it -/
theorem element_ne_zero_of_powers {e : Base → ℤ} (h : powers K e ≠ 0) (b : Base) : b.element K ≠ 0 ∨ e b = 0 := by
  by_contra hb
  push Not at hb
  refine h (List.prod_eq_zero (List.mem_map.2 ⟨b, b.mem_all, ?_⟩))
  rw [hb.1, zero_zpow _ hb.2]

theorem powers_add {e f : Base → ℤ} (he : powers K e ≠ 0) (hf : powers K f ≠ 0) :
    powers K (fun b => e b + f b) = powers K e * powers K f := by
  unfold powers
  rw [← List.prod_map_mul]
  refine congrArg List.prod (List.map_congr_left fun b _ => ?_)
  rcases element_ne_zero_of_powers he b with hb | hb
  · exact zpow_add₀ hb _ _
  · rcases element_ne_zero_of_powers hf b with hb' | hb'
    · exact zpow_add₀ hb' _ _
    · simp [hb, hb']

theorem powers_zero : powers K (fun _ => 0) = 1 := by simp [powers]

/-- Ratios that are not refused compose. -/
theorem gap_mul_gap {s t w : Scale} (h : powers K (s.gap t) ≠ 0) (h' : powers K (t.gap w) ≠ 0) :
    powers K (s.gap t) * powers K (t.gap w) = powers K (s.gap w) := by
  rw [← powers_add h h']
  refine congrArg (powers K) (funext fun b => ?_)
  simp only [Scale.gap]
  omega

theorem gap_self (s : Scale) : powers K (s.gap s) = 1 := by
  rw [← powers_zero (K := K)]
  exact congrArg (powers K) (funext fun b => sub_self _)

/-- The ratio of two scales is the product of the powers by which they differ. -/
theorem ratio_eq_gap {s t : Scale} {r : K} (h : Numeric.ratio s t = .ok r) :
    r = powers K (s.gap t) ∧ powers K (s.gap t) ≠ 0 := by
  unfold Numeric.ratio at h
  cases hdiv : s.div t with
  | error fault =>
    rw [hdiv] at h
    cases h
  | ok u =>
    have hget : ∀ b, (u.get b).val = s.gap t b := by
      have := Scale.reaches_div s t
      rwa [hdiv] at this
    rw [hdiv] at h
    change Numeric.factor u = .ok r at h
    unfold Numeric.factor at h
    split at h
    · next y hy =>
      cases h
      obtain ⟨hr, hne⟩ := ExactField.factor? u r hy
      have hpowers : powers K (s.gap t) = r := by
        rw [hr]
        simp only [powers, Base.all, List.map_cons, List.map_nil, ← hget]
        simp [Base.element, Scale.get, mul_assoc]
      exact ⟨hpowers.symm, hpowers ▸ hne⟩
    · cases h

omit [Field K] [ExactField K] in
/-- a ratio is refused only by an overflow of scales -/
theorem overflow_of_ratio {s t : Scale} {fault : Fault} (h : (Numeric.ratio s t : Outcome K) = .error fault) :
    ∃ cause, fault = .unit (.scaleOverflow cause) := by
  unfold Numeric.ratio at h
  have hdiv := Scale.reaches_div s t
  cases hs : s.div t with
  | error fault' =>
    rw [hs] at h hdiv
    cases h
    exact hdiv.2
  | ok u =>
    rw [hs] at h
    change Numeric.factor u = .error fault at h
    unfold Numeric.factor at h
    split at h
    · cases h
    · cases h
      exact ⟨_, rfl⟩

/-! ## Units as affine maps -/

theorem isOne_iff (x : K) : Numeric.isOne x = true ↔ x = 1 := by rw [Numeric.isOne, ExactField.eq, ExactField.one]

theorem isZero_iff_eq (x : K) : Numeric.isZero x = true ↔ x = 0 := by
  rw [Numeric.isZero, ExactField.eq, ExactField.zero]

namespace UnitMeaning

variable {u v w : UnitMeaning K}

/-- into the storage unit: steps that are left out would change nothing -/
theorem convert_toStorage (x : K) (u : UnitMeaning K) :
    Step.convert x u.toStorage = .ok (x * u.factor + u.offset) := by
  unfold toStorage
  rw [Step.convert_append]
  have htimes : Step.convert x (if Numeric.isOne u.factor then [] else [.times u.factor]) = .ok (x * u.factor) := by
    split
    · next h => rw [(isOne_iff _).1 h, mul_one]; rfl
    · exact congrArg Except.ok (ExactField.mul x u.factor)
  rw [htimes]
  change Step.convert (x * u.factor) _ = _
  split
  · next h => rw [(isZero_iff_eq _).1 h, add_zero]; rfl
  · exact congrArg Except.ok (ExactField.add _ _)

/-- out of the storage unit of a unit whose factor is not zero -/
theorem convert_fromStorage (x : K) (hu : u.factor ≠ 0) :
    Step.convert x u.fromStorage = .ok ((x - u.offset) / u.factor) := by
  unfold fromStorage
  rw [Step.convert_append]
  have hminus : Step.convert x (if Numeric.isZero u.offset then [] else [.minus u.offset]) = .ok (x - u.offset) := by
    split
    · next h => rw [(isZero_iff_eq _).1 h, sub_zero]; rfl
    · exact congrArg Except.ok (ExactField.sub x u.offset)
  rw [hminus]
  change Step.convert (x - u.offset) _ = _
  split
  · next h => rw [(isOne_iff _).1 h, div_one]; rfl
  · have hfactor : Numeric.isZero u.factor = false := by
      rw [Bool.eq_false_iff]
      exact fun h => hu ((isZero_iff_eq _).1 h)
    change (Step.onNumber (x - u.offset) (.dividedBy u.factor) >>= fun y => .ok y) = _
    simp only [Step.onNumber, hfactor, ExactField.div]
    rfl

/-- from one scale to another: by the powers by which they differ, unless the ratio is refused -/
theorem convert_steps (s t : Scale) :
    (powers K (s.gap t) ≠ 0 ∧ ∀ x : K, Step.convert x (s.steps t) = .ok (x * powers K (s.gap t))) ∨
      s ≠ t ∧ ∃ cause, (Numeric.ratio s t : Outcome K) = .error (.unit (.scaleOverflow cause)) ∧
        ∀ x : K, Step.convert x (s.steps t) = .error (.unit (.scaleOverflow cause)) := by
  unfold Scale.steps
  split
  · next h =>
    refine Or.inl ?_
    rw [h, gap_self]
    exact ⟨one_ne_zero, fun x => congrArg Except.ok (mul_one x).symm⟩
  · next hne =>
    have hmove : ∀ x : K, Step.convert x [.move s t] = (Numeric.ratio s t).map (Numeric.mul x) := by
      intro x
      change ((Numeric.ratio s t >>= fun r => .ok (Numeric.mul x r)) >>= fun y => .ok y) = _
      cases (Numeric.ratio s t : Outcome K) <;> rfl
    cases hr : (Numeric.ratio s t : Outcome K) with
    | ok r =>
      obtain ⟨rfl, hzero⟩ := ratio_eq_gap hr
      refine Or.inl ⟨hzero, fun x => ?_⟩
      rw [hmove, hr]
      exact congrArg Except.ok (ExactField.mul x _)
    | error fault =>
      obtain ⟨cause, rfl⟩ := overflow_of_ratio hr
      refine Or.inr ⟨hne, cause, rfl, fun x => ?_⟩
      rw [hmove, hr]
      rfl

/-- what a conversion does to a number, if it is not refused -/
def carried (x : K) (u v : UnitMeaning K) : K :=
  ((x * u.factor + u.offset) * powers K (u.scale.gap v.scale) - v.offset) / v.factor

/-- **Conversions as maps.** Between units of one dimension a conversion is the affine map of one unit followed by the
inverse of the other, or it is refused because the range of scales is left, whatever the number. -/
theorem rescale_eq (hd : u.dimension = v.dimension) (hv : v.factor ≠ 0) :
    (powers K (u.scale.gap v.scale) ≠ 0 ∧ ∀ x, rescale x u v = .ok (carried x u v)) ∨
      u.scale ≠ v.scale ∧ ∃ cause, (Numeric.ratio u.scale v.scale : Outcome K) = .error (.unit (.scaleOverflow cause)) ∧
        ∀ x, rescale x u v = .error (.unit (.scaleOverflow cause)) := by
  have hrun : ∀ x, rescale x u v =
      Step.convert (x * u.factor + u.offset) (u.scale.steps v.scale) >>= fun y => Step.convert y v.fromStorage := by
    intro x
    unfold rescale steps
    rw [if_pos hd]
    change Step.convert x (u.toStorage ++ u.scale.steps v.scale ++ v.fromStorage) = _
    rw [Step.convert_append, Step.convert_append, convert_toStorage]
    rfl
  rcases convert_steps (K := K) u.scale v.scale with ⟨hzero, hmove⟩ | ⟨hne, cause, hratio, hcause⟩
  · refine Or.inl ⟨hzero, fun x => ?_⟩
    rw [hrun, hmove]
    exact convert_fromStorage _ hv
  · refine Or.inr ⟨hne, cause, hratio, fun x => ?_⟩
    rw [hrun, hcause]
    rfl

/-! ## The groupoid -/

/-- conversions from one unit to another stay in the range of scales -/
def Within (u v : UnitMeaning K) : Prop := ∀ x cause, rescale x u v ≠ .error (.unit (.scaleOverflow cause))

theorem Within.rescale_eq (h : Within u v) (hd : u.dimension = v.dimension) (hv : v.factor ≠ 0) :
    powers K (u.scale.gap v.scale) ≠ 0 ∧ ∀ x, rescale x u v = .ok (carried x u v) := by
  rcases UnitMeaning.rescale_eq hd hv with hok | ⟨-, cause, -, herror⟩
  · exact hok
  · exact absurd (herror 0) (h 0 cause)

theorem within_of_ratio (hd : u.dimension = v.dimension) (hv : v.factor ≠ 0) {r : K}
    (h : Numeric.ratio u.scale v.scale = .ok r) : Within u v := by
  intro x cause hx
  rcases UnitMeaning.rescale_eq hd hv with ⟨-, hok⟩ | ⟨-, _, hratio, -⟩
  · rw [hok] at hx
    cases hx
  · rw [h] at hratio
    cases hratio

theorem rescale_self (x : K) (hu : u.factor ≠ 0) : rescale x u u = .ok x := by
  rcases rescale_eq (rfl : u.dimension = u.dimension) hu with ⟨-, hok⟩ | ⟨hne, -⟩
  · rw [hok, carried, gap_self, mul_one, add_sub_cancel_right, mul_div_cancel_right₀ _ hu]
  · exact absurd rfl hne

theorem carried_carried (x : K) (hv : v.factor ≠ 0) (h : powers K (u.scale.gap v.scale) ≠ 0)
    (h' : powers K (v.scale.gap w.scale) ≠ 0) : carried (carried x u v) v w = carried x u w := by
  unfold carried
  rw [div_mul_cancel₀ _ hv, sub_add_cancel, mul_assoc, gap_mul_gap h h']

theorem rescale_rescale (huv : u.dimension = v.dimension) (hvw : v.dimension = w.dimension) (hv : v.factor ≠ 0)
    (hw : w.factor ≠ 0) (h : Within u v) (h' : Within v w) (h'' : Within u w) (x : K) :
    ∃ y z, rescale x u v = .ok y ∧ rescale y v w = .ok z ∧ rescale x u w = .ok z := by
  obtain ⟨hne, hfirst⟩ := h.rescale_eq huv hv
  obtain ⟨hne', hsecond⟩ := h'.rescale_eq hvw hw
  obtain ⟨-, hdirect⟩ := h''.rescale_eq (huv.trans hvw) hw
  refine ⟨_, _, hfirst x, hsecond _, ?_⟩
  rw [hdirect, carried_carried x hv hne hne']

theorem rescale_mismatch_iff (x : K) (hv : v.factor ≠ 0) {expected actual : Dimension} {operation : Option Operation} :
    rescale x u v = .error (.unit (.dimensionMismatch expected actual operation)) ↔
      u.dimension ≠ v.dimension ∧ expected = v.dimension ∧ actual = u.dimension ∧ operation = some .rescale := by
  by_cases hd : u.dimension = v.dimension
  · refine iff_of_false (fun h => ?_) fun h => h.1 hd
    rcases rescale_eq hd hv with ⟨-, hok⟩ | ⟨-, cause, -, herror⟩
    · rw [hok] at h
      cases h
    · rw [herror] at h
      cases h
  · have herror : rescale x u v = .error (.mismatch v.dimension u.dimension .rescale) := by
      unfold rescale steps
      rw [if_neg hd]
      rfl
    rw [herror]
    constructor
    · intro h
      cases h
      exact ⟨hd, rfl, rfl, rfl⟩
    · rintro ⟨-, rfl, rfl, rfl⟩
      rfl

end UnitMeaning

namespace Session

open UnitMeaning

/-- **Conversion is a groupoid.** For units of one dimension whose factors are not zero, in an exact field: a number
stays as it is in its own unit; taken to another unit and back it is the number again; and taken on from there it is
what it is when it is taken there at once. Only an overflow of scales can come between. A conversion is refused for its
dimension exactly if the dimensions differ, and the refusal expects that of the target. -/
theorem rescale_groupoid {u v w : UnitMeaning K} (hu : u.factor ≠ 0) (hv : v.factor ≠ 0) (hw : w.factor ≠ 0)
    (c : Context K) (m : Store K) (x : K) :
    (u.dimension = v.dimension → v.dimension = w.dimension →
      rescale (.number x) u u c m = .ok (.number x, m) ∧
      (Within u v → Within v u → ∃ y, rescale (.number x) u v c m = .ok (.number y, m) ∧
        rescale (.number y) v u c m = .ok (.number x, m)) ∧
      (Within u v → Within v w → Within u w → ∃ y z, rescale (.number x) u v c m = .ok (.number y, m) ∧
        rescale (.number y) v w c m = .ok (.number z, m) ∧ rescale (.number x) u w c m = .ok (.number z, m))) ∧
    ∀ expected actual operation,
      rescale (.number x) u v c m = .error (.unit (.dimensionMismatch expected actual operation)) ↔
        u.dimension ≠ v.dimension ∧ expected = v.dimension ∧ actual = u.dimension ∧ operation = some .rescale := by
  have hrun : ∀ {x y : K} {u v : UnitMeaning K}, UnitMeaning.rescale x u v = .ok y →
      rescale (.number x) u v c m = .ok (.number y, m) := by
    intro x y u v h
    rw [rescale_number, h]
    rfl
  refine ⟨fun huv hvw => ⟨hrun (rescale_self x hu), fun h h' => ?_, fun h h' h'' => ?_⟩,
    fun expected actual operation => ?_⟩
  · have hself : Within u u := fun y cause hy => by
      rw [rescale_self y hu] at hy
      cases hy
    obtain ⟨y, z, hy, hz, hx⟩ := rescale_rescale huv huv.symm hv hu h h' hself x
    rw [rescale_self x hu] at hx
    cases hx
    exact ⟨y, hrun hy, hrun hz⟩
  · obtain ⟨y, z, hy, hz, hx⟩ := rescale_rescale huv hvw hv hw h h' h'' x
    exact ⟨y, z, hrun hy, hrun hz, hrun hx⟩
  · rw [rescale_number, ← rescale_mismatch_iff x hv]
    cases UnitMeaning.rescale x u v <;> simp [given, Except.map]

end Session

/-! ## Temperatures -/

section Temperatures

open UnitMeaning Session

/-- a unit of temperature -/
def temperatureUnit (s : Scale) (factor offset : ℝ) : UnitMeaning ℝ := ⟨{ temperature := 1 }, s, factor, offset, none⟩

/-- a degree Celsius on the way to kilokelvins, at once and by way of Fahrenheit -/
theorem rescale_groupoid_celsius :
    let celsius := temperatureUnit .one 1 (5463 / 20)
    let fahrenheit := temperatureUnit .one (5 / 9) (45967 / 180)
    let kilokelvin := temperatureUnit (.ten 3) 1 0
    let context : Context ℝ := ⟨.strict, .empty [] []⟩
    (celsius.factor ≠ 0 ∧ fahrenheit.factor ≠ 0 ∧ kilokelvin.factor ≠ 0) ∧
    (Within celsius fahrenheit ∧ Within fahrenheit kilokelvin ∧ Within celsius kilokelvin) ∧
    ∃ y z, rescale (.number 1) celsius fahrenheit context ⟨[]⟩ = .ok (.number y, ⟨[]⟩) ∧
      rescale (.number y) fahrenheit kilokelvin context ⟨[]⟩ = .ok (.number z, ⟨[]⟩) ∧
      rescale (.number 1) celsius kilokelvin context ⟨[]⟩ = .ok (.number z, ⟨[]⟩) := by
  intro celsius fahrenheit kilokelvin context
  have hc : celsius.factor ≠ 0 := one_ne_zero
  have hf : fahrenheit.factor ≠ 0 := by norm_num [fahrenheit, temperatureUnit]
  have hk : kilokelvin.factor ≠ 0 := one_ne_zero
  have hcf : Within celsius fahrenheit := within_of_ratio rfl hf rfl
  have hfk : Within fahrenheit kilokelvin := within_of_ratio rfl hk rfl
  have hck : Within celsius kilokelvin := within_of_ratio rfl hk rfl
  exact ⟨⟨hc, hf, hk⟩, ⟨hcf, hfk, hck⟩,
    ((rescale_groupoid hc hf hk context ⟨[]⟩ 1).1 rfl rfl).2.2 hcf hfk hck⟩

end Temperatures

end UnitAlgebra

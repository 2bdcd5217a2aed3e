/-
Physical values of operands, and how the unit rules keep them. A quantity has the numbers that it stores times the
factor of its scale, a bare number has itself. What a function is computed on are stored numbers once more, which have
the same physical values by the factors that the rule gives them.

Results:
- `numbers_of_isZero`: bare zeros are zero in every scale.
- `dimension_eq_of_commonUnit`: whatever decides on a common unit has its dimension.
- `aligned_of_alignedValue`: a value taken to the scale of the result has its physical value there.
- `exists_aligned`: the values of a function, with factors that make up the factor of the result.
-/
import UnitAlgebra.Proofs.Quantity.Conversion
import UnitAlgebra.Proofs.Quantity.Whole

namespace UnitAlgebra

/-! ## Operands -/

namespace Operand

variable {κ : Type} [Numeric κ]

/-- a quantity of numbers, or numbers without a unit -/
def IsMeasure (m : Store κ) (x : Operand κ) : Prop := (bareValue x).IsNumeric m

/-- the tensor that an operand stores, whatever its unit -/
def stored (m : Store κ) (x : Operand κ) : Tensor κ := (bareValue x).tensor m

/-- the scale that it is stored in; bare numbers have none -/
def storedScale : Operand κ → Scale
  | quantity q => q.scale
  | _ => .one

/-- **Physical values**: what is stored, times the factor of the scale. -/
noncomputable def physical [Numeric ℝ] (m : Store ℝ) (x : Operand ℝ) : Grid ℝ :=
  (x.stored m).numbers.map (· * x.storedScale.real)

/-- an operand as it takes part in a function -/
def participant (m : Store κ) : Operand κ → Participant κ
  | quantity q => ⟨q, false⟩
  | x => ⟨⟨x, .one, .one⟩, x.isZero m⟩

variable {m : Store κ} {x : Operand κ}

theorem value_participant (m : Store κ) (x : Operand κ) : (x.participant m).quantity.value = bareValue x := by
  cases x <;> rfl

theorem isZero_of_isBareZero (h : (x.participant m).isBareZero = true) : (bareValue x).isZero m = true := by
  cases x with
  | quantity q => cases h
  | _ => exact h

theorem scale_participant (m : Store κ) (x : Operand κ) : (x.participant m).scale = x.storedScale := by
  cases x <;> rfl

end Operand

theorem Session.mapM_ofOperand {κ : Type} [Numeric κ] (xs : List (Operand κ)) (c : Context κ) (m : Store κ) :
    xs.mapM Participant.ofOperand c m = .ok (xs.map (Operand.participant m), m) := by
  induction xs with
  | nil => rfl
  | cons x xs ih =>
    rw [List.mapM_cons]
    refine bind_eq_ok_iff.2 ⟨x.participant m, m, by cases x <;> rfl, ?_⟩
    exact bind_eq_ok_iff.2 ⟨_, m, ih, rfl⟩

/-! ## Common units -/

section Units

variable {κ : Type} [Numeric κ] {policy : ScalePolicy} {wording : Wording} {u : StorageUnit}

omit [Numeric κ] in
/-- Whatever decides on a common unit has its dimension. -/
theorem dimension_eq_of_commonUnit {ps : List (Participant κ)} (h : commonUnit policy wording ps = .ok u)
    {p : Participant κ} (hp : p ∈ ps) (hz : p.isBareZero = false) : p.dimension = u.dimension := by
  have hdecides : ∃ i, (p, i) ∈ deciding ps := by
    obtain ⟨i, hi⟩ := List.mem_iff_getElem?.1 hp
    have hmem : (p, i) ∈ ps.zipIdx.filter fun q => !q.1.isBareZero :=
      List.mem_filter.2 ⟨List.mem_zipIdx_iff_getElem?.2 hi, by simp [hz]⟩
    refine ⟨i, ?_⟩
    unfold deciding
    split
    · next hnone =>
      rw [hnone] at hmem
      cases hmem
    · exact hmem
  obtain ⟨i, hi⟩ := hdecides
  unfold commonUnit at h
  split at h
  · cases h
  · next first rest hall =>
    obtain ⟨hu, hothers⟩ := matching_dimension h
    rw [hu]
    refine hothers (p.unit, i) ?_
    rw [← hall]
    exact List.mem_map_of_mem hi

omit [Numeric κ] in
theorem commonUnit_single {p : Participant κ} (h : commonUnit policy wording [p] = .ok u) : u = p.unit := by
  have hdeciding : deciding [p] = [(p, 0)] := by
    cases hz : p.isBareZero <;> simp [deciding, hz]
  unfold commonUnit at h
  rw [hdeciding] at h
  change matching policy wording p.unit [(p.unit, 0)] = .ok u at h
  rw [matching, if_pos rfl] at h
  obtain ⟨s, hs, h⟩ := Outcome.bind_eq_ok_iff.1 h
  rw [ScalePolicy.resolve, ScalePolicy.resolve_same] at hs
  cases hs
  cases h
  rfl

end Units

/-! ## Values -/

variable [Numeric ℝ] [Numeric.Exact]

/-- Bare zeros are zero in every scale. -/
theorem numbers_of_isZero {m : Store ℝ} {x : Operand ℝ} (hx : x.IsNumeric m) (hz : x.isZero m = true) :
    ∀ n ∈ (x.tensor m).numbers.entries, n = 0 := by
  have hcells : ∀ c ∈ (x.tensor m).grid.entries, c.toBool = false := by
    intro c hc
    cases x with
    | array v =>
      have hall : ((m.read v).grid.entries.all fun c => !c.toBool) = true := hz
      simpa using List.all_eq_true.1 hall c hc
    | flag b =>
      cases List.mem_singleton.1 hc
      simpa [Operand.isZero, Cell.toBool] using hz
    | integer n =>
      cases List.mem_singleton.1 hc
      simpa [Operand.isZero, Cell.toBool] using hz
    | number y =>
      cases List.mem_singleton.1 hc
      simpa [Operand.isZero, Cell.toBool] using hz
    | item d =>
      cases List.mem_singleton.1 hc
      simpa [Operand.isZero] using hz
    | _ => exact hx.elim
  intro n hn
  obtain ⟨c, hc, rfl⟩ := List.mem_map.1 hn
  exact Cell.toNumber_of_not_toBool (hcells c hc)

/-- a value that a function is computed on has the physical values of an operand, by a factor -/
structure Aligned (m : Store ℝ) (x : Operand ℝ) (a : ℝ) (v : Operand ℝ) (m' : Store ℝ) : Prop where
  numeric : v.IsNumeric m'
  physical : (v.tensor m').numbers.map (Numeric.mul · a) = x.physical m
  kind : v = bareValue x ∨ (v.tensor m').kind = .real ∧ v.isWide = false

namespace Aligned

variable {m m₁ m₂ : Store ℝ} {x v : Operand ℝ} {a : ℝ}

omit [Numeric.Exact] in
theorem grows (h : Aligned m x a v m₁) (hm : m₁.Grows m₂) : Aligned m x a v m₂ := by
  have hstay := Operand.tensor_of_grows h.numeric.live hm
  refine ⟨h.numeric.grows hm, ?_, ?_⟩
  · rw [hstay, h.physical]
  · rw [hstay]
    exact h.kind

/-- stored as it is, a value has its physical value by the factor of its scale -/
theorem of_stored (hx : x.IsMeasure m) (hm : m.Grows m₁) (ha : a = x.storedScale.real) :
    Aligned m x a (bareValue x) m₁ := by
  refine ⟨hx.grows hm, ?_, Or.inl rfl⟩
  rw [Operand.tensor_of_grows hx.live hm, ha]
  simp only [Numeric.Exact.mul]
  rfl

end Aligned

/-- A value taken to the scale of the result has its physical value there. -/
theorem aligned_of_alignedValue {m m₁ m₂ : Store ℝ} {c : Context ℝ} {x v : Operand ℝ} {u : StorageUnit}
    (hx : x.IsMeasure m) (hm : m.Grows m₁)
    (hd : (x.participant m).isBareZero = false → (x.participant m).dimension = u.dimension)
    (h : UnitRule.alignedValue u (x.participant m) c m₁ = .ok (v, m₂)) :
    m₁.Grows m₂ ∧ Aligned m x u.scale.real v m₂ := by
  have hu := u.scale.real_pos
  unfold UnitRule.alignedValue at h
  split at h
  · have hnumeric : (x.participant m).quantity.value.IsNumeric m₁ := by
      rw [x.value_participant]
      exact hx.grows hm
    obtain ⟨hgrows, hvalue⟩ := Quantity.valueIn_spec hnumeric h
    refine ⟨hgrows, ?_⟩
    rw [x.value_participant, show (x.participant m).quantity.scale = _ from x.scale_participant m] at hvalue
    rcases hvalue with ⟨hs, rfl⟩ | ⟨-, hshows⟩
    · exact .of_stored hx (hm.trans hgrows) (by rw [hs])
    · refine ⟨hshows.numeric, ?_, Or.inr ⟨by rw [hshows.tensor]; rfl, hshows.isNarrow⟩⟩
      rw [hshows.tensor, Tensor.times, Tensor.numbers_ofNumbers, Grid.map_map,
        Operand.tensor_of_grows hx.live hm]
      simp only [Function.comp_def, Numeric.Exact.mul]
      refine congrArg (Grid.map · _) (funext fun n => ?_)
      rw [mul_assoc, div_mul_cancel₀ _ hu.ne']
  · next hne =>
    obtain ⟨rfl, rfl⟩ := Session.pure_eq_ok_iff.1 h
    have hz : (x.participant m).isBareZero = true := by
      by_contra hz
      exact hne (hd (by simpa using hz))
    rw [x.value_participant]
    have hzero := numbers_of_isZero hx (Operand.isZero_of_isBareZero hz)
    refine ⟨.refl _, hx.grows hm, ?_, Or.inl rfl⟩
    rw [Operand.tensor_of_grows hx.live hm]
    refine congrArg (Grid.mk _) (List.map_congr_left fun n hn => ?_)
    rw [hzero n hn, Numeric.Exact.mul, zero_mul, zero_mul]

/-! ## Rules -/

theorem exists_alignedValues {m m₁ : Store ℝ} {c : Context ℝ} {xs vs : List (Operand ℝ)} {u : StorageUnit}
    (hxs : ∀ x ∈ xs, x.IsMeasure m)
    (hd : ∀ x ∈ xs, (x.participant m).isBareZero = false → (x.participant m).dimension = u.dimension)
    (h : (xs.map (Operand.participant m)).mapM (UnitRule.alignedValue u) c m = .ok (vs, m₁)) :
    m.Grows m₁ ∧ List.Forall₂ (fun x v => Aligned m x u.scale.real v m₁) xs vs := by
  rw [List.mapM_map] at h
  refine Session.mapM_grows (R := fun x v m' => Aligned m x u.scale.real v m') (fun hR hm => hR.grows hm) ?_ (.refl m) h
  intro x hx v m' m'' hm hv
  exact aligned_of_alignedValue (hxs x hx) hm (hd x hx) hv

theorem aligned_stored {m : Store ℝ} {xs : List (Operand ℝ)} (hxs : ∀ x ∈ xs, x.IsMeasure m) :
    List.Forall₂ (fun x v => Aligned m x x.storedScale.real v m) xs (xs.map bareValue) := by
  rw [List.forall₂_map_right_iff]
  exact List.forall₂_same.2 fun x hx => .of_stored (hxs x hx) (.refl m) rfl

section Rules

open Session

variable {m m₁ m₂ : Store ℝ} {c : Context ℝ} {wording : Wording} {u : StorageUnit}

omit [Numeric.Exact] in
theorem unit_shared {ps : List (Participant ℝ)} (h : UnitRule.shared.unit wording ps c m = .ok (u, m₁)) :
    commonUnit c.policy wording ps = .ok u ∧ m = m₁ := by
  change (commonUnit c.policy wording ps >>= fun u => .ok (u, m)) = .ok (u, m₁) at h
  obtain ⟨v, hv, h⟩ := Outcome.bind_eq_ok_iff.1 h
  cases h
  exact ⟨hv, rfl⟩

omit [Numeric.Exact] in
theorem unit_product {p q : Participant ℝ} (h : UnitRule.product.unit wording [p, q] c m = .ok (u, m₁)) :
    p.scale.mul q.scale = .ok u.scale ∧ m = m₁ := by
  simp only [UnitRule.unit, List.foldlM_cons, List.foldlM_nil] at h
  obtain ⟨v, _, hv, h⟩ := bind_eq_ok_iff.1 h
  cases h
  obtain ⟨hparts, rfl⟩ := lift_eq_ok_iff.1 hv
  obtain ⟨d, _, hd⟩ := Outcome.bind_eq_ok_iff.1 hparts
  obtain ⟨s, hs, hd⟩ := Outcome.bind_eq_ok_iff.1 hd
  cases hd
  exact ⟨hs, rfl⟩

omit [Numeric.Exact] in
theorem unit_quotient {p q : Participant ℝ} (h : UnitRule.quotient.unit wording [p, q] c m = .ok (u, m₁)) :
    p.scale.div q.scale = .ok u.scale ∧ m = m₁ := by
  simp only [UnitRule.unit, List.foldlM_cons, List.foldlM_nil] at h
  obtain ⟨v, _, hv, h⟩ := bind_eq_ok_iff.1 h
  cases h
  obtain ⟨hparts, rfl⟩ := lift_eq_ok_iff.1 hv
  obtain ⟨d, _, hd⟩ := Outcome.bind_eq_ok_iff.1 hparts
  obtain ⟨s, hs, hd⟩ := Outcome.bind_eq_ok_iff.1 hd
  cases hd
  exact ⟨hs, rfl⟩

/-- **The values of a function.** By some factors they have the physical values of the operands, and these make up the
factor of the result. -/
theorem exists_aligned {f : Elementwise} (hf : f.isPhysical = true) {xs vs : List (Operand ℝ)}
    (hn : xs.length = f.arity) (hxs : ∀ x ∈ xs, x.IsMeasure m)
    (hu : (TensorFunction.each f).rule.unit wording (xs.map (Operand.participant m)) c m = .ok (u, m₁))
    (hv : (TensorFunction.each f).rule.values (TensorFunction.each f).alignment u (xs.map (Operand.participant m)) c m₁ =
      .ok (vs, m₂)) :
    m.Grows m₂ ∧ ∃ a : Operand ℝ → ℝ, List.Forall₂ (fun x v => Aligned m x (a x) v m₂) xs vs ∧
      f.Weighs (xs.map a) (f.weight u.scale.real) := by
  have hstored : (xs.map (Operand.participant m)).map (fun p => p.quantity.value) = xs.map bareValue := by
    rw [List.map_map]
    exact List.map_congr_left fun x _ => x.value_participant m
  have hrule : (TensorFunction.each f).rule = .shared ∨ f = .multiply ∨ f = .divide := by
    cases f <;> first | (cases hf; done) | exact Or.inl rfl | exact Or.inr (Or.inl rfl) | exact Or.inr (Or.inr rfl)
  rcases hrule with hrule | rfl | rfl
  · rw [hrule] at hu hv
    obtain ⟨hcommon, rfl⟩ := unit_shared hu
    simp only [UnitRule.values] at hv
    split at hv
    · -- every value is taken to the scale of the result
      have hd : ∀ x ∈ xs, (x.participant m).isBareZero = false → (x.participant m).dimension = u.dimension :=
        fun x hx hz => dimension_eq_of_commonUnit hcommon (List.mem_map_of_mem hx) hz
      obtain ⟨hgrows, hall⟩ := exists_alignedValues hxs hd hv
      refine ⟨hgrows, fun _ => u.scale.real, hall, .shared hrule u.scale.real_pos fun a ha => ?_⟩
      obtain ⟨x, _, rfl⟩ := List.mem_map.1 ha
      rfl
    · -- a function of one operand computes in the scale of that operand
      next hasStored =>
      obtain ⟨rfl, rfl⟩ := pure_eq_ok_iff.1 hv
      have hone : f.arity = 1 := by
        cases f <;> first | (cases hf; done) | rfl | exact absurd rfl hasStored
      obtain ⟨x, rfl⟩ := List.length_eq_one_iff.1 (hn.trans hone)
      have hscale : u.scale = x.storedScale := by
        rw [commonUnit_single hcommon]
        exact x.scale_participant m
      rw [hstored, hscale]
      refine ⟨.refl m, fun x => x.storedScale.real, aligned_stored hxs, .shared hrule x.storedScale.real_pos ?_⟩
      exact fun a ha => List.mem_singleton.1 ha
  · obtain ⟨x, y, rfl⟩ := List.length_eq_two.1 hn
    obtain ⟨hscale, rfl⟩ := unit_product hu
    obtain ⟨rfl, rfl⟩ := pure_eq_ok_iff.1 hv
    rw [x.scale_participant, y.scale_participant] at hscale
    rw [hstored]
    refine ⟨.refl m, fun x => x.storedScale.real, aligned_stored hxs, ?_⟩
    have hweight : Elementwise.multiply.weight u.scale.real = x.storedScale.real * y.storedScale.real :=
      Scale.real_mul hscale
    rw [hweight]
    exact .product rfl
  · obtain ⟨x, y, rfl⟩ := List.length_eq_two.1 hn
    obtain ⟨hscale, rfl⟩ := unit_quotient hu
    obtain ⟨rfl, rfl⟩ := pure_eq_ok_iff.1 hv
    rw [x.scale_participant, y.scale_participant] at hscale
    rw [hstored]
    refine ⟨.refl m, fun x => x.storedScale.real, aligned_stored hxs, ?_⟩
    have hweight : Elementwise.divide.weight u.scale.real = x.storedScale.real / y.storedScale.real :=
      Scale.real_div hscale
    rw [hweight]
    exact .quotient rfl

end Rules

end UnitAlgebra

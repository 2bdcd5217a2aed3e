/-
Units of powers. The dimension of a power is a multiple of the dimension, and then the root of it; the exponents of the
scale are first rounded down to multiples of the order of the root. The value is taken to the scale that has these, so
that the root of the scale is exact.

Results:
- `unitOfPower_root`, `unworded_unitOfPower`: a root is refused in words if some exponent of the dimension has none.
- `call_power`: a call of a power, step by step.
- `root_refused_iff`: when a call refuses a root.
- `power_moves`: what a call that returns has moved where.
-/
import UnitAlgebra.Proofs.Quantity.Checking
import UnitAlgebra.Proofs.Quantity.Exponents
import UnitAlgebra.Proofs.Quantity.Unworded

namespace UnitAlgebra

/-! ## The unit rule -/

/-- how a power moves units: the dimension and the scale of the result, and the scale that its value is moved to -/
structure Fraction.Moves (p : Fraction) (d : Dimension) (s base : Scale) (u : StorageUnit) : Prop where
  dimension : ∀ a, p.denominator * (u.dimension.get a).val = p.numerator * (d.get a).val
  divisible : ∀ b, (p.denominator : ℤ) ∣ (base.get b).val
  near : ∀ b, 0 ≤ (s.get b).val - (base.get b).val ∧ (s.get b).val - (base.get b).val < p.denominator
  scale : ∀ b, p.denominator * (u.scale.get b).val = p.numerator * (base.get b).val

/-- a root of a dimension is refused -/
def Outcome.RefusesRoot {α : Type} (o : Outcome α) : Prop :=
  ∃ d order, o = .error (.badValue (some (.root d order)))

namespace Fraction

variable {p : Fraction} {d : Dimension} {s base : Scale} {u : StorageUnit}

/-- a multiple of an exponent by the numerator has a root exactly if the exponent has -/
theorem dvd_multiple_iff (hp : p.numerator.natAbs.Coprime p.denominator) (n : ℤ) :
    (p.denominator : ℤ) ∣ p.numerator * n ↔ (p.denominator : ℤ) ∣ n := by
  have hcoprime : IsCoprime (p.denominator : ℤ) p.numerator :=
    Int.isCoprime_iff_nat_coprime.2 (by simpa using hp.symm)
  exact ⟨hcoprime.dvd_of_dvd_mul_left, fun h => h.mul_left _⟩

theorem divisible_iff (d : Dimension) (n : ℤ) : d.divisible n = true ↔ ∀ a, n ∣ (d.get a).val := by
  simp only [Dimension.divisible, List.all_eq_true, decide_eq_true_eq, Int.dvd_iff_emod_eq_zero]
  exact ⟨fun h a => h a a.mem_all, fun h a _ => h a⟩

theorem unitOfPower_eq (hd : ∀ a, InRange (p.numerator * (d.get a).val)) :
    ∃ e : Dimension, (∀ a, (e.get a).val = p.numerator * (d.get a).val) ∧ p.unitOfPower ⟨d, s⟩ = (do
      let dimension ← e.rootOf p.denominator
      let scale ← Scale.ofInts fun b => p.numerator * Int.fdiv (s.get b).val p.denominator
      return ⟨dimension, scale⟩) := by
  obtain ⟨e, he, hget⟩ := (Dimension.reaches_pow d p.numerator).exists_of_inRange hd
  refine ⟨e, hget, ?_⟩
  rw [unitOfPower, he]
  rfl

/-- A root is refused in words if some exponent of the dimension has none. -/
theorem unitOfPower_root (hp : p.denominator ≠ 0 ∧ p.numerator.natAbs.Coprime p.denominator)
    (hd : ∀ a, InRange (p.numerator * (d.get a).val)) (h : ∃ a, ¬ (p.denominator : ℤ) ∣ (d.get a).val) :
    (p.unitOfPower ⟨d, s⟩).RefusesRoot := by
  obtain ⟨e, hget, heq⟩ := unitOfPower_eq (s := s) hd
  obtain ⟨a, ha⟩ := h
  have hnot : ¬ e.divisible p.denominator = true := by
    rw [divisible_iff]
    intro hall
    have := hall a
    rw [hget, dvd_multiple_iff hp.2] at this
    exact ha this
  refine ⟨e, Exponent.decimal p.denominator, ?_⟩
  rw [heq, Dimension.rootOf, if_neg (by exact_mod_cast hp.1), if_neg hnot]
  rfl

/-- if all exponents of the dimension have a root, none is refused -/
theorem unworded_unitOfPower (hp : p.denominator ≠ 0 ∧ p.numerator.natAbs.Coprime p.denominator)
    (hd : ∀ a, InRange (p.numerator * (d.get a).val)) (h : ∀ a, (p.denominator : ℤ) ∣ (d.get a).val) :
    (p.unitOfPower ⟨d, s⟩).Unworded := by
  obtain ⟨e, hget, heq⟩ := unitOfPower_eq (s := s) hd
  have hdivisible : e.divisible p.denominator = true := by
    rw [divisible_iff]
    intro a
    rw [hget, dvd_multiple_iff hp.2]
    exact h a
  rw [heq, Dimension.rootOf, if_neg (by exact_mod_cast hp.1), if_pos hdivisible]
  exact (Outcome.unworded_ok _).bind fun _ => (unworded_ofInts _).bind fun _ => Outcome.unworded_ok _

/-- The unit of a power, with the scale that its value is moved to. -/
theorem moves_of_unitOfPower (hp : p.denominator ≠ 0) (hu : p.unitOfPower ⟨d, s⟩ = .ok u) (hb : p.base s = .ok base) :
    p.Moves d s base u := by
  have hpos : (0 : ℤ) < p.denominator := by exact_mod_cast Nat.pos_of_ne_zero hp
  unfold unitOfPower at hu
  obtain ⟨multiple, hmultiple, hu⟩ := Outcome.bind_eq_ok_iff.1 hu
  obtain ⟨dimension, hdimension, hu⟩ := Outcome.bind_eq_ok_iff.1 hu
  obtain ⟨scale, hscale, hu⟩ := Outcome.bind_eq_ok_iff.1 hu
  cases hu
  have hmul := (Dimension.reaches_pow d p.numerator).eq_ok_iff.1 hmultiple
  have hget := (Scale.reaches_ofInts _ _).eq_ok_iff.1 hscale
  have hbase := (Scale.reaches_ofInts _ _).eq_ok_iff.1 hb
  have hroot : multiple.divisible p.denominator = true ∧ multiple.root p.denominator = dimension := by
    rw [Dimension.rootOf, if_neg hpos.ne'] at hdimension
    split at hdimension
    · next hdivisible =>
      cases hdimension
      exact ⟨hdivisible, rfl⟩
    · cases hdimension
  obtain ⟨hdivisible, rfl⟩ := hroot
  refine ⟨fun a => ?_, fun b => ?_, fun b => ?_, fun b => ?_⟩
  · rw [mul_comm, Dimension.get_root hdivisible, hmul]
  · rw [hbase]
    exact dvd_mul_right _ _
  · rw [hbase, ← Int.fmod_def]
    exact ⟨Int.fmod_nonneg_of_pos _ hpos, Int.fmod_lt_of_pos _ hpos⟩
  · rw [hbase]
    change (p.denominator : ℤ) * (scale.get b).val = _
    rw [hget]
    ring

end Fraction

/-! ## Calls -/

namespace Session

variable {κ : Type} [Numeric κ] {f : Elementwise} {p : Fraction} {q : Quantity (Operand κ)} {ys : List (Operand κ)}
  {c : Context κ} {m m' : Store κ} {y z : Operand κ}

/-- a function with a quantity for its first operand, step by step -/
theorem call_quantity (hlength : (Operand.quantity q :: ys).length = f.arity)
    (hseries : (Operand.quantity q :: ys).any Operand.isSeries = false)
    (hquantity : (TensorFunction.each f).givesQuantity = true) :
    callWith (.each f) .plain (.quantity q :: ys) [] c m = (do
      let u ← (TensorFunction.each f).rule.unit (.plain f.name) ((Operand.quantity q :: ys).map (Operand.participant m))
      let values ← (TensorFunction.each f).rule.values (TensorFunction.each f).alignment u
        ((Operand.quantity q :: ys).map (Operand.participant m))
      let results ← computeBare (.each f) .plainly [] values
      return together (results.map (inUnitOf u))) c m := by
  rw [callWith_plain hlength, apply_quantities (by rwa [List.append_nil]) rfl, bind_of_ok (mapM_ofOperand _ c m)]
  simp only [hquantity, if_true]
  rfl

/-- A call of a power, step by step. -/
theorem call_power (h : HasExponent c m p f ys) :
    callWith (.each f) .plain (.quantity q :: ys) [] c m = (do
      let u ← (TensorFunction.each f).rule.unit (.plain f.name) ((Operand.quantity q :: ys).map (Operand.participant m))
      let values ← (TensorFunction.each f).rule.values (TensorFunction.each f).alignment u
        ((Operand.quantity q :: ys).map (Operand.participant m))
      let results ← computeBare (.each f) .plainly [] values
      return together (results.map (inUnitOf u))) c m := by
  have hlength : (Operand.quantity q :: ys).length = (TensorFunction.each f).arity := by
    cases h with
    | own hf =>
      cases f with
      | real g => rfl
      | _ => first | rfl | cases hf
    | read hf => cases f with
      | real g => cases g <;> cases hf
      | _ => first | rfl | cases hf
  have hquantity : (TensorFunction.each f).givesQuantity = true := by
    cases h with
    | own hf => cases f <;> first | rfl | cases hf
    | read hf => cases f <;> first | rfl | cases hf
  have hseries : (Operand.quantity q :: ys).any Operand.isSeries = false := by
    cases h with
    | own => rfl
    | @read x _ _ hread =>
      cases x with
      | series =>
        obtain ⟨x, hx, hcases⟩ := exponentOf?_eq hread
        obtain ⟨rfl, rfl⟩ := pure_eq_ok_iff.1 hx
        obtain ⟨-, hnone⟩ | ⟨z, hz, -⟩ := hcases
        · cases hnone
        · cases hz
      | _ => rfl
  exact call_quantity hlength hseries hquantity

theorem unit_of_exponent (h : HasExponent c m p f ys) : ∃ m₁, m.Grows m₁ ∧
    (TensorFunction.each f).rule.unit (.plain f.name) ((Operand.quantity q :: ys).map (Operand.participant m)) c m =
      (liftM (p.unitOfPower ⟨q.dimension, q.scale⟩) : Session κ StorageUnit) c m₁ := by
  cases h with
  | own hf =>
    rw [hf]
    exact ⟨m, .refl m, rfl⟩
  | @read x m₁ hf hread =>
    rw [hf]
    exact ⟨m₁, (adds_exponentOf? _ _).grows hread, bind_of_ok hread⟩

theorem unworded_values {u : StorageUnit} (h : HasExponent c m p f ys) :
    Unworded ((TensorFunction.each f).rule.values (TensorFunction.each f).alignment u
      ((Operand.quantity q :: ys).map (Operand.participant m))) := by
  have hbase (e : Option Fraction) (s : Scale) : (powerBase e s).Unworded := by
    cases e with
    | none => exact Outcome.unworded_ok _
    | some e => exact unworded_ofInts _
  cases h with
  | own hf =>
    rw [hf]
    exact (unworded_lift (hbase _ _)).bind fun _ => Unworded.bind (unworded_convert _ _) fun _ => unworded_pure _
  | read hf =>
    rw [hf]
    exact (unworded_exponentOf? _ _).bind fun _ => (unworded_lift (hbase _ _)).bind fun _ =>
      Unworded.bind (unworded_convert _ _) fun _ => Unworded.bind (unworded_convert _ _) fun _ => unworded_pure _

/-- **When a root is refused**: exactly if some exponent of the dimension is not divisible by its order. -/
theorem root_refused_iff (hκ : Numeric.Reduced κ) (h : HasExponent c m p f ys)
    (hd : ∀ a, InRange (p.numerator * (q.dimension.get a).val)) :
    (callWith (.each f) .plain (.quantity q :: ys) [] c m).RefusesRoot ↔
      ∃ a, ¬ (p.denominator : ℤ) ∣ (q.dimension.get a).val := by
  have hp := h.reduced hκ
  obtain ⟨m₁, -, hunit⟩ := unit_of_exponent (q := q) h
  rw [call_power h]
  constructor
  · rintro ⟨d, order, hrefused⟩
    by_contra hall
    push Not at hall
    -- with a unit, nothing is refused in words any more
    have hunworded := Fraction.unworded_unitOfPower (s := q.scale) hp hd hall
    cases hu : p.unitOfPower ⟨q.dimension, q.scale⟩ with
    | error fault =>
      rw [hu] at hunit
      rw [bind_of_error hunit] at hrefused
      cases hrefused
      exact Bool.noConfusion (hunworded _ hu)
    | ok u =>
      rw [hu] at hunit
      rw [bind_of_ok hunit] at hrefused
      have hrest := (unworded_values (q := q) (u := u) h).bind fun values =>
        (unworded_computeBare f values).bind fun results => unworded_pure (together (results.map (inUnitOf u)))
      exact Bool.noConfusion (hrest.fault hrefused)
  · intro hsome
    obtain ⟨e, order, hrefused⟩ := Fraction.unitOfPower_root (s := q.scale) hp hd hsome
    rw [hrefused] at hunit
    exact ⟨e, order, bind_of_error hunit⟩

/-! ## Results -/

/-- a power is computed on the value in a scale, and on its exponent as a bare number -/
def PoweredIn (base : Scale) (c : Context κ) (m : Store κ) (f : Elementwise) (q : Quantity (Operand κ))
    (ys : List (Operand κ)) (z : Operand κ) (m' : Store κ) : Prop :=
  ∃ m₁ v m₂ ws m₃, m.Grows m₁ ∧ q.valueIn base c m₁ = .ok (v, m₂) ∧
    ys.mapM (fun y => (y.participant m).quantity.valueIn .one) c m₂ = .ok (ws, m₃) ∧
    computeBare (.each f) .plainly [] (v :: ws) c m₃ = .ok ([z], m')

theorem exists_single (hone : f.results = 1) {vs zs : List (Operand κ)}
    (h : computeBare (.each f) .plainly [] vs c m = .ok (zs, m')) : ∃ z, zs = [z] := by
  have hlength : ∀ {rs : List (Tensor κ)} {m₁ : Store κ}, rs.length = 1 → rs.mapM computed c m₁ = .ok (zs, m') →
      ∃ z, zs = [z] := by
    intro rs m₁ hrs hzs
    have hall := (mapM_grows (R := fun _ _ _ => True) (fun _ _ => trivial)
      (fun _ _ _ _ _ _ hz => ⟨(computed_spec hz).1, trivial⟩) (.refl m₁) hzs).2
    exact List.length_eq_one_iff.1 (hall.length_eq.symm.trans hrs)
  have helementwise : ∀ {ts rs : List (Tensor κ)}, Tensor.elementwise f ts = .ok rs → rs.length = 1 := by
    intro ts rs hrs
    obtain ⟨k, shape, cells, -, -, -, rfl⟩ := Tensor.elementwise_eq_ok_iff.1 hrs
    rw [List.length_map, List.length_range, hone]
  rw [computeBare_nil .plainly (by simp)] at h
  obtain ⟨r, m₁, hr, hzs⟩ := bind_eq_ok_iff.1 h
  change plainResults f vs c m = .ok (r, m₁) at hr
  unfold plainResults at hr
  split at hr
  · split at hr
    · obtain ⟨rs, _, hrs, hr⟩ := bind_eq_ok_iff.1 hr
      obtain ⟨rfl, rfl⟩ := pure_eq_ok_iff.1 hr
      exact hlength (helementwise (lift_eq_ok_iff.1 hrs).1) hzs
    · obtain ⟨k, _, -, hr⟩ := bind_eq_ok_iff.1 hr
      obtain ⟨rfl, rfl⟩ := pure_eq_ok_iff.1 hr
      obtain ⟨rfl, -⟩ := pure_eq_ok_iff.1 hzs
      exact ⟨_, rfl⟩
  · split at hr
    · obtain ⟨rs, _, hrs, hr⟩ := bind_eq_ok_iff.1 hr
      obtain ⟨rfl, rfl⟩ := pure_eq_ok_iff.1 hr
      refine hlength ?_ hzs
      unfold onOpaque at hrs
      split at hrs
      · obtain ⟨t, _, -, hrs⟩ := bind_eq_ok_iff.1 hrs
        obtain ⟨rfl, -⟩ := pure_eq_ok_iff.1 hrs
        rfl
      · obtain ⟨t, _, -, hrs⟩ := bind_eq_ok_iff.1 hrs
        obtain ⟨rfl, -⟩ := pure_eq_ok_iff.1 hrs
        rfl
      · cases hrs
    · obtain ⟨ts, _, -, hr⟩ := bind_eq_ok_iff.1 hr
      obtain ⟨rs, _, hrs, hr⟩ := bind_eq_ok_iff.1 hr
      obtain ⟨rfl, rfl⟩ := pure_eq_ok_iff.1 hr
      exact hlength (helementwise (lift_eq_ok_iff.1 hrs).1) hzs

/-- the value is taken to the base of the exponent, which is read once more, and the exponent to the unit one -/
theorem values_of_exponent (h : HasExponent c m p f ys) (hys : ∀ y ∈ ys, y.IsMeasure m) {m₁ : Store κ}
    (hm : m.Grows m₁) {u : StorageUnit} {vs : List (Operand κ)}
    (hvs : (TensorFunction.each f).rule.values (TensorFunction.each f).alignment u
      ((Operand.quantity q :: ys).map (Operand.participant m)) c m₁ = .ok (vs, m')) :
    ∃ base m₂ v m₃ ws, p.base q.scale = .ok base ∧ m₁.Grows m₂ ∧ q.valueIn base c m₂ = .ok (v, m₃) ∧
      ys.mapM (fun y => (y.participant m).quantity.valueIn .one) c m₃ = .ok (ws, m') ∧ vs = v :: ws := by
  cases h with
  | own hf =>
    rw [hf] at hvs
    obtain ⟨base, _, hpower, hvs⟩ := bind_eq_ok_iff.1 hvs
    obtain ⟨hbase, rfl⟩ := lift_eq_ok_iff.1 hpower
    obtain ⟨v, _, hv, hvs⟩ := bind_eq_ok_iff.1 hvs
    obtain ⟨rfl, rfl⟩ := pure_eq_ok_iff.1 hvs
    exact ⟨base, _, v, _, [], hbase, .refl _, hv, rfl, rfl⟩
  | @read y _ hf hread =>
    rw [hf] at hvs
    obtain ⟨e, m₂, hagain, hvs⟩ := bind_eq_ok_iff.1 hvs
    have hnumeric : (y.participant m).quantity.value.IsNumeric m := by
      rw [y.value_participant]
      exact hys y List.mem_cons_self
    cases exponentOf?_again hnumeric hread hm hagain
    obtain ⟨base, _, hpower, hvs⟩ := bind_eq_ok_iff.1 hvs
    obtain ⟨hbase, rfl⟩ := lift_eq_ok_iff.1 hpower
    obtain ⟨v, _, hv, hvs⟩ := bind_eq_ok_iff.1 hvs
    obtain ⟨w, _, hw, hvs⟩ := bind_eq_ok_iff.1 hvs
    obtain ⟨rfl, rfl⟩ := pure_eq_ok_iff.1 hvs
    refine ⟨base, m₂, v, _, [w], hbase, (adds_exponentOf? _ _).grows hagain, hv, ?_, rfl⟩
    rw [List.mapM_cons, bind_of_ok hw]
    rfl

/-- **What a call has moved where**, if it returns. -/
theorem power_moves (hκ : Numeric.Reduced κ) (h : HasExponent c m p f ys) (hys : ∀ y ∈ ys, y.IsMeasure m)
    (hcall : callWith (.each f) .plain (.quantity q :: ys) [] c m = .ok (y, m')) : ∃ base u z,
      p.Moves q.dimension q.scale base u ∧ y = inUnitOf u z ∧ PoweredIn base c m f q ys z m' := by
  have hp := h.reduced hκ
  obtain ⟨m₁, hm, hunit⟩ := unit_of_exponent (q := q) h
  rw [call_power h] at hcall
  obtain ⟨u, _, hu, hcall⟩ := bind_eq_ok_iff.1 hcall
  rw [hunit] at hu
  obtain ⟨hpower, rfl⟩ := lift_eq_ok_iff.1 hu
  obtain ⟨vs, m₃, hvs, hcall⟩ := bind_eq_ok_iff.1 hcall
  obtain ⟨zs, _, hzs, hcall⟩ := bind_eq_ok_iff.1 hcall
  obtain ⟨rfl, rfl⟩ := pure_eq_ok_iff.1 hcall
  obtain ⟨z, rfl⟩ := exists_single h.results hzs
  obtain ⟨base, m₂, v, m₃, ws, hbase, hgrows, hv, hws, rfl⟩ := values_of_exponent h hys hm hvs
  have hmoves := Fraction.moves_of_unitOfPower hp.1 hpower hbase
  exact ⟨base, u, z, hmoves, rfl, m₂, v, m₃, ws, _, hm.trans hgrows, hv, hws, hzs⟩

end Session

end UnitAlgebra

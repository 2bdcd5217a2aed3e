/-
Values in other scales. A value that is taken to another scale shows its numbers times the ratio of the scales, whatever
kind of operand it is; a value in its own scale is left as it is.

Results:
- `elementwise_beside`, `elementwise_times`: a function of two numbers, or the product, on a full tensor and a number.
- `withNumber_cases`, `withNumber_spec`: an operand of numbers times a number.
- `valueIn_outcome`, `valueIn_spec`: the value of a quantity in a scale.
-/
import UnitAlgebra.Quantity.Basic
import UnitAlgebra.Proofs.Numeric.Exact
import UnitAlgebra.Proofs.Session.Memory

namespace UnitAlgebra

/-! ## Tensors times numbers -/

theorem Kind.join_real (k : Kind) : k.join .real = .real := by cases k <;> rfl

namespace Tensor

variable {κ : Type} [Numeric κ]

/-- a tensor, its numbers multiplied by one number -/
def times (t : Tensor κ) (r : κ) : Tensor κ := ofNumbers (t.numbers.map (Numeric.mul · r))

theorem filled_times {t : Tensor κ} (h : t.grid.Filled) (r : κ) : (t.times r).grid.Filled :=
  ((h.map _).map _).map _

theorem elementwise_beside {f : Elementwise} {r : κ} {g : κ → κ} (hreal : f.computing .real = some .real)
    (hone : f.results = 1) (hkind : f.resultKindAt .real 0 = .real) (hg : ∀ x, f.onNumbers x r = [.real (g x)])
    {t : Tensor κ} (h : t.grid.Filled) :
    elementwise f [t, .scalar (.real r)] = .ok [ofNumbers (t.numbers.map g)] := by
  have hrow : ∀ c : Cell κ, f.onCells .real [c, .real r] = .ok [.real (g c.toNumber)] :=
    fun c => congrArg Except.ok (hg c.toNumber)
  refine (elementwise_column hone h (.cons rfl .nil)).2
    ⟨.real, t.grid.entries.map fun c => [.real (g c.toNumber)], ?_, ?_, ?_⟩
  · change f.computing (t.kind.join .real) = _
    rw [Kind.join_real, hreal]
  · rw [List.forall₂_map_right_iff]
    exact List.forall₂_same.2 fun c _ => hrow c
  · simp [numbers, ofNumbers, Grid.map, hkind, List.filterMap_map, Function.comp_def]

/-- A full tensor times a number. -/
theorem elementwise_times {t : Tensor κ} (h : t.grid.Filled) (r : κ) :
    elementwise .multiply [t, .scalar (.real r)] = .ok [t.times r] :=
  elementwise_beside rfl rfl rfl (fun _ => rfl) h

end Tensor

/-! ## Operands times numbers -/

namespace Session

variable {κ : Type} [Numeric κ] {c : Context κ} {m m' : Store κ}

/-- what a number or array is taken to shows a tensor, and is no wide whole number -/
structure Shows (t : Tensor κ) (x : Operand κ) (m : Store κ) : Prop where
  tensor : x.tensor m = t
  numeric : x.IsNumeric m
  isNarrow : x.isWide = false

theorem elementwise₁_times {x y : Operand κ} {r : κ} (hx : x.IsNumeric m) (hw : x.isWide = false)
    (h : elementwise₁ .multiply [x, .number r] c m = .ok (y, m')) :
    m.Grows m' ∧ Shows ((x.tensor m).times r) y m' := by
  unfold elementwise₁ elementwise at h
  obtain ⟨ys, m₁, hys, h⟩ := bind_eq_ok_iff.1 h
  obtain ⟨ts, m₂, hts, hys⟩ := bind_eq_ok_iff.1 hys
  have htensors : ts = [x.tensor m, .scalar (.real r)] ∧ m = m₂ := by
    rw [List.mapM_cons, List.mapM_cons, List.mapM_nil] at hts
    obtain ⟨t, _, ht, hts⟩ := bind_eq_ok_iff.1 hts
    obtain ⟨rest, _, hrest, hts⟩ := bind_eq_ok_iff.1 hts
    obtain ⟨u, _, hu, hrest⟩ := bind_eq_ok_iff.1 hrest
    obtain ⟨hread, rfl⟩ := tensorOf_eq_ok_iff.1 ht
    obtain ⟨hread', rfl⟩ := tensorOf_eq_ok_iff.1 hu
    cases hrest
    cases hts
    rw [Operand.toTensor_eq hx hw] at hread
    rw [Operand.toTensor_eq (x := .number r) trivial rfl] at hread'
    cases hread
    cases hread'
    exact ⟨rfl, rfl⟩
  obtain ⟨rfl, rfl⟩ := htensors
  obtain ⟨results, _, hresults, hys⟩ := bind_eq_ok_iff.1 hys
  obtain ⟨hresults, rfl⟩ := lift_eq_ok_iff.1 hresults
  rw [Tensor.elementwise_times hx.filled] at hresults
  cases hresults
  rw [List.mapM_cons, List.mapM_nil] at hys
  obtain ⟨z, m₃, hz, hys⟩ := bind_eq_ok_iff.1 hys
  cases hys
  obtain ⟨rfl, rfl⟩ := pure_eq_ok_iff.1 h
  obtain ⟨hgrows, hcomputed⟩ := computed_spec hz
  have huniform : ((x.tensor m).times r).IsUniform := Tensor.isUniform_ofNumbers _
  exact ⟨hgrows, hcomputed.tensor huniform, hcomputed.numeric (Tensor.filled_times hx.filled r) huniform,
    hcomputed.isNarrow⟩

theorem exists_elementwise₁_times {x : Operand κ} (hx : x.IsNumeric m) (hw : x.isWide = false) (r : κ) :
    ∃ y m', elementwise₁ .multiply [x, .number r] c m = .ok (y, m') := by
  have hread : [x, .number r].mapM tensorOf c m = .ok ([x.tensor m, .scalar (.real r)], m) := by
    rw [List.mapM_cons, bind_of_ok (tensorOf_eq_ok_iff.2 ⟨Operand.toTensor_eq hx hw, rfl⟩)]
    rfl
  obtain ⟨y, m', hy⟩ := exists_computed ((x.tensor m).times r) c m
  refine ⟨y, m', ?_⟩
  unfold elementwise₁ elementwise
  rw [bind_assoc, bind_of_ok hread, Tensor.elementwise_times hx.filled]
  refine bind_eq_ok_iff.2 ⟨[y], m', bind_eq_ok_iff.2 ⟨[(x.tensor m).times r], m, rfl, ?_⟩, rfl⟩
  rw [List.mapM_cons, bind_of_ok hy]
  rfl

/-- a plain whole number that is too large for a number -/
def IsUncountable (x : Operand κ) : Prop := ∃ n, plain? x = some (.whole n) ∧ (Numeric.ofInt? n : Option κ) = none

theorem withNumber_cases {x : Operand κ} (hx : x.IsNumeric m) (r : κ) (c : Context κ) :
    (∃ y m', withNumber .mul x r c m = .ok (y, m')) ∨
      withNumber .mul x r c m = .error .tooLarge ∧ IsUncountable x := by
  have hwhole {n : Int} (h : plain? x = some (.whole n)) :
      (∃ y m', arithmetic .mul x (.number r) c m = .ok (y, m')) ∨
        arithmetic .mul x (.number r) c m = .error .tooLarge ∧ IsUncountable x := by
    have hrun : arithmetic .mul x (.number r) c m =
        ((Numeric.ofInt n : Outcome κ) >>= fun z => .ok (.number (Numeric.mul z r), m)) := by
      unfold arithmetic
      rw [h]
      change (liftM (Numeric.ofInt n >>= fun z => Except.ok (Operand.number (Numeric.mul z r))) : Session κ _) c m = _
      cases (Numeric.ofInt n : Outcome κ) <;> rfl
    cases hn : (Numeric.ofInt? n : Option κ) with
    | none =>
      rw [hrun, Numeric.ofInt, hn]
      exact .inr ⟨rfl, n, h, hn⟩
    | some z =>
      rw [hrun, Numeric.ofInt, hn]
      exact .inl ⟨_, _, rfl⟩
  cases x with
  | flag b => exact hwhole rfl
  | integer n => exact hwhole rfl
  | number z => exact .inl ⟨_, _, rfl⟩
  | item cell => exact .inl (exists_elementwise₁_times hx rfl r)
  | array v => exact .inl (exists_elementwise₁_times hx rfl r)
  | _ => exact hx.elim

end Session

/-! ## Values in other scales -/

/-- the exponents of a ratio of scales are out of range, or its number is -/
def Fault.IsScaleOverflow (fault : Fault) : Prop := ∃ cause, fault = .unit (.scaleOverflow cause)

theorem Numeric.isScaleOverflow_of_ratio {κ : Type} [Numeric κ] {s t : Scale} {fault : Fault}
    (h : (ratio s t : Outcome κ) = .error fault) : fault.IsScaleOverflow := by
  cases hdiv : s.div t with
  | error e =>
    have := Scale.reaches_div s t
    rw [ratio, hdiv] at h
    rw [hdiv] at this
    cases h
    exact this.2
  | ok u =>
    rw [ratio, hdiv] at h
    change factor u = .error fault at h
    unfold factor at h
    split at h
    · cases h
    · cases h
      exact ⟨_, rfl⟩

namespace Quantity

variable {κ : Type} [Numeric κ] {q : Quantity (Operand κ)} {s : Scale}

/-- a value in another scale is the value times the ratio of the scales -/
theorem valueIn_of_ne (hs : q.scale ≠ s) (c : Context κ) (m : Store κ) :
    q.valueIn s c m = (Numeric.ratio q.scale s >>= fun r => Session.withNumber .mul q.value r c m) := by
  rw [valueIn, Scale.steps, if_neg hs]
  change (Session.step q.value (.move q.scale s) >>= pure) c m = _
  rw [bind_pure]
  change ((liftM (Numeric.ratio q.scale s) : Session κ κ) >>= fun r => Session.withNumber .mul q.value r) c m = _
  cases Numeric.ratio (κ := κ) q.scale s <;> rfl

/-- A value is taken to a scale, unless the ratio of the scales is no number, or the value is too large for one. -/
theorem valueIn_outcome {m : Store κ} (hx : q.value.IsNumeric m) (s : Scale) (c : Context κ) :
    (∃ y m', q.valueIn s c m = .ok (y, m')) ∨ ∃ fault, q.valueIn s c m = .error fault ∧
      (q.scale ≠ s ∧ (Numeric.ratio q.scale s : Outcome κ) = .error fault ∨
        fault = .tooLarge ∧ Session.IsUncountable q.value) := by
  by_cases hs : q.scale = s
  · rw [← hs, q.valueIn_same]
    exact .inl ⟨_, _, rfl⟩
  · rw [valueIn_of_ne hs]
    cases hr : (Numeric.ratio q.scale s : Outcome κ) with
    | error fault => exact .inr ⟨fault, rfl, .inl ⟨hs, rfl⟩⟩
    | ok r =>
      rcases Session.withNumber_cases hx r c with hy | ⟨hfault, hlarge⟩
      · exact .inl hy
      · exact .inr ⟨.tooLarge, hfault, .inr ⟨rfl, hlarge⟩⟩

end Quantity

variable [Numeric ℝ] [Numeric.Exact]

namespace Session

variable {c : Context ℝ} {m m' : Store ℝ}

theorem plainArithmetic_times {a : Plain ℝ} {x y : Operand ℝ} {r : ℝ} (ha : plain? x = some a)
    (h : plainArithmetic .mul a (.number r) = .ok y) : Shows ((x.tensor m).times r) y m := by
  have hnumber : ∀ z : ℝ, a.toNumber = .ok z → (x.tensor m).times r = .scalar (.real (Numeric.mul z r)) := by
    intro z hz
    cases x <;> cases ha
    case flag b =>
      cases b
      · have : z = Numeric.zero := by
          rw [Plain.toNumber, Numeric.ofInt, Numeric.Exact.ofInt?] at hz
          cases hz
          rw [Numeric.Exact.zero]
          simp
        rw [this]
        rfl
      · have : z = Numeric.one := by
          rw [Plain.toNumber, Numeric.ofInt, Numeric.Exact.ofInt?] at hz
          cases hz
          rw [Numeric.Exact.one]
          simp
        rw [this]
        rfl
    case integer n =>
      rw [Plain.toNumber, Numeric.ofInt, Numeric.Exact.ofInt?] at hz
      cases hz
      change Tensor.ofNumbers ⟨[], [Numeric.mul (Cell.integer n).toNumber r]⟩ = _
      rw [Cell.toNumber_integer]
      rfl
    case number =>
      cases hz
      rfl
  have hproduct : ∃ z, a.toNumber = .ok z ∧ y = .number (Numeric.mul z r) := by
    have hrun : plainArithmetic .mul a (.number r) = (a.toNumber >>= fun z => .ok (.number (Numeric.mul z r))) := by
      cases a <;> rfl
    rw [hrun, Outcome.bind_eq_ok_iff] at h
    obtain ⟨z, hz, hy⟩ := h
    exact ⟨z, hz, (Except.ok.inj hy).symm⟩
  obtain ⟨z, hz, rfl⟩ := hproduct
  exact ⟨(hnumber z hz).symm, trivial, rfl⟩

/-- An operand of numbers times a number. -/
theorem withNumber_spec {x y : Operand ℝ} {r : ℝ} (hx : x.IsNumeric m)
    (h : withNumber .mul x r c m = .ok (y, m')) : m.Grows m' ∧ Shows ((x.tensor m).times r) y m' := by
  have hplain : ∀ a, plain? x = some a → arithmetic .mul x (.number r) c m = .ok (y, m') →
      m.Grows m' ∧ Shows ((x.tensor m).times r) y m' := by
    intro a ha h
    unfold arithmetic at h
    rw [ha] at h
    obtain ⟨hy, rfl⟩ := lift_eq_ok_iff.1 h
    exact ⟨.refl _, plainArithmetic_times ha hy⟩
  cases x with
  | flag b => exact hplain _ rfl h
  | integer n => exact hplain _ rfl h
  | number z => exact hplain _ rfl h
  | item cell => exact elementwise₁_times hx rfl h
  | array v => exact elementwise₁_times hx rfl h
  | _ => exact hx.elim

end Session

/-! ## Exact values in other scales -/

namespace Quantity

open Session

variable {c : Context ℝ} {m m' : Store ℝ}

/-- **The value in a scale.** It is the value itself, or its numbers times the ratio of the scales. -/
theorem valueIn_spec {q : Quantity (Operand ℝ)} {s : Scale} {y : Operand ℝ} (hx : q.value.IsNumeric m)
    (h : q.valueIn s c m = .ok (y, m')) : m.Grows m' ∧
      (q.scale = s ∧ y = q.value ∨ q.scale ≠ s ∧ Shows ((q.value.tensor m).times (q.scale.real / s.real)) y m') := by
  unfold valueIn convert Scale.steps at h
  split at h
  · next hs =>
    obtain ⟨rfl, rfl⟩ := pure_eq_ok_iff.1 h
    exact ⟨.refl _, Or.inl ⟨hs, rfl⟩⟩
  · next hs =>
    rw [List.foldlM_cons, bind_eq_ok_iff] at h
    obtain ⟨z, m₁, hz, h⟩ := h
    cases h
    unfold step at hz
    obtain ⟨r, _, hr, hz⟩ := bind_eq_ok_iff.1 hz
    obtain ⟨hratio, rfl⟩ := lift_eq_ok_iff.1 hr
    obtain ⟨hgrows, hshows⟩ := withNumber_spec hx hz
    rw [Numeric.ratio_eq hratio] at hshows
    exact ⟨hgrows, Or.inr ⟨hs, hshows⟩⟩

end Quantity

end UnitAlgebra

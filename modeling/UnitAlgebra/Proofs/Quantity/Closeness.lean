/-
Closeness of quantities. Whatever scales they are stored in, and whatever the policy is, quantities are as close as
their physical values are, if the absolute tolerance has a unit of its own. Without one it is a number of the scale that
is compared in, whichever the policy chooses.

Results:
- `tensorOf_ends`, `ComparesIn.closeArrays_ends`: values in a unit are as close as the physical values.
- `compare_ends`: what a comparison tells, and what it is refused for.
- `close_spec`: it tells the same once its operands are taken to other scales.
-/
import UnitAlgebra.Proofs.Expression.Factors
import UnitAlgebra.Proofs.Quantity.ArrayValues
import UnitAlgebra.Proofs.Quantity.Matching
import UnitAlgebra.Proofs.Quantity.Soundness
import UnitAlgebra.Proofs.Tensor.Closeness

namespace UnitAlgebra

/-- the function tells whether numbers are close -/
def ArrayFunction.compares : ArrayFunction → Bool
  | .isclose | .allclose => true
  | _ => false

/-- what comes out well, or is refused for causes of a class, is known once it is known what comes out -/
theorem Outcome.Ends.intro {α : Type} {P : α → Prop} {B : Fault → Prop} {o : Outcome α} (h : Ends (fun _ => True) B o)
    (hp : ∀ x, o = .ok x → P x) : Ends P B o := by
  cases o with
  | error fault => exact h
  | ok x => exact hp x rfl

/-! ## Common units -/

/-- where all that have a say are of one dimension, only the strict policy refuses a common unit, and for its scales -/
theorem commonUnit_refused {κ : Type} {p : ScalePolicy} {w : Wording} {q : Participant κ} {ps : List (Participant κ)}
    (hq : q.isBareZero = false) (hd : ∀ r ∈ ps, r.isBareZero = false → r.dimension = q.dimension) {fault : Fault}
    (h : commonUnit p w (q :: ps) = .error fault) : p = .strict ∧ ∃ s t o, fault = .scaleMismatch s t o := by
  rw [commonUnit_cons hq] at h
  obtain ⟨before, v, i, after, u, hsplit, -, hcause⟩ := matching_eq_error_iff.1 h
  have hv : v.dimension = q.dimension := by
    obtain ⟨⟨r, j⟩, hr, hrv⟩ := List.mem_map.1 (hsplit ▸ List.mem_append_right before List.mem_cons_self)
    cases hrv
    rw [deciding_cons hq] at hr
    rcases List.mem_cons.1 hr with hr | hr
    · cases hr
      rfl
    · obtain ⟨hmem, hzero⟩ := List.mem_filter.1 hr
      exact hd r (List.fst_mem_of_mem_zipIdx hmem) (by simpa using hzero)
  rcases hcause with ⟨hne, -⟩ | ⟨-, hnone, rfl⟩
  · exact absurd hv hne
  · refine ⟨?_, _, _, _, rfl⟩
    by_contra hp
    obtain ⟨s, hs⟩ := ScalePolicy.exists_resolve? hp u.scale v.scale
    cases hs.symm.trans hnone

section

variable [Numeric ℝ]

theorem Operand.IsSettled.grows {m m' : Store ℝ} {x : Operand ℝ} (hx : x.IsSettled m) (hm : m.Grows m') :
    x.IsSettled m' := by
  intro m₂ hm₂
  obtain ⟨htensor, hnumber⟩ := hx m₂ (hm.trans hm₂)
  obtain ⟨htensor', hnumber'⟩ := hx m' hm
  exact ⟨htensor.trans htensor'.symm, hnumber.trans hnumber'.symm⟩

/-! ## Values in other scales -/

namespace Session

variable {c : Context ℝ} {m m' : Store ℝ}

omit [Numeric ℝ] in
theorem lift_ends {α : Type} {o : Outcome α} {P : α × Store ℝ → Prop} {B : Fault → Prop}
    (hok : ∀ a, o = .ok a → P (a, m)) (hfault : ∀ fault, o = .error fault → B fault) :
    Outcome.Ends P B ((liftM o : Session ℝ α) c m) := by
  cases o with
  | error fault => exact hfault fault rfl
  | ok a => exact hok a rfl

theorem read_ends {x : Operand ℝ} {P : Tensor ℝ × Store ℝ → Prop} {B : Fault → Prop}
    (hok : ∀ t, x.toTensor m .asIs = .ok t → P (t, m)) (hfault : ∀ fault, x.toTensor m .asIs = .error fault → B fault) :
    Outcome.Ends P B (tensorOf x c m) := by
  change Outcome.Ends P B (x.toTensor m .asIs >>= fun t => .ok (t, m))
  cases ht : x.toTensor m .asIs with
  | error fault => exact hfault fault ht
  | ok t => exact hok t ht

/-- a value is taken to a scale, unless the ratio is out of range -/
theorem valueIn_ends [Numeric.Exact] {q : Quantity (Operand ℝ)} (hx : q.value.IsNumeric m) (s : Scale) :
    Outcome.Ends (fun _ => True) Fault.IsScaleOverflow (q.valueIn s c m) := by
  rcases Quantity.valueIn_outcome hx s c with ⟨y, m', hy⟩ | ⟨fault, hfault, ⟨-, hratio⟩ | ⟨-, n, -, hn⟩⟩
  · rw [hy]
    trivial
  · rw [hfault]
    exact Numeric.isScaleOverflow_of_ratio hratio
  · cases (Numeric.Exact.ofInt? n).symm.trans hn

/-! ## Arguments -/

variable {m₁ : Store ℝ} {f : ArrayFunction} {as bare : Arguments ℝ} {u : StorageUnit}

omit [Numeric ℝ] in
theorem aligns_of_compares (hf : f.compares = true) : f.aligns = true := by
  cases f <;> first | rfl | cases hf

/-- numbers, with units or without, where there may be some, and what can be read elsewhere -/
structure AreMeasures (m : Store ℝ) (as : Arguments ℝ) : Prop where
  measured : ∀ e ∈ as, e.1.role ≠ .bare → e.2.IsMeasure m
  bare : ∀ e ∈ as, e.1.role = .bare → e.2.isQuantity = false ∧ e.2.IsSettled m

theorem AreMeasures.grows (h : AreMeasures m as) (hm : m.Grows m₁) : AreMeasures m₁ as :=
  ⟨fun e he hrole => Operand.IsNumeric.grows (h.measured e he hrole) hm,
    fun e he hrole => ⟨(h.bare e he hrole).1, (h.bare e he hrole).2.grows hm⟩⟩

omit [Numeric ℝ] in
theorem role_of_compares (hf : f.compares = true) {p : Parameter} (hp : p ∈ f.parameters) :
    (p.role = .bare ∨ p.role = .quantity ∨ p.role = .perhaps) ∧ p.name ≠ "out" := by
  have hall : ∀ p ∈ f.parameters, (p.role = .bare ∨ p.role = .quantity ∨ p.role = .perhaps) ∧ p.name ≠ "out" := by
    cases f <;> first | decide | cases hf
  exact hall p hp

omit [Numeric ℝ] in
theorem name_of_compares (hf : f.compares = true) {p : Parameter} (hp : p ∈ f.parameters) (hrole : p.role ≠ .bare) :
    p.name ∈ ["a", "b", "atol"] := by
  have hall : ∀ p ∈ f.parameters, p.role ≠ .bare → p.name ∈ ["a", "b", "atol"] := by
    cases f <;> first | decide | cases hf
  exact hall p hp hrole

theorem baring_ends [Numeric.Exact] (hf : f.compares = true) {e : Parameter × Operand ℝ} (he : e.1 ∈ f.parameters)
    (hmeasured : e.1.role ≠ .bare → e.2.IsMeasure m) (hbare : e.1.role = .bare → e.2.isQuantity = false)
    (hd : e.1.role ≠ .bare → (e.2.participant m).isBareZero = false → (e.2.participant m).dimension = u.dimension)
    (hm : m.Grows m₁) :
    Outcome.Ends (fun r => m₁.Grows r.2 ∧ r.1.1 = e.1 ∧ Bared c m r.2 (factorFor f u) e.1.role e.2 r.1.2)
      Fault.IsScaleOverflow (baring f (some u) (e.1, Arguments.taken m e.1 e.2) c m₁) := by
  obtain ⟨⟨name, role, required⟩, x⟩ := e
  obtain ⟨hrole, hout⟩ := role_of_compares hf he
  have haligns := aligns_of_compares hf
  have hsingle (hr : role = .quantity ∨ role = .perhaps) (hx : x.IsMeasure m)
      (hd : (x.participant m).isBareZero = false → (x.participant m).dimension = u.dimension) :
      Outcome.Ends (fun r => m₁.Grows r.2 ∧ r.1.1 = ⟨name, role, required⟩ ∧
        Bared c m r.2 (factorFor f u) role x r.1.2) Fault.IsScaleOverflow
          (baring f (some u) (⟨name, role, required⟩, .single (x.participant m)) c m₁) := by
    have hrun : baring f (some u) (⟨name, role, required⟩, .single (x.participant m)) =
        (do return (⟨name, role, required⟩, ← UnitRule.alignedValue u (x.participant m)) : Session ℝ _) := by
      have hvalue : bareArgument f (some u) name (.single (x.participant m)) =
          UnitRule.alignedValue u (x.participant m) := by
        rw [bareArgument, if_neg hout]
        unfold valueFor
        rw [haligns]
      rw [← hvalue]
      rfl
    have haligned : Outcome.Ends (fun r => m₁.Grows r.2 ∧ Aligned m x (factorFor f u x) r.1 r.2) Fault.IsScaleOverflow
        (UnitRule.alignedValue u (x.participant m) c m₁) := by
      refine Outcome.Ends.intro ?_ fun r hr => ?_
      · unfold UnitRule.alignedValue
        split
        · exact valueIn_ends (by rw [x.value_participant]; exact hx.grows hm) _
        · trivial
      · rw [factorFor, if_pos haligns]
        exact aligned_of_alignedValue hx hm hd hr
    rw [hrun]
    refine haligned.bind fun r hvalue => ?_
    exact ⟨hvalue.1, rfl, .single hr (by rintro rfl; exact hx) hvalue.2⟩
  rcases hrole with hrole | hrole | hrole <;> obtain rfl : role = _ := hrole
  · rw [show Arguments.taken m ⟨name, .bare, required⟩ x = .bare x by cases x <;> rfl]
    exact ⟨.refl _, rfl, .bare (hbare rfl)⟩
  · have hne : Role.quantity ≠ .bare := by decide
    exact hsingle (.inl rfl) (hmeasured hne) (hd hne)
  · have hne : Role.perhaps ≠ .bare := by decide
    have hx := hmeasured hne
    rw [show Arguments.taken m ⟨name, .perhaps, required⟩ x = .single (x.participant m) by
      cases x <;> first | rfl | exact hx.elim]
    exact hsingle (.inr rfl) hx (hd hne)

theorem barings_ends [Numeric.Exact] (hf : f.compares = true) (hparams : ∀ e ∈ as, e.1 ∈ f.parameters)
    (has : AreMeasures m as) (hd : ∀ e ∈ as, e.1.role ≠ .bare → (e.2.participant m).isBareZero = false →
      (e.2.participant m).dimension = u.dimension) (hm : m.Grows m₁) :
    Outcome.Ends (fun r => m₁.Grows r.2 ∧
      List.Forall₂ (fun e o => o.1 = e.1 ∧ Bared c m r.2 (factorFor f u) e.1.role e.2 o.2) as r.1) Fault.IsScaleOverflow
        ((as.map fun e => (e.1, Arguments.taken m e.1 e.2)).mapM (baring f (some u)) c m₁) := by
  induction as generalizing m₁ with
  | nil => exact ⟨.refl _, .nil⟩
  | cons e as ih =>
    have hmem : ∀ {e'}, e' ∈ as → e' ∈ e :: as := fun he' => List.mem_cons_of_mem e he'
    have hfirst := baring_ends (c := c) hf (hparams e List.mem_cons_self) (has.measured e List.mem_cons_self)
      (fun hrole => (has.bare e List.mem_cons_self hrole).1) (hd e List.mem_cons_self) hm
    rw [List.map_cons, List.mapM_cons]
    refine hfirst.bind fun r hr => ?_
    obtain ⟨hgrows, hparam, hbared⟩ := hr
    refine (ih (fun e he => hparams e (hmem he)) ⟨fun e he => has.measured e (hmem he), fun e he => has.bare e (hmem he)⟩
      (fun e he => hd e (hmem he)) (hm.trans hgrows)).bind fun rest hrest => ?_
    obtain ⟨hgrows', hrest⟩ := hrest
    exact ⟨hgrows.trans hgrows', .cons ⟨hparam, hbared.grows hgrows'⟩ hrest⟩

/-! ## Closeness of physical values -/

/-- the absolute tolerance; what is told by default is a number of the scale that is compared in -/
noncomputable def toleranceOf (m : Store ℝ) (as : Arguments ℝ) (scale : Scale) : Tensor ℝ :=
  match as.get? "atol" with
  | none => .ofNumbers ⟨[], [Numeric.mul (Numeric.ofDecimal 1 (-8)) scale.real]⟩
  | some x => .ofNumbers (x.physical m)

/-- the relative tolerance, which has no unit -/
def partOf (m : Store ℝ) (as : Arguments ℝ) : Outcome (Tensor ℝ) :=
  match as.get? "rtol" with
  | none => .ok (.scalar (.real (Numeric.ofDecimal 1 (-5))))
  | some x => x.toTensor m .asIs

/-- **What there is to be told of physical values.** -/
noncomputable def closenessOf (m : Store ℝ) (as : Arguments ℝ) (scale : Scale) : Outcome (Tensor ℝ) := do
  Tensor.closeness (.ofNumbers ((as.get "a").physical m)) (.ofNumbers ((as.get "b").physical m)) (toleranceOf m as scale)
    (← partOf m as) (as.flag "equal_nan")

/-- the absolute tolerance, as it is given -/
def absoluteOf : Option (Operand ℝ) → Session ℝ (Tensor ℝ)
  | none => pure (.scalar (.real (Numeric.ofDecimal 1 (-8))))
  | some .absent => throw (.wrongType none)
  | some x => tensorOf x

/-- the relative tolerance, as it is given -/
def relativeOf : Option (Operand ℝ) → Session ℝ (Tensor ℝ)
  | none => pure (.scalar (.real (Numeric.ofDecimal 1 (-5))))
  | some x => tensorOf x

theorem closeArrays_eq (as : Arguments ℝ) : closeArrays as = (do
    let absolute ← absoluteOf (as.get? "atol")
    let relative ← relativeOf (as.get? "rtol")
    let a ← tensorOf (as.get "a")
    let b ← tensorOf (as.get "b")
    return ← Tensor.closeness a b absolute relative (as.flag "equal_nan")) := by
  unfold closeArrays
  dsimp only
  rcases as.get? "rtol" with _ | y
  · rcases as.get? "atol" with _ | x
    · rfl
    · cases x <;> rfl
  · rcases as.get? "atol" with _ | x
    · rfl
    · cases x <;> rfl

/-- a value in the unit that is compared in is read as it is, unless it is a whole number that is too large -/
theorem tensorOf_ends [Numeric.Exact] {x v : Operand ℝ} {a : ℝ} (hv : Aligned m x a v m₁) :
    Outcome.Ends (fun r => r.2 = m₁ ∧ Tensor.Scaled Cell.Equals a r.1 (.ofNumbers (x.physical m))) (· = .tooLarge)
      (tensorOf v c m₁) := by
  refine read_ends (fun t ht => ⟨rfl, ?_⟩) fun fault hfault => ?_
  · rw [Operand.tensor_of_toTensor hv.numeric ht]
    exact scaled_of_aligned hv
  · cases hwide : v.isWide with
    | true =>
      rw [Operand.toTensor_of_wide hwide] at hfault
      exact (Except.error.inj hfault).symm
    | false =>
      rw [Operand.toTensor_eq hv.numeric hwide] at hfault
      cases hfault

/-- arguments of a comparison, and what is computed on in a unit -/
structure ComparesIn (f : ArrayFunction) (u : StorageUnit) (c : Context ℝ) (m m₁ : Store ℝ) (as bare : Arguments ℝ) :
    Prop where
  compares : f.compares = true
  complete : Arguments.AreComplete f.parameters as
  measures : AreMeasures m as
  grows : m.Grows m₁
  bared : List.Forall₂ (fun e o => o.1 = e.1 ∧ Bared c m m₁ (fun _ => u.scale.real) e.1.role e.2 o.2) as bare

namespace ComparesIn

theorem find (h : ComparesIn f u c m m₁ as bare) (name : String) : as.get? name = none ∧ bare.get? name = none ∨
    ∃ x v, as.get? name = some x ∧ bare.get? name = some v ∧ Bared c m m₁ (fun _ => u.scale.real) (roleOf name) x v ∧
      (roleOf name ≠ .bare → x.IsMeasure m) ∧ (roleOf name = .bare → x.IsSettled m) := by
  cases hfind : as.find? (·.1.name = name) with
  | none =>
    refine .inl ⟨by rw [Arguments.get?, hfind]; rfl, ?_⟩
    rw [Arguments.get?, Option.map_eq_none_iff]
    by_contra hsome
    obtain ⟨o, ho⟩ := Option.ne_none_iff_exists'.1 hsome
    obtain ⟨e, he, -⟩ := exists_find? h.bared.flip (fun h => h.1.symm) ho
    cases hfind.symm.trans he
  | some e =>
    obtain ⟨o, ho, -, hbared⟩ := exists_find? h.bared (fun h => h.1) hfind
    have hmem := List.mem_of_find?_eq_some hfind
    have hrole : e.1.role = roleOf name := by
      rw [role_eq_roleOf (h.complete.ordered.subset (List.mem_map_of_mem hmem))]
      exact congrArg roleOf (by simpa using List.find?_some hfind)
    rw [hrole] at hbared
    exact .inr ⟨e.2, o.2, by rw [Arguments.get?, hfind]; rfl, by rw [Arguments.get?, ho]; rfl, hbared,
      fun hne => h.measures.measured e hmem (hrole ▸ hne), fun hbare => (h.measures.bare e hmem (hrole.trans hbare)).2⟩

theorem shared (h : ComparesIn f u c m m₁ as bare) (name : String) (hrole : roleOf name = .bare) :
    bare.get? name = as.get? name ∧ ∀ x, as.get? name = some x → x.IsSettled m := by
  rcases h.find name with ⟨hnone, hnone'⟩ | ⟨x, v, hx, hv, hbared, -, hsettled⟩
  · rw [hnone, hnone']
    exact ⟨rfl, nofun⟩
  · rw [hrole] at hbared
    rw [hx, hv]
    cases hbared with
    | single hr => rcases hr with hr | hr <;> cases hr
    | bare =>
      refine ⟨rfl, fun y hy => ?_⟩
      cases hy
      exact hsettled hrole

variable [Numeric.Analytic]

theorem own (h : ComparesIn f u c m m₁ as bare) {name : String} (hp : .needed name .quantity ∈ f.parameters) :
    Outcome.Ends (fun r => r.2 = m₁ ∧ Tensor.Scaled Cell.Equals u.scale.real r.1 (.ofNumbers ((as.get name).physical m)))
      (· = .tooLarge) (tensorOf (bare.get name) c m₁) := by
  rcases h.find name with ⟨hnone, -⟩ | ⟨x, v, hx, hv, hbared, -⟩
  · obtain ⟨e, he, hparam⟩ := List.mem_map.1 (h.complete.given _ hp rfl)
    rw [Arguments.get?, Option.map_eq_none_iff, List.find?_eq_none] at hnone
    exact absurd (hnone e he) (by simp [hparam, Parameter.needed])
  · have hrole : .quantity = roleOf name := role_eq_roleOf hp
    rw [Arguments.get_of_get? hx, Arguments.get_of_get? hv]
    rw [← hrole] at hbared
    cases hbared with
    | single _ _ haligned => exact tensorOf_ends haligned

theorem absolute (h : ComparesIn f u c m m₁ as bare) :
    Outcome.Ends (fun r => r.2 = m₁ ∧ Tensor.Scaled Cell.Equals u.scale.real r.1 (toleranceOf m as u.scale)) (· = .tooLarge)
      (absoluteOf (bare.get? "atol") c m₁) := by
  unfold toleranceOf
  rcases h.find "atol" with ⟨hnone, hnone'⟩ | ⟨x, v, hx, hv, hbared, hmeasure, -⟩
  · rw [hnone, hnone']
    refine ⟨rfl, ?_⟩
    rw [Numeric.Exact.mul]
    exact Tensor.scaled_ofNumbers (t := .scalar (.real _)) (fun cell hcell => by cases List.mem_singleton.1 hcell; rfl) _
  · rw [hx, hv]
    generalize hrole : roleOf "atol" = r at hbared hmeasure
    cases hbared with
    | single _ _ haligned =>
      rw [show absoluteOf (some v) = tensorOf v by cases v <;> rfl]
      exact tensorOf_ends haligned
    | absent => exact (hmeasure nofun).elim
    | several => cases hrole
    | bare => cases hrole

omit [Numeric.Analytic] in
theorem relative (h : ComparesIn f u c m m₁ as bare) :
    Outcome.Ends (fun r => r.2 = m₁ ∧ partOf m as = .ok r.1) (fun fault => partOf m as = .error fault)
      (relativeOf (bare.get? "rtol") c m₁) := by
  obtain ⟨hrtol, hsettled⟩ := h.shared "rtol" rfl
  rw [hrtol]
  unfold partOf relativeOf
  cases hx : as.get? "rtol" with
  | none => exact ⟨rfl, rfl⟩
  | some x =>
    have hread := (hsettled x hx m₁ h.grows).1
    exact read_ends (fun t ht => ⟨rfl, hread.symm.trans ht⟩) fun fault hfault => hread.symm.trans hfault

/-- **What is told of values in a unit** is what there is to be told of their physical values. -/
theorem closeArrays_ends (h : ComparesIn f u c m m₁ as bare) :
    Outcome.Ends (fun r => r.2 = m₁ ∧ closenessOf m as u.scale = .ok r.1)
      (fun fault => fault = .tooLarge ∨ closenessOf m as u.scale = .error fault) (closeArrays bare c m₁) := by
  have hneeded : .needed "a" .quantity ∈ f.parameters ∧ .needed "b" .quantity ∈ f.parameters := by
    have hf := h.compares
    cases f <;> first | decide | cases hf
  have hflag : bare.flag "equal_nan" = as.flag "equal_nan" := by
    rw [Arguments.flag, Arguments.flag, Arguments.get, Arguments.get, (h.shared "equal_nan" rfl).1]
  rw [closeArrays_eq, hflag]
  refine (h.absolute.imp (fun _ hr => hr) fun _ => .inl).bind fun r hr => ?_
  obtain ⟨absolute, m₂⟩ := r
  obtain ⟨rfl, habsolute⟩ := hr
  refine (h.relative.imp (fun _ hr => hr) fun fault hfault => ?_).bind fun r hr => ?_
  · rw [closenessOf, hfault]
    exact .inr rfl
  obtain ⟨relative, m₃⟩ := r
  obtain ⟨rfl, hrelative⟩ := hr
  refine ((h.own hneeded.1).imp (fun _ hr => hr) fun _ => .inl).bind fun r hr => ?_
  obtain ⟨a, m₄⟩ := r
  obtain ⟨rfl, ha⟩ := hr
  refine ((h.own hneeded.2).imp (fun _ hr => hr) fun _ => .inl).bind fun r hr => ?_
  obtain ⟨b, m₅⟩ := r
  obtain ⟨rfl, hb⟩ := hr
  have hsame : closenessOf m as u.scale = Tensor.closeness a b absolute relative (as.flag "equal_nan") := by
    rw [closenessOf, hrelative]
    exact Tensor.closeness_scaled u.scale.real_pos ha hb habsolute relative _
  exact lift_ends (fun t ht => ⟨rfl, hsame.trans ht⟩) fun fault hfault => .inr (hsame.trans hfault)

end ComparesIn

/-! ## Comparisons -/

/-- how a comparison names what it refuses -/
def comparing (f : ArrayFunction) : Wording := ⟨f.refusalName, "argument", [(2, "'atol'")]⟩

/-- what has a unit in a comparison, as it takes part -/
def compared (m : Store ℝ) (as : Arguments ℝ) : List (Participant ℝ) :=
  (["a", "b", "atol"].filterMap as.get?).map (Operand.participant m)

/-- the closeness of all that is compared, or of everything at once -/
def verdictOf (f : ArrayFunction) (t : Tensor ℝ) : Tensor ℝ :=
  match f with
  | .allclose => .scalar (.flag (t.grid.entries.all Cell.toBool))
  | _ => t

theorem participants_compared (hparams : ∀ e ∈ as, e.1 ∈ f.parameters) (has : AreMeasures m as) (name : String)
    (hrole : roleOf name = .quantity ∨ roleOf name = .perhaps) :
    participants (as.map fun e => (e.1, Arguments.taken m e.1 e.2)) name =
      (as.get? name).toList.map (Operand.participant m) := by
  cases hfind : as.find? (·.1.name = name) with
  | none =>
    have hnone : (as.map fun e => (e.1, Arguments.taken m e.1 e.2)).find? (·.1.name = name) = none := by
      rw [List.find?_map]
      exact congrArg (Option.map _) hfind
    rw [participants, hnone, Arguments.get?, hfind]
    rfl
  | some e =>
    obtain ⟨⟨name', role, required⟩, x⟩ := e
    have hmem := List.mem_of_find?_eq_some hfind
    have hname : name' = name := by simpa using List.find?_some hfind
    have hr : role = roleOf name := (role_eq_roleOf (hparams _ hmem)).trans (congrArg roleOf hname)
    have hx : x.IsMeasure m := by
      refine has.measured _ hmem fun hbare => ?_
      rcases hrole with h | h <;> cases h.symm.trans (hr.symm.trans hbare)
    rw [participants_taken hfind, Arguments.get?, hfind]
    rcases hrole with h | h <;> obtain rfl := hr.trans h
    · rfl
    · cases x <;> first | rfl | exact hx.elim

theorem unitOfResult_compared (hf : f.compares = true) (hparams : ∀ e ∈ as, e.1 ∈ f.parameters)
    (has : AreMeasures m as) : unitOfResult f (as.map fun e => (e.1, Arguments.taken m e.1 e.2)) c m =
      (commonUnit c.policy (comparing f) (compared m as)).map fun u => (some u, m) := by
  have hcompared : compared m as = (as.get? "a").toList.map (Operand.participant m) ++
      (as.get? "b").toList.map (Operand.participant m) ++ (as.get? "atol").toList.map (Operand.participant m) := by
    simp only [compared, List.filterMap_cons, List.filterMap_nil]
    cases as.get? "a" <;> cases as.get? "b" <;> cases as.get? "atol" <;> rfl
  have hcommon (w : Wording) (ps : List (Participant ℝ)) :
      (do return some (← commonUnit (← policy) w ps) : Session ℝ (Option StorageUnit)) c m =
        (commonUnit c.policy w ps).map fun u => (some u, m) := by
    change ((liftM (commonUnit c.policy w ps) : Session ℝ StorageUnit) >>= fun u => pure (some u)) c m = _
    cases commonUnit c.policy w ps <;> rfl
  have ha := participants_compared hparams has "a" (.inl rfl)
  have hb := participants_compared hparams has "b" (.inl rfl)
  have hatol := participants_compared hparams has "atol" (.inr rfl)
  rw [hcompared]
  unfold unitOfResult
  cases f with
  | isclose | allclose =>
    simp only [ha, hb, hatol]
    exact hcommon _ _
  | _ => cases hf

theorem otherResult_ends [Numeric.Analytic] (h : ComparesIn f u c m m₁ as bare) :
    Outcome.Ends (fun r => r.1.isQuantity = false ∧ ∃ t, closenessOf m as u.scale = .ok t ∧ r.1.tensor r.2 = verdictOf f t)
      (fun fault => fault = .tooLarge ∨ closenessOf m as u.scale = .error fault) (otherResult f bare c m₁) := by
  have hclose := h.closeArrays_ends
  have hf := h.compares
  cases f with
  | isclose =>
    refine hclose.bind fun r hr => ?_
    obtain ⟨t, m₂⟩ := r
    obtain ⟨-, ht⟩ := hr
    obtain ⟨y, m₃, hy⟩ := exists_computed t c m₂
    obtain ⟨-, hcomputed⟩ := computed_spec hy
    obtain ⟨relative, -, hcloseness⟩ := Outcome.bind_eq_ok_iff.1 ht
    change Outcome.Ends _ _ (computed t c m₂)
    rw [hy]
    exact ⟨hcomputed.isBare, t, ht, hcomputed.tensor (Tensor.isUniform_of_closeness hcloseness)⟩
  | allclose => exact hclose.bind fun r hr => ⟨rfl, r.1, hr.2, rfl⟩
  | _ => cases hf

/-- **What a comparison tells**: its common unit, and what there is to be told of the physical values. -/
theorem compare_ends [Numeric.Analytic] {args : List (Operand ℝ)} {named : List (String × Operand ℝ)}
    (hf : f.compares = true) (hbind : Arguments.bind f.parameters args named = .ok as) (has : AreMeasures m as)
    (hany : as.any (bringsQuantity f) = true) (c : Context ℝ) :
    Outcome.Ends
      (fun r => r.1.isQuantity = false ∧ ∃ u t, commonUnit c.policy (comparing f) (compared m as) = .ok u ∧
        closenessOf m as u.scale = .ok t ∧ r.1.tensor r.2 = verdictOf f t)
      (fun fault => commonUnit c.policy (comparing f) (compared m as) = .error fault ∨ fault.IsScaleOverflow ∨
        fault = .tooLarge ∨ ∃ u, commonUnit c.policy (comparing f) (compared m as) = .ok u ∧
          closenessOf m as u.scale = .error fault)
      (applyArrayFunction f args named c m) := by
  have hcomplete := Arguments.areComplete_of_bind hbind
  have hparams : ∀ e ∈ as, e.1 ∈ f.parameters := fun e he => mem_of_bind hbind he
  have hout : as.get "out" = .absent := by
    have hnone : as.get? "out" = none := by
      rw [Arguments.get?, Option.map_eq_none_iff, List.find?_eq_none]
      exact fun e he => by simpa using (role_of_compares hf (hparams e he)).2
    rw [Arguments.get, hnone]
    rfl
  have htaken : as.AreTaken := fun e he => ⟨fun hrole => (has.bare e he hrole).1, fun hrole => by
    rcases (role_of_compares hf (hparams e he)).1 with h | h | h <;> cases hrole.symm.trans h⟩
  have hplain (bare : Arguments ℝ) : prepareArrayBare f none bare = (do return .done (← otherResult f bare)) := by
    cases f <;> first | rfl | cases hf
  have hgives : f.givesQuantity = false := by cases f <;> first | rfl | cases hf
  have hdone (y : Operand ℝ) : (Prepared.done y).run = (pure y : Session ℝ (Operand ℝ)) := rfl
  have htook : as.mapM (taking f) c m = .ok (as.map fun e => (e.1, Arguments.taken m e.1 e.2), m) := mapM_argumentOf htaken
  rw [applyArrayFunction, prepareArrayFunction_eq hbind hout, prepareArray_eq, if_pos hany, prepareArrayRule_eq, bind_assoc,
    bind_of_ok htook, bind_assoc]
  have hunit := unitOfResult_compared (c := c) hf hparams has
  cases hu : commonUnit c.policy (comparing f) (compared m as) with
  | error fault =>
    rw [hu] at hunit
    rw [bind_of_error hunit]
    exact .inl rfl
  | ok u =>
    rw [hu] at hunit
    rw [bind_of_ok hunit, bind_assoc]
    have hd : ∀ e ∈ as, e.1.role ≠ .bare → (e.2.participant m).isBareZero = false →
        (e.2.participant m).dimension = u.dimension := by
      intro e he hrole
      refine dimension_eq_of_commonUnit hu (List.mem_map_of_mem (List.mem_filterMap.2 ⟨e.1.name, ?_, ?_⟩))
      · exact name_of_compares hf (hparams e he) hrole
      · rw [Arguments.get?, find?_of_names (nodup_names hcomplete) he]
        rfl
    refine ((barings_ends hf hparams has hd (.refl m)).imp (fun _ h => h) fun _ h => .inr (.inl h)).bind
      fun r hr => ?_
    obtain ⟨bare, m₁⟩ := r
    obtain ⟨hgrows, hbared⟩ := hr
    have hfactor : factorFor f u = fun _ => u.scale.real := by
      funext x
      rw [factorFor, if_pos (aligns_of_compares hf)]
    rw [hfactor] at hbared
    have hcompares : ComparesIn f u c m m₁ as bare := ⟨hf, hcomplete, has, hgrows, hbared⟩
    simp only [hplain, hgives, bind_assoc, pure_bind, hdone, bind_pure]
    refine (otherResult_ends hcompares).imp (fun r hr => ?_) fun fault hcause => ?_
    · obtain ⟨hbare, t, ht, htells⟩ := hr
      exact ⟨hbare, u, t, rfl, ht, htells⟩
    · rcases hcause with hlarge | hfault
      exacts [.inr (.inr (.inl hlarge)), .inr (.inr (.inr ⟨u, rfl, hfault⟩))]

/-! ## Other scales -/

/-- the scales are what a comparison is refused for -/
def RefusedForScales (c : Context ℝ) (fault : Fault) : Prop :=
  (c.policy = .strict ∧ ∃ s t o, fault = .scaleMismatch s t o) ∨ fault.IsScaleOverflow ∨ fault = .tooLarge

/-- what one run tells another tells as well, unless it is refused for its scales -/
def Repeats (c : Context ℝ) (o o' : Outcome (Operand ℝ × Store ℝ)) : Prop :=
  ∀ r, o = .ok r → Outcome.Ends (fun r' => r'.1.isQuantity = false ∧ r'.1.tensor r'.2 = r.1.tensor r.2)
    (RefusedForScales c) o'

/-- a call that compares two quantities -/
structure Comparison (f : ArrayFunction) (m : Store ℝ) (q r : Quantity (Operand ℝ)) (rest : List (Operand ℝ))
    (named : List (String × Operand ℝ)) (options : Arguments ℝ) : Prop where
  compares : f.compares = true
  bound : Arguments.bind (f.parameters.drop 2) rest named = .ok options
  left : q.value.IsNumeric m
  right : r.value.IsNumeric m
  options : AreMeasures m options

/-- the arguments of such a call -/
def comparand (q r : Quantity (Operand ℝ)) (options : Arguments ℝ) : Arguments ℝ :=
  (.needed "a" .quantity, .quantity q) :: (.needed "b" .quantity, .quantity r) :: options

section

variable {q r : Quantity (Operand ℝ)} {rest : List (Operand ℝ)} {named : List (String × Operand ℝ)}
  {options : Arguments ℝ}

theorem Comparison.bind_eq (h : Comparison f m q r rest named options) :
    Arguments.bind f.parameters (.quantity q :: .quantity r :: rest) named = .ok (comparand q r options) := by
  have hparameters : f.parameters = .needed "a" .quantity :: .needed "b" .quantity :: f.parameters.drop 2 := by
    have hf := h.compares
    cases f <;> first | rfl | cases hf
  rw [hparameters, bind_cons, bind_cons, h.bound]
  rfl

theorem Comparison.measures (h : Comparison f m q r rest named options) : AreMeasures m (comparand q r options) := by
  refine ⟨fun e he hrole => ?_, fun e he hrole => ?_⟩
  · rcases List.mem_cons.1 he with rfl | he
    · exact h.left
    · rcases List.mem_cons.1 he with rfl | he
      exacts [h.right, h.options.measured e he hrole]
  · rcases List.mem_cons.1 he with rfl | he
    · cases hrole
    · rcases List.mem_cons.1 he with rfl | he
      · cases hrole
      · exact h.options.bare e he hrole

omit [Numeric ℝ] in
theorem any_comparand (f : ArrayFunction) (q r : Quantity (Operand ℝ)) (options : Arguments ℝ) :
    (comparand q r options).any (bringsQuantity f) = true := by
  have hbrings : bringsUnits f "a" = true := by cases f <;> rfl
  exact List.any_eq_true.2 ⟨_, List.mem_cons_self, Bool.and_eq_true_iff.2 ⟨hbrings, rfl⟩⟩

omit [Numeric ℝ] in
theorem get?_comparand (q r : Quantity (Operand ℝ)) (options : Arguments ℝ) {name : String} (ha : name ≠ "a")
    (hb : name ≠ "b") : (comparand q r options).get? name = options.get? name := by
  rw [Arguments.get?, comparand, List.find?_cons_of_neg (by simp [Parameter.needed, ha.symm]),
    List.find?_cons_of_neg (by simp [Parameter.needed, hb.symm])]
  rfl

theorem compared_comparand : compared m (comparand q r options) =
    ⟨q, false⟩ :: ⟨r, false⟩ :: (options.get? "atol").toList.map (Operand.participant m) := by
  have hatol : (comparand q r options).get? "atol" = options.get? "atol" :=
    get?_comparand q r options (by decide) (by decide)
  have ha : (comparand q r options).get? "a" = some (.quantity q) := rfl
  have hb : (comparand q r options).get? "b" = some (.quantity r) := rfl
  simp only [compared, List.filterMap_cons, List.filterMap_nil, ha, hb, hatol]
  cases options.get? "atol" <;> rfl

theorem closenessOf_comparand (scale : Scale) : closenessOf m (comparand q r options) scale = (do
    Tensor.closeness (.ofNumbers ((Operand.quantity q).physical m)) (.ofNumbers ((Operand.quantity r).physical m))
      (toleranceOf m options scale) (← partOf m options) (options.flag "equal_nan")) := by
  have ha : (comparand q r options).get "a" = .quantity q := rfl
  have hb : (comparand q r options).get "b" = .quantity r := rfl
  rw [closenessOf, toleranceOf, partOf, ha, hb, Arguments.flag, Arguments.get,
    get?_comparand q r options (by decide) (by decide), get?_comparand q r options (by decide) (by decide),
    get?_comparand q r options (by decide) (by decide)]
  rfl

/-- options of a comparison that are read alike in two memories -/
structure ReadAlike (m m' : Store ℝ) (options : Arguments ℝ) : Prop where
  physical : (options.get? "atol").map (Operand.physical m') = (options.get? "atol").map (Operand.physical m)
  participant : (options.get? "atol").map (Operand.participant m') = (options.get? "atol").map (Operand.participant m)
  part : partOf m' options = partOf m options

theorem ReadAlike.symm (h : ReadAlike m m' options) : ReadAlike m' m options :=
  ⟨h.physical.symm, h.participant.symm, h.part.symm⟩

theorem ReadAlike.tolerance (h : ReadAlike m m' options) {scale scale' : Scale}
    (hscale : options.get? "atol" = none → scale = scale') :
    toleranceOf m' options scale' = toleranceOf m options scale := by
  have hphysical := h.physical
  unfold toleranceOf
  cases hatol : options.get? "atol" with
  | none => rw [hscale hatol]
  | some x =>
    rw [hatol] at hphysical
    exact congrArg Tensor.ofNumbers (Option.some.inj hphysical)

theorem physical_of_grows {x : Operand ℝ} (hx : x.IsMeasure m) (hm : m.Grows m') : x.physical m' = x.physical m := by
  unfold Operand.physical Operand.stored
  rw [Operand.tensor_of_grows hx.live hm]

theorem readAlike_of_grows (hparams : ∀ e ∈ options, e.1 ∈ f.parameters) (h : AreMeasures m options) (hm : m.Grows m') :
    ReadAlike m m' options := by
  have hatol : ∀ x, options.get? "atol" = some x → x.IsMeasure m := by
    intro x hx
    obtain ⟨e, he, rfl⟩ := Option.map_eq_some_iff.1 hx
    have hmem := List.mem_of_find?_eq_some he
    have hname : e.1.name = "atol" := by simpa using List.find?_some he
    refine h.measured e hmem ?_
    rw [role_eq_roleOf (hparams e hmem), hname]
    exact nofun
  refine ⟨?_, ?_, ?_⟩
  · cases hx : options.get? "atol" with
    | none => rfl
    | some x => exact congrArg some (physical_of_grows (hatol x hx) hm)
  · cases hx : options.get? "atol" with
    | none => rfl
    | some x => exact congrArg some (participant_of_grows (hatol x hx) hm)
  · unfold partOf
    cases hx : options.get? "rtol" with
    | none => rfl
    | some x =>
      obtain ⟨e, he, rfl⟩ := Option.map_eq_some_iff.1 hx
      have hmem := List.mem_of_find?_eq_some he
      have hname : e.1.name = "rtol" := by simpa using List.find?_some he
      exact ((h.bare e hmem (by rw [role_eq_roleOf (hparams e hmem), hname]; rfl)).2 m' hm).1

variable [Numeric.Analytic]

/-- Comparisons of the same physical values tell the same. -/
theorem repeats_of_physical {q' r' : Quantity (Operand ℝ)} {c : Context ℝ} (h : Comparison f m q r rest named options)
    (h' : Comparison f m' q' r' rest named options) (hq : q'.dimension = q.dimension) (hr : r'.dimension = r.dimension)
    (hphysical : (Operand.quantity q').physical m' = (Operand.quantity q).physical m)
    (hphysical' : (Operand.quantity r').physical m' = (Operand.quantity r).physical m) (halike : ReadAlike m m' options)
    (hscale : options.get? "atol" = none → ∀ u u', commonUnit c.policy (comparing f) [⟨q, false⟩, ⟨r, false⟩] = .ok u →
      commonUnit c.policy (comparing f) [⟨q', false⟩, ⟨r', false⟩] = .ok u' → u.scale = u'.scale) :
    Repeats c (applyArrayFunction f (.quantity q :: .quantity r :: rest) named c m)
      (applyArrayFunction f (.quantity q' :: .quantity r' :: rest) named c m') := by
  intro ⟨y, m₁⟩ hy
  have htold := compare_ends h.compares h.bind_eq h.measures (any_comparand f q r options) c
  rw [hy] at htold
  obtain ⟨-, u, t, hu, ht, hshows⟩ := htold
  have hsame {u'} (hu' : commonUnit c.policy (comparing f) (compared m' (comparand q' r' options)) = .ok u') :
      closenessOf m' (comparand q' r' options) u'.scale = .ok t := by
    rw [closenessOf_comparand, hphysical, hphysical', halike.part, halike.tolerance fun hnone => ?_,
      ← closenessOf_comparand]
    · exact ht
    · rw [compared_comparand, hnone] at hu hu'
      exact hscale hnone u u' hu hu'
  refine (compare_ends h'.compares h'.bind_eq h'.measures (any_comparand f q' r' options) c).imp ?_ ?_
  · rintro ⟨y', m₂⟩ ⟨hplain, u', t', hu', ht', hshows'⟩
    cases (hsame hu').symm.trans ht'
    exact ⟨hplain, hshows'.trans hshows.symm⟩
  · rintro fault (hfault | hoverflow | hlarge | ⟨u', hu', hfault⟩)
    · rw [compared_comparand] at hu hfault
      refine .inl (commonUnit_refused rfl (fun p hp hzero => ?_) hfault)
      have hown : q'.dimension = u.dimension := hq.trans (dimension_eq_of_commonUnit hu List.mem_cons_self rfl)
      rcases List.mem_cons.1 hp with rfl | hp
      · exact hr.trans ((dimension_eq_of_commonUnit hu (List.mem_cons_of_mem _ List.mem_cons_self) rfl).trans hown.symm)
      · have hatol : (options.get? "atol").toList.map (Operand.participant m') =
            (options.get? "atol").toList.map (Operand.participant m) := by
          have hparticipant := halike.participant
          cases hx : options.get? "atol" with
          | none => rfl
          | some x =>
            rw [hx] at hparticipant
            exact congrArg (· :: []) (Option.some.inj hparticipant)
        rw [hatol] at hp
        have hmem := List.mem_cons_of_mem ⟨q, false⟩ (List.mem_cons_of_mem ⟨r, false⟩ hp)
        exact (dimension_eq_of_commonUnit hu hmem hzero).trans hown.symm
    · exact .inr (.inl hoverflow)
    · exact .inr (.inr hlarge)
    · cases (hsame hu').symm.trans hfault

omit [Numeric.Analytic] in
theorem physical_toScale [Numeric.Exact] {c : Context ℝ} (hq : q.value.IsNumeric m) {s : Scale}
    (h : q.toScale s c m = .ok (r, m')) : m.Grows m' ∧ r.value.IsNumeric m' ∧ r.dimension = q.dimension ∧
      (Operand.quantity r).physical m' = (Operand.quantity q).physical m := by
  obtain ⟨y, m₁, hy, h⟩ := bind_eq_ok_iff.1 h
  cases h
  have haligned : UnitRule.alignedValue ⟨q.dimension, s⟩ ⟨q, false⟩ c m = .ok (y, m') := by
    change (if q.dimension = q.dimension then q.valueIn s else pure q.value) c m = _
    rw [if_pos rfl]
    exact hy
  obtain ⟨hgrows, hvalue⟩ := aligned_of_alignedValue (x := .quantity q) hq (.refl m) (fun _ => rfl) haligned
  refine ⟨hgrows, hvalue.numeric, rfl, ?_⟩
  rw [← hvalue.physical]
  simp only [Numeric.Exact.mul]
  rfl

/-- **Closeness in other scales.** Once its operands are taken to other scales, a comparison tells what it told before,
unless it is refused for its scales: always if an absolute tolerance is given, and otherwise if the common scale is the
same. -/
theorem close_spec (h : Comparison f m q r rest named options) {c : Context ℝ} {s t : Scale}
    {q' r' : Quantity (Operand ℝ)} {m₁ m₂ : Store ℝ} (hq : q.toScale s c m = .ok (q', m₁))
    (hr : r.toScale t c m₁ = .ok (r', m₂)) (hscale : options.get? "atol" = none → ∀ u u',
      commonUnit c.policy (comparing f) [⟨q, false⟩, ⟨r, false⟩] = .ok u →
      commonUnit c.policy (comparing f) [⟨q', false⟩, ⟨r', false⟩] = .ok u' → u.scale = u'.scale) :
    Repeats c (applyArrayFunction f (.quantity q :: .quantity r :: rest) named c m)
      (applyArrayFunction f (.quantity q' :: .quantity r' :: rest) named c m₂) ∧
    Repeats c (applyArrayFunction f (.quantity q' :: .quantity r' :: rest) named c m₂)
      (applyArrayFunction f (.quantity q :: .quantity r :: rest) named c m) := by
  obtain ⟨hm₁, hnumeric, hdimension, hphysical⟩ := physical_toScale h.left hq
  obtain ⟨hm₂, hnumeric', hdimension', hphysical'⟩ := physical_toScale (h.right.grows hm₁) hr
  have hm := hm₁.trans hm₂
  have hparams : ∀ e ∈ options, e.1 ∈ f.parameters := fun e he =>
    mem_of_bind h.bind_eq (List.mem_cons_of_mem _ (List.mem_cons_of_mem _ he))
  have h' : Comparison f m₂ q' r' rest named options :=
    ⟨h.compares, h.bound, hnumeric.grows hm₂, hnumeric', h.options.grows hm⟩
  have hleft := (physical_of_grows (x := .quantity q') hnumeric hm₂).trans hphysical
  have hright := hphysical'.trans (physical_of_grows (x := .quantity r) h.right hm₁)
  have halike := readAlike_of_grows hparams h.options hm
  exact ⟨repeats_of_physical h h' hdimension hdimension' hleft hright halike hscale,
    repeats_of_physical h' h hdimension.symm hdimension'.symm hleft.symm hright.symm halike.symm
      fun hnone u u' hu hu' => (hscale hnone u' u hu' hu).symm⟩

end

end Session

end

/-! ## Lengths -/

section Lengths

open Session

/-- a number as a length -/
def lengthOf (x : ℝ) (s : Scale) : Quantity (Operand ℝ) := ⟨.number x, { length := 1 }, s⟩

/-- a kilometer and a thousand meters are as close in kilometers as they are in meters -/
theorem close_spec_lengths : ∃ q r m₁ m₂ y m' y' m'',
    (lengthOf 1 (.ten 3)).toScale .one (unnamed .smallerWins) ⟨[]⟩ = .ok (q, m₁) ∧
    (lengthOf 1000 .one).toScale (.ten 3) (unnamed .smallerWins) m₁ = .ok (r, m₂) ∧
    applyArrayFunction .isclose [.quantity (lengthOf 1 (.ten 3)), .quantity (lengthOf 1000 .one)]
      [("atol", .quantity (lengthOf 1 (.ten (-3))))] (unnamed .smallerWins) ⟨[]⟩ = .ok (y, m') ∧
    applyArrayFunction .isclose [.quantity q, .quantity r] [("atol", .quantity (lengthOf 1 (.ten (-3))))]
      (unnamed .smallerWins) m₂ = .ok (y', m'') ∧ y'.tensor m'' = y.tensor m' := by
  have hcalls : Comparison .isclose ⟨[]⟩ (lengthOf 1 (.ten 3)) (lengthOf 1000 .one) []
      [("atol", .quantity (lengthOf 1 (.ten (-3))))]
      [(.optional "atol" .perhaps, .quantity (lengthOf 1 (.ten (-3))))] := by
    refine ⟨rfl, rfl, trivial, trivial, fun e he _ => ?_, fun e he hrole => ?_⟩ <;> obtain rfl := List.mem_singleton.1 he
    · trivial
    · cases hrole
  have hruns : ∃ q r m₁ m₂ y m' y' m'',
      (lengthOf 1 (.ten 3)).toScale .one (unnamed .smallerWins) ⟨[]⟩ = .ok (q, m₁) ∧
      (lengthOf 1000 .one).toScale (.ten 3) (unnamed .smallerWins) m₁ = .ok (r, m₂) ∧
      applyArrayFunction .isclose [.quantity (lengthOf 1 (.ten 3)), .quantity (lengthOf 1000 .one)]
        [("atol", .quantity (lengthOf 1 (.ten (-3))))] (unnamed .smallerWins) ⟨[]⟩ = .ok (y, m') ∧
      applyArrayFunction .isclose [.quantity q, .quantity r] [("atol", .quantity (lengthOf 1 (.ten (-3))))]
        (unnamed .smallerWins) m₂ = .ok (y', m'') := ⟨_, _, _, _, _, _, _, _, rfl, rfl, rfl, rfl⟩
  obtain ⟨q, r, m₁, m₂, y, m', y', m'', hq, hr, hy, hy'⟩ := hruns
  have hrepeats := (close_spec hcalls hq hr nofun).1
  rw [hy'] at hrepeats
  exact ⟨q, r, m₁, m₂, y, m', y', m'', hq, hr, hy, hy', (hrepeats _ hy).2⟩

/-- the tolerances of a comparison that names none -/
noncomputable def byDefault : Tensor.Tolerance ℝ := ⟨Numeric.ofDecimal 1 (-8), Numeric.ofDecimal 1 (-5), false⟩

theorem isClose_byDefault (x y : ℝ) :
    Tensor.isClose byDefault x y = true ↔ |x - y| ≤ 10 ^ (-8 : ℤ) + 10 ^ (-5 : ℤ) * |y| ∨ x = y := by
  have hdecimal (e : ℤ) : (Numeric.ofDecimal 1 e : ℝ) = 10 ^ e :=
    (congrArg (· * (10 : ℝ) ^ e) Int.cast_one).trans (one_mul _)
  have hfinite : Numeric.isFinite y = true := rfl
  rw [Tensor.isClose, byDefault, hfinite, hdecimal, hdecimal, Bool.and_true, Bool.false_and, Bool.false_and,
    Bool.or_false, Bool.or_eq_true_iff, Numeric.Exact.le, Numeric.Exact.eq]
  rfl

/-- Under the strict policy a meter is compared with itself, and not with its kilometers; a nanometer is not close to
two of them, and it is in meters, where the default tolerance is one of ten nanometers. -/
theorem not_close_scaled :
    (∃ q m₁ y m' s t o, (lengthOf 1 .one).toScale (.ten 3) (unnamed .strict) ⟨[]⟩ = .ok (q, m₁) ∧
      applyArrayFunction .isclose [.quantity (lengthOf 1 .one), .quantity (lengthOf 1 .one)] [] (unnamed .strict) ⟨[]⟩ =
        .ok (y, m') ∧
      applyArrayFunction .isclose [.quantity q, .quantity (lengthOf 1 .one)] [] (unnamed .strict) m₁ =
        .error (.scaleMismatch s t o)) ∧
    ∃ x y, (lengthOf 1 (.ten (-9))).toScale .one (unnamed .smallerWins) ⟨[]⟩ = .ok (lengthOf x .one, ⟨[]⟩) ∧
      (lengthOf 2 (.ten (-9))).toScale .one (unnamed .smallerWins) ⟨[]⟩ = .ok (lengthOf y .one, ⟨[]⟩) ∧
      applyArrayFunction .isclose [.quantity (lengthOf 1 (.ten (-9))), .quantity (lengthOf 2 (.ten (-9)))] []
        (unnamed .smallerWins) ⟨[]⟩ = .ok (.item (.flag false), ⟨[]⟩) ∧
      applyArrayFunction .isclose [.quantity (lengthOf x .one), .quantity (lengthOf y .one)] [] (unnamed .smallerWins)
        ⟨[]⟩ = .ok (.item (.flag true), ⟨[]⟩) := by
  have hbillionth : (Scale.ten (-9)).real = 10 ^ (-9 : ℤ) := by
    change (2 : ℝ) ^ (-9 : ℤ) * ((3 : ℝ) ^ (0 : ℤ) * ((5 : ℝ) ^ (-9 : ℤ) * (Real.pi ^ (0 : ℤ) * 1))) = 10 ^ (-9 : ℤ)
    norm_num
  have hfar : Tensor.isClose byDefault 1 2 = false := by
    rw [Bool.eq_false_iff, ne_eq, isClose_byDefault]
    norm_num
  have hclose : Tensor.isClose byDefault (1 * (Scale.ten (-9)).real) (2 * (Scale.ten (-9)).real) = true := by
    rw [isClose_byDefault, hbillionth]
    norm_num
  refine ⟨⟨_, _, _, _, _, _, _, rfl, rfl, rfl⟩, 1 * (Scale.ten (-9)).real, 2 * (Scale.ten (-9)).real, rfl, rfl, ?_, ?_⟩
  · rw [← hfar]
    rfl
  · rw [← hclose]
    rfl

end Lengths

end UnitAlgebra

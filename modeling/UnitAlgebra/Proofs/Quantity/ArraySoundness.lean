/-
Soundness of array functions. A function that combines the values of its operands gives a quantity in the unit that
belongs to it, and the physical values of the result are what the function gives on the physical values of the operands,
whatever scales they are stored in and whatever the policy is. Whole numbers and truth values are combined as such, so
that this holds where the exact result is such a value again.

Results:
- `hasUnitOf_of_unitOfResult`: the unit of the result, and the factor that belongs to it.
- `combined_scaled`: bare arguments for physical values give the result times the factor.
-/
import UnitAlgebra.Proofs.Conversion.Sizes
import UnitAlgebra.Proofs.Quantity.ArrayValues
import UnitAlgebra.Proofs.Quantity.Sequences
import UnitAlgebra.Proofs.Quantity.Soundness

namespace UnitAlgebra

/-- the function makes its result of the values of its operands -/
def ArrayFunction.combines : ArrayFunction → Bool
  | .sum | .cumsum | .max | .amax | .min | .amin | .mean | .std | .var | .dot | .concatenate | .stack => true
  | _ => false

section

variable [Numeric ℝ]

/-- the cells of an operand can hold numbers in its unit -/
def Operand.CanHold (m : Store ℝ) (y : Operand ℝ) (g : Grid ℝ) : Prop :=
  ∀ n ∈ g.entries, (y.stored m).kind.Holds (n / y.storedScale.real)

namespace Session

open Arguments

variable {c : Context ℝ} {m m₁ m₂ m₃ m₄ m' : Store ℝ} {f : ArrayFunction} {u : StorageUnit}
  {as bs bare : Arguments ℝ} {wrapped : List (Parameter × Argument ℝ)}

/-! ## Units of results -/

/-- a unit is that of the result, as far as those of the operands tell it: scales in common are chosen by the policy -/
def HasUnitOf (f : ArrayFunction) (c : Context ℝ) (m : Store ℝ) (as : Arguments ℝ) (u : StorageUnit) : Prop :=
  match f with
  | .var => (as.get "a").storedUnit.dimension.pow 2 = .ok u.dimension ∧ (as.get "a").storedUnit.scale.pow 2 = .ok u.scale
  | .dot => (as.get "a").storedUnit.mul (as.get "b").storedUnit = .ok u
  | .concatenate | .stack => ∀ xs m₁, listed (as.get "arrays") c m = .ok (xs, m₁) →
      ∀ x ∈ xs, x.isQuantity = true → x.storedUnit.dimension = u.dimension
  | .cumsum | .mean | .std => (as.get "a").storedUnit = u
  | _ => (as.get "a").storedUnit.dimension = u.dimension

/-- the factor of a result, by the factors of the operands -/
noncomputable def weightOf (f : ArrayFunction) (w : Operand ℝ → ℝ) (as : Arguments ℝ) : ℝ :=
  match f with
  | .var => w (as.get "a") * w (as.get "a")
  | .dot => w (as.get "a") * w (as.get "b")
  | .concatenate | .stack => w (as.get "arrays")
  | _ => w (as.get "a")

omit [Numeric ℝ] in
theorem isQuantity_of_brings (hcomplete : AreComplete f.parameters as) (hout : as.get "out" = .absent)
    (hany : as.any (bringsQuantity f) = true)
    (honly : ∀ p ∈ f.parameters, bringsUnits f p.name = true → p.name = "a" ∨ p.name = "out") :
    (as.get "a").isQuantity = true := by
  obtain ⟨e, he, hbrings⟩ := List.any_eq_true.1 hany
  obtain ⟨hname, hholds⟩ := Bool.and_eq_true_iff.1 hbrings
  have hmem := hcomplete.ordered.subset (List.mem_map_of_mem he)
  have hfind := find?_of_names (nodup_names hcomplete) he
  obtain ⟨⟨name, role, required⟩, x⟩ := e
  rcases honly _ hmem hname with rfl | rfl
  · have hget : as.get "a" = x := get_of_get? (by rw [Arguments.get?, hfind]; rfl)
    obtain rfl : role = .quantity := role_eq_roleOf hmem
    rw [hget]
    cases x <;> first | rfl | cases hholds
  · have hget : as.get "out" = x := get_of_get? (by rw [Arguments.get?, hfind]; rfl)
    rw [hout] at hget
    subst hget
    cases hholds

/-- where arrays are put together, every quantity among them has the dimension of the result -/
theorem dimension_of_joined (hcomplete : AreComplete f.parameters as) (hp : .needed "arrays" .quantities ∈ f.parameters)
    (htaken : List.Forall₂ (fun e w => w.1 = e.1 ∧ TakenAs c m m₁ e.1.role e.2 w.2) as wrapped)
    (hdimension : ∀ p ∈ participants wrapped "arrays", p.isBareZero = false → p.dimension = u.dimension) :
    ∀ xs m₁, listed (as.get "arrays") c m = .ok (xs, m₁) →
      ∀ x ∈ xs, x.isQuantity = true → x.storedUnit.dimension = u.dimension := by
  intro xs m₅ hxs x hx hquantity
  obtain ⟨a, ha, htakes⟩ := exists_taken hcomplete htaken hp
  rw [ha] at hdimension
  generalize as.get "arrays" = y at hxs htakes
  cases htakes with
  | single hr => rcases hr with hr | hr <;> cases hr
  | several hlisted =>
    cases hxs.symm.trans hlisted
    have hzero : (x.participant m₅).isBareZero = false := by cases x <;> first | rfl | cases hquantity
    rw [← x.unit_participant m₅]
    exact hdimension _ (List.mem_map_of_mem hx) hzero

/-- **The unit of the result**, and the factor that belongs to it. -/
theorem hasUnitOf_of_unitOfResult [Numeric.Exact] (hf : f.combines = true) (hcomplete : AreComplete f.parameters as)
    (hout : as.get "out" = .absent) (hany : as.any (bringsQuantity f) = true)
    (htaken : List.Forall₂ (fun e w => w.1 = e.1 ∧ TakenAs c m m₁ e.1.role e.2 w.2) as wrapped)
    (h : unitOfResult f wrapped c m₁ = .ok (some u, m₂)) :
    HasUnitOf f c m as u ∧ weightOf f (factorFor f u) as = u.scale.real := by
  have hnames : (wrapped.map fun w => w.1.name).Nodup := by
    rw [map_parameters htaken Parameter.name]
    exact nodup_names hcomplete
  have hshared (name : String) (hname : name ∈ sharing f) :=
    dimension_of_unitOfResult (eq_of_takenAs hnames
      (fun e he => hcomplete.ordered.subset (List.mem_map_of_mem he)) htaken) h hname
  have hown (hp : .needed "a" .quantity ∈ f.parameters) := participants_quantity hcomplete htaken hp
  cases f with
  | sum | max | amax | min | amin =>
    refine ⟨?_, rfl⟩
    have hquantity := isQuantity_of_brings hcomplete hout hany (by decide)
    have hzero : ((as.get "a").participant m).isBareZero = false := by
      generalize as.get "a" = x at hquantity
      cases x <;> first | rfl | cases hquantity
    have hdimension := hshared "a" (by decide) _ (hown (by decide) ▸ List.mem_singleton_self _) hzero
    exact (congrArg StorageUnit.dimension ((as.get "a").unit_participant m)).symm.trans hdimension
  | cumsum | mean | std =>
    have hunit : some ((as.get "a").participant m).unit = some u := by
      have hrun := h
      simp only [unitOfResult, hown (by decide)] at hrun
      exact (pure_eq_ok_iff.1 hrun).1
    rw [Operand.unit_participant] at hunit
    cases hunit
    exact ⟨rfl, congrArg Scale.real ((as.get "a").scale_storedUnit).symm⟩
  | var =>
    simp only [unitOfResult, hown (by decide), List.head?_cons, Option.map_some, Operand.unit_participant] at h
    obtain ⟨d, m₅, hd, h⟩ := bind_eq_ok_iff.1 h
    obtain ⟨s, m₆, hs, h⟩ := bind_eq_ok_iff.1 h
    obtain ⟨hdimension, rfl⟩ := lift_eq_ok_iff.1 hd
    obtain ⟨hscale, rfl⟩ := lift_eq_ok_iff.1 hs
    cases h
    refine ⟨⟨hdimension, hscale⟩, ?_⟩
    have hreaches := Scale.reaches_pow (as.get "a").storedUnit.scale 2
    rw [hscale] at hreaches
    rw [Scale.real_pow hreaches, zpow_two, Operand.scale_storedUnit]
    rfl
  | dot =>
    have hother := participants_quantity hcomplete htaken (show .needed "b" .quantity ∈ ArrayFunction.dot.parameters by decide)
    simp only [unitOfResult, hown (by decide), hother, List.singleton_append] at h
    obtain ⟨v, m₅, hv, h⟩ := bind_eq_ok_iff.1 h
    cases h
    obtain ⟨hscale, rfl⟩ := unit_product hv
    refine ⟨?_, ?_⟩
    · simp only [UnitRule.unit, List.foldlM_cons, List.foldlM_nil, Operand.unit_participant] at hv
      obtain ⟨v, m₆, hmul, hv⟩ := bind_eq_ok_iff.1 hv
      cases hv
      exact (lift_eq_ok_iff.1 hmul).1
    · rw [Scale.real_mul hscale, Operand.scale_participant, Operand.scale_participant]
      rfl
  | concatenate | stack => exact ⟨dimension_of_joined hcomplete (by decide) htaken (hshared _ (by decide)), rfl⟩
  | _ => cases hf

/-! ## Results -/

/-- the result of such a function on bare operands -/
noncomputable def combined (f : ArrayFunction) (as : Arguments ℝ) : Session ℝ (Tensor ℝ) :=
  match f with
  | .sum => foldOver .add none as
  | .max | .amax => foldOver .maximum none as
  | .min | .amin => foldOver .minimum none as
  | .cumsum => runningSums none as
  | .mean => statistic Tensor.mean as
  | .var => do
    let lost ← lostFreedom as
    statistic (fun t axes keep => t.variance axes keep lost) as
  | .std => do
    let lost ← lostFreedom as
    statistic (fun t axes keep => t.deviation axes keep lost) as
  | .concatenate => concatenateArrays as
  | .stack => stackArrays as
  | .dot => do return ← Tensor.dot (← tensorOf (as.get "a")) (← tensorOf (as.get "b"))
  | _ => throw (.wrongType none)

theorem prepareArrayBare_combined (hf : f.combines = true) (hout : as.get "out" = .absent) :
    prepareArrayBare f none as = (do return .done (← computed (← combined f as))) := by
  have hnone : outputs as = [] := by rw [outputs, hout]; rfl
  unfold prepareArrayBare
  rw [hnone]
  cases f <;> first
    | exact absurd hf Bool.false_ne_true
    | simp only [writableResults, combined, prepareResults_nil, delivered, bind_assoc, pure_bind, List.mapM_cons,
        List.mapM_nil]
      rfl

theorem apply_combined {bs : Arguments ℝ} {c : Context ℝ} {m m₁ m₂ : Store ℝ} {t : Tensor ℝ} {z : Operand ℝ}
    (hf : f.combines = true) (hbind : Arguments.bind f.parameters [] (byName bs) = .ok bs)
    (hout : bs.get "out" = .absent) (hbare : bs.any (bringsQuantity f) = false)
    (ht : combined f bs c m = .ok (t, m₁)) (hz : computed t c m₁ = .ok (z, m₂)) :
    applyArrayFunction f [] (byName bs) c m = .ok (z, m₂) := by
  refine run_eq_ok_iff.2 ⟨.done z, m₂, ?_, rfl, rfl⟩
  rw [prepareArrayFunction_eq hbind hout, prepareArray_eq, hbare, if_neg Bool.false_ne_true,
    prepareArrayBare_combined hf hout]
  exact bind_eq_ok_iff.2 ⟨t, m₁, ht, bind_eq_ok_iff.2 ⟨z, m₂, hz, rfl⟩⟩

section

variable [Numeric.Analytic] {w : Operand ℝ → ℝ}

/-- **Bare arguments for physical values give the result times the factor**, if its kind can hold what it starts from. -/
theorem combined_scaled (c' : Context ℝ) (hf : f.combines = true) (h : Alike f c m m₃ m' w as bare bs)
    (hw : ∀ x, 0 < w x) (hshared : f.aligns = true → ∀ x y, w x = w y) {t : Tensor ℝ} (hrun : combined f bare c m₃ = .ok (t, m₄)) :
    m₃ = m₄ ∧ t.IsUniform ∧ ((∀ n ∈ ((as.get "initial").physical m).entries, t.kind.Holds (n / weightOf f w as)) →
      ∃ t', combined f bs c' m' = .ok (t', m') ∧ Tensor.Scaled Cell.Renders (weightOf f w as) t t') := by
  have hexact {t t' : Tensor ℝ} {a : ℝ} (ht : Tensor.Scaled Cell.Equals a t t') : Tensor.Scaled Cell.Renders a t t' :=
    ht.imp fun _ _ hc => ⟨hc.1, fun _ => hc.2⟩
  have htelling {t t' : Tensor ℝ} {a : ℝ} (ht : Tensor.Scaled Cell.Tells a t t') : Tensor.Scaled Cell.Renders a t t' :=
    ht.imp fun _ _ hc => ⟨hc.kind, hc.toNumber_eq⟩
  have huniform {t t' : Tensor ℝ} {a : ℝ} (ht : Tensor.Scaled Cell.Renders a t t') : t.IsUniform :=
    (ht.uniform fun hc => hc.1).1
  cases f with
  | sum =>
    have hall := fun x => hshared rfl x (as.get "a")
    obtain ⟨rfl, huniform, hfold⟩ := foldOver_scaled simulates_add (hw _) c' h (by decide) hall hrun
    refine ⟨rfl, huniform, fun hstart => ?_⟩
    obtain ⟨t', ht', hscaled⟩ := hfold hstart
    exact ⟨t', ht', htelling hscaled⟩
  | max | amax =>
    have hall := fun x => hshared rfl x (as.get "a")
    obtain ⟨rfl, huniform, hfold⟩ := foldOver_scaled (simulates_extremum (.inl rfl)) (hw _) c' h (by decide) hall hrun
    refine ⟨rfl, huniform, fun hstart => ?_⟩
    obtain ⟨t', ht', hscaled⟩ := hfold hstart
    exact ⟨t', ht', hexact hscaled⟩
  | min | amin =>
    have hall := fun x => hshared rfl x (as.get "a")
    obtain ⟨rfl, huniform, hfold⟩ := foldOver_scaled (simulates_extremum (.inr rfl)) (hw _) c' h (by decide) hall hrun
    refine ⟨rfl, huniform, fun hstart => ?_⟩
    obtain ⟨t', ht', hscaled⟩ := hfold hstart
    exact ⟨t', ht', hexact hscaled⟩
  | cumsum =>
    obtain ⟨rfl, t', ht', hscaled⟩ := runningSums_scaled c' h (by decide) (hw _) hrun
    exact ⟨rfl, huniform (htelling hscaled), fun _ => ⟨t', ht', htelling hscaled⟩⟩
  | mean =>
    obtain ⟨rfl, t', ht', hscaled⟩ := statistic_scaled c' h (by decide) Tensor.mean (Tensor.mean_scaled (hw _)) hrun
    exact ⟨rfl, huniform (hexact hscaled), fun _ => ⟨t', ht', hexact hscaled⟩⟩
  | var =>
    obtain ⟨lost, m₅, hlost, hrun⟩ := bind_eq_ok_iff.1 hrun
    obtain ⟨rfl, hlost'⟩ := lostFreedom_settled c' h hlost
    obtain ⟨rfl, t', ht', hscaled⟩ := statistic_scaled c' h (by decide) (fun t axes keep => t.variance axes keep lost)
      (Tensor.variance_scaled (hw _)) hrun
    exact ⟨rfl, huniform (hexact hscaled), fun _ => ⟨t', bind_eq_ok_iff.2 ⟨lost, m', hlost', ht'⟩, hexact hscaled⟩⟩
  | std =>
    obtain ⟨lost, m₅, hlost, hrun⟩ := bind_eq_ok_iff.1 hrun
    obtain ⟨rfl, hlost'⟩ := lostFreedom_settled c' h hlost
    obtain ⟨rfl, t', ht', hscaled⟩ := statistic_scaled c' h (by decide) (fun t axes keep => t.deviation axes keep lost)
      (Tensor.deviation_scaled (hw _)) hrun
    exact ⟨rfl, huniform (hexact hscaled), fun _ => ⟨t', bind_eq_ok_iff.2 ⟨lost, m', hlost', ht'⟩, hexact hscaled⟩⟩
  | dot =>
    obtain ⟨t₁, m₅, ht₁, hrun⟩ := bind_eq_ok_iff.1 hrun
    obtain ⟨t₂, m₆, ht₂, hrun⟩ := bind_eq_ok_iff.1 hrun
    obtain ⟨hdot, rfl⟩ := lift_eq_ok_iff.1 hrun
    obtain ⟨rfl, t₁', t₂', t', ht₁', ht₂', ht', hscaled⟩ := dot_scaled c' h (hw _) (hw _) ht₁ ht₂ hdot
    refine ⟨rfl, huniform (htelling hscaled), fun _ => ⟨t', ?_, htelling hscaled⟩⟩
    exact bind_eq_ok_iff.2 ⟨t₁', m', ht₁', bind_eq_ok_iff.2 ⟨t₂', m', ht₂', lift_eq_ok_iff.2 ⟨ht', rfl⟩⟩⟩
  | concatenate =>
    have hall := fun x => hshared rfl x (as.get "arrays")
    obtain ⟨rfl, t', ht', hscaled⟩ := concatenateArrays_scaled c' h (by decide) hall hrun
    exact ⟨rfl, huniform (hexact hscaled), fun _ => ⟨t', ht', hexact hscaled⟩⟩
  | stack =>
    have hall := fun x => hshared rfl x (as.get "arrays")
    obtain ⟨rfl, t', ht', hscaled⟩ := stackArrays_scaled c' h (by decide) hall hrun
    exact ⟨rfl, huniform (hexact hscaled), fun _ => ⟨t', ht', hexact hscaled⟩⟩
  | _ => cases hf

/-! ## Calls -/

section Calls

variable {args : List (Operand ℝ)} {named : List (String × Operand ℝ)} {y : Operand ℝ}

omit [Numeric.Analytic] in
/-- **What a call does**: it combines its arguments in their units, and gives the result in its own. -/
theorem exists_combined [Numeric.Exact] (hf : f.combines = true) (hbind : Arguments.bind f.parameters args named = .ok as)
    (hany : as.any (bringsQuantity f) = true) (hout : as.get "out" = .absent) (hstands : StandFor c m as m₂ bs)
    (h : applyArrayFunction f args named c m = .ok (y, m')) : ∃ u bare m₃ m₄ t x,
      Alike f c m m₃ m₂ (factorFor f u) as bare bs ∧ HasUnitOf f c m as u ∧
        weightOf f (factorFor f u) as = u.scale.real ∧ combined f bare c m₃ = .ok (t, m₄) ∧
        computed t c m₄ = .ok (x, m') ∧ y = inUnitOf u x := by
  have hcomplete := areComplete_of_bind hbind
  obtain ⟨p, m₁, hp, hresult, hwrite⟩ := run_eq_ok_iff.1 h
  rw [prepareArrayFunction_eq hbind hout, prepareArray_eq, if_pos hany] at hp
  have hsome : ∀ {wrapped u m₁ m₂}, as.mapM (taking f) c m = .ok (wrapped, m₁) →
      unitOfResult f wrapped c m₁ = .ok (u, m₂) → u.isSome = true := by
    intro wrapped u m₁ m₂ hwrapped hunit
    have hwritable : ∃ p ∈ f.parameters, p.name = "out" := by cases f <;> first | decide | cases hf
    obtain ⟨p, hp, hname⟩ := hwritable
    obtain ⟨-, htaken⟩ := takenAs_of_complete hcomplete hstands hwrapped
    refine isSome_unitOfResult hp hname (fun p hp hname => ⟨_, participants_quantity hcomplete htaken ?_⟩) hunit
    have hneeded : ∀ p ∈ f.parameters, p.name = "a" → p = .needed "a" .quantity := by cases f <;> decide
    exact hneeded p hp hname ▸ hp
  obtain ⟨wrapped, u, bare, m₅, m₆, m₃, b, hsteps⟩ := exists_unitSteps hp hsome
  obtain ⟨hgrows, hbared⟩ := hsteps.barings hcomplete hout hstands
  obtain ⟨-, htaken⟩ := takenAs_of_complete hcomplete hstands hsteps.taken
  obtain ⟨hunit, hweight⟩ := hasUnitOf_of_unitOfResult hf hcomplete hout hany htaken hsteps.unit
  have halike : Alike f c m m₃ m₂ (factorFor f u) as bare bs := ⟨hcomplete, hgrows, hbared, hstands⟩
  have hprepared := hsteps.prepared
  rw [prepareArrayBare_combined hf (halike.get_absent "out" rfl hout).1] at hprepared
  obtain ⟨t, m₄, ht, hprepared⟩ := bind_eq_ok_iff.1 hprepared
  obtain ⟨x, m₇, hx, hprepared⟩ := bind_eq_ok_iff.1 hprepared
  cases hprepared
  have hgives : f.givesQuantity = true := by cases f <;> first | rfl | cases hf
  rw [hsteps.result, hgives] at hresult hwrite
  cases hwrite
  exact ⟨u, bare, m₃, m₄, t, x, halike, hunit, hweight, ht, hx, hresult.symm⟩

/-- a call on quantities that is written nowhere and told no kind of cells, and bare arguments for physical values -/
structure CombinesFor (f : ArrayFunction) (args : List (Operand ℝ)) (named : List (String × Operand ℝ)) (as : Arguments ℝ)
    (c : Context ℝ) (m : Store ℝ) (y : Operand ℝ) (m' : Store ℝ) (bs : Arguments ℝ) (m₂ : Store ℝ) : Prop where
  combines : f.combines = true
  bound : Arguments.bind f.parameters args named = .ok as
  units : as.any (bringsQuantity f) = true
  nowhere : as.get "out" = .absent
  untold : as.get "dtype" = .absent
  stands : StandFor c m as m₂ bs
  run : applyArrayFunction f args named c m = .ok (y, m')

/-- **Soundness of calls.** The result is a quantity in the unit that belongs to it. Its physical values are what the
function gives on the bare physical values of the operands, which it gives whatever the context is. -/
theorem CombinesFor.sound (h : CombinesFor f args named as c m y m' bs m₂) (c' : Context ℝ) :
    y.isQuantity = true ∧ HasUnitOf f c m as y.storedUnit ∧ (y.CanHold m' ((as.get "initial").physical m) →
      ∃ z m₃, applyArrayFunction f [] (byName bs) c' m₂ = .ok (z, m₃) ∧
        (y.CanHold m' (z.tensor m₃).numbers → y.physical m' = (z.tensor m₃).numbers)) := by
  obtain ⟨hf, hbind, hany, hout, -, hstands, h⟩ := h
  obtain ⟨u, bare, m₅, m₆, t, x, halike, hunit, hweight, ht, hx, rfl⟩ := exists_combined hf hbind hany hout hstands h
  have hpositive : ∀ x, 0 < factorFor f u x := fun x => by
    unfold factorFor
    split <;> exact Scale.real_pos _
  have hshared : f.aligns = true → ∀ x y, factorFor f u x = factorFor f u y := fun haligns x y => by
    rw [factorFor, factorFor, if_pos haligns, if_pos haligns]
  obtain ⟨rfl, huniform, hscaled⟩ := combined_scaled c' hf halike hpositive hshared ht
  rw [hweight] at hscaled
  obtain ⟨-, hcomputed⟩ := computed_spec hx
  have hstored : (inUnitOf u x).stored m' = t := hcomputed.tensor huniform
  refine ⟨rfl, hunit, fun hstart => ?_⟩
  rw [Operand.CanHold, hstored] at hstart
  obtain ⟨t', ht', hresult⟩ := hscaled hstart
  obtain ⟨z, m₃, hz⟩ := exists_computed t' c' m₂
  obtain ⟨-, hcomputed'⟩ := computed_spec hz
  have htensor : z.tensor m₃ = t' := hcomputed'.tensor (hresult.uniform fun hc => hc.1).2
  refine ⟨z, m₃, ?_, fun hholds => ?_⟩
  · have hparams : bs.map Prod.fst = as.map Prod.fst := map_parameters hstands.each id
    have hcomplete : AreComplete f.parameters bs := ⟨hparams ▸ halike.complete.ordered, hparams ▸ halike.complete.given⟩
    have hnames : (f.parameters.map Parameter.name).Nodup := by cases f <;> decide
    exact apply_combined hf (bind_byName hnames hcomplete) (halike.get_absent "out" rfl hout).2 halike.brings_nothing ht' hz
  · rw [Operand.CanHold, hstored, htensor] at hholds
    rw [Operand.physical, hstored, htensor]
    exact hresult.numbers u.scale.real_pos.ne' hholds

/-- **Array functions keep physical values.** A call on quantities gives a quantity in the unit that belongs to it, with
the physical values that the function gives on those of the operands, as far as whole numbers and truth values can hold
them; and an array that is made of quantities has theirs. -/
theorem sound_arrays :
    (∀ {f args named as c m y m' bs m₂}, CombinesFor f args named as c m y m' bs m₂ → ∀ c',
      y.isQuantity = true ∧ HasUnitOf f c m as y.storedUnit ∧ (y.CanHold m' ((as.get "initial").physical m) →
        ∃ z m₃, applyArrayFunction f [] (byName bs) c' m₂ = .ok (z, m₃) ∧
          (y.CanHold m' (z.tensor m₃).numbers → y.physical m' = (z.tensor m₃).numbers))) ∧
    ∀ {xs c m y m'}, (∀ x ∈ xs, x.IsMeasure m) → ofSequence xs c m = .ok (y, m') → y.isQuantity = true ∧
      (∀ x ∈ xs, x.isQuantity = true → x.storedUnit.dimension = y.storedUnit.dimension) ∧
      Operand.rows (xs.map (Operand.physical m)) = .ok (y.physical m') :=
  ⟨fun h c' => h.sound c', sound_ofSequence⟩

end Calls

end

end Session

end

/-! ## Runs on lengths -/

section Lengths

open Session

/-- a row in memory, of all the cells of a buffer -/
def rowIn (buffer length : Nat) : Operand ℝ := .array ⟨buffer, ⟨[length], List.range length⟩⟩

theorem isNumeric_rowIn {i : Nat} {m : Store ℝ} {k : Kind} {a b : Cell ℝ} (h : m.buffer? i = some ⟨k, [a, b]⟩)
    (ha : a.kind = k) (hb : b.kind = k) : (rowIn i 2).IsNumeric m := by
  have hread : m.read ⟨i, ⟨[2], [0, 1]⟩⟩ = ⟨k, ⟨[2], [a, b]⟩⟩ := by
    unfold Store.read
    rw [h]
    rfl
  refine ⟨(List.getElem?_eq_some_iff.1 h).1, rfl, ?_⟩
  change (m.read ⟨i, ⟨[2], [0, 1]⟩⟩).IsUniform
  rw [hread]
  intro c hc
  rcases List.mem_pair.1 hc with rfl | rfl
  exacts [ha, hb]

/-- two numbers come to memory -/
def withPair (m : Store ℝ) (x y : ℝ) : Store ℝ := ⟨m.buffers ++ [⟨.real, [.real x, .real y]⟩]⟩

theorem sum_row {v : View} {n : Nat} {m : Store ℝ} (hn : v.shape = [n]) (hv : (m.read v).grid.Filled)
    (hreal : (m.read v).kind = .real) (x : ℝ) (c : Context ℝ) :
    applyArrayFunction .sum [] (Arguments.byName [(.needed "a" .quantity, .array v),
      (.optional "initial" .perhaps, .number x)]) c m =
        .ok (.item (.real (Numeric.add x (Numeric.rowSum (m.read v).numbers.entries))), m) := by
  have hshape : (m.read v).grid.shape = [n] := (m.shape_read v).trans hn
  have haxes : Tensor.axesOf (m.read v).grid.rank (.absent : Operand ℝ) = .ok [0] := by
    rw [Grid.rank, hshape]
    rfl
  have hcell : Tensor.foldRows .add .real (.given (.real x)) [(m.read v).grid.entries] =
      .ok (.real (Numeric.add x (Numeric.rowSum (m.read v).numbers.entries))) := by
    rw [Tensor.foldRows_cell rfl, Tensor.foldRow_add]
    rfl
  have hreduce : (m.read v).reduce .add [0] false (.given (.real x)) none none = .ok ⟨.real, .scalar _⟩ :=
    (Tensor.reduce_row hv hshape _).2 ⟨.real, _, by rw [hreal]; rfl, hcell, rfl⟩
  have hcomputed : computed ⟨.real, .scalar (.real (Numeric.add x (Numeric.rowSum (m.read v).numbers.entries)))⟩ c m =
      .ok (.item _, m) := congrFun (congrFun (computed_scalar rfl) c) m
  refine apply_combined rfl rfl rfl rfl ?_ hcomputed
  refine bind_eq_ok_iff.2 ⟨m.read v, m, rfl, bind_eq_ok_iff.2 ⟨[0], m, lift_eq_ok_iff.2 ⟨haxes, rfl⟩, ?_⟩⟩
  exact (lift_eq_ok_iff (c := c)).2 ⟨hreduce, rfl⟩

/-- one and two kilometers with five hundred meters to begin with are 3500 meters, and a kilometer and five hundred meters
are an array of a thousand and five hundred meters -/
theorem sound_arrays_lengths :
    (∃ as y m' bs m₂, CombinesFor .sum [lengthIn (.ten 3) (rowIn 0 2)] [("initial", lengthIn .one (.number 500))] as
      (unnamed .smallerWins) (withPair ⟨[]⟩ 1 2) y m' bs m₂ ∧ y.physical m' = ⟨[], [3500]⟩) ∧
    ∃ y m', ofSequence [lengthIn (.ten 3) (.number 1), lengthIn .one (.number 500)] (unnamed .smallerWins) ⟨[]⟩ =
      .ok (y, m') ∧ y.physical m' = ⟨[2], [1000, 500]⟩ := by
  have hthousand : (Scale.ten 3).real = 1000 := by
    change (2 : ℝ) ^ (3 : ℤ) * ((3 : ℝ) ^ (0 : ℤ) * ((5 : ℝ) ^ (3 : ℤ) * (Real.pi ^ (0 : ℤ) * 1))) = 1000
    norm_num
  constructor
  · let m : Store ℝ := withPair ⟨[]⟩ 1 2
    let m₂ : Store ℝ := withPair m (1 * (Scale.ten 3).real) (2 * (Scale.ten 3).real)
    have hshows : (lengthIn (.ten 3) (rowIn 0 2)).ShowsPhysical m m₂ (rowIn 1 2) :=
      ⟨isNumeric_rowIn rfl rfl rfl, isNumeric_rowIn rfl rfl rfl, rfl⟩
    have hstart : (lengthIn .one (.number 500)).ShowsPhysical m m₂ (.number (500 * Scale.one.real)) :=
      ⟨trivial, trivial, rfl⟩
    have hstands : StandFor (unnamed .smallerWins) m
        [(.needed "a" .quantity, lengthIn (.ten 3) (rowIn 0 2)),
          (.optional "initial" .perhaps, lengthIn .one (.number 500))] m₂
        [(.needed "a" .quantity, rowIn 1 2), (.optional "initial" .perhaps, .number (500 * Scale.one.real))] :=
      ⟨List.prefix_append _ _, .cons ⟨rfl, .single (.inl rfl) hshows⟩ (.cons ⟨rfl, .single (.inr rfl) hstart⟩ .nil)⟩
    obtain ⟨y, m', hrun, hreal⟩ : ∃ y m', applyArrayFunction .sum [lengthIn (.ten 3) (rowIn 0 2)]
        [("initial", lengthIn .one (.number 500))] (unnamed .smallerWins) (withPair ⟨[]⟩ 1 2) = .ok (y, m') ∧
          (y.stored m').kind = .real := ⟨_, _, rfl, rfl⟩
    obtain ⟨as, h⟩ : ∃ as, CombinesFor .sum [lengthIn (.ten 3) (rowIn 0 2)]
        [("initial", lengthIn .one (.number 500))] as (unnamed .smallerWins) m y m' _ m₂ :=
      ⟨_, rfl, rfl, rfl, rfl, rfl, hstands, hrun⟩
    have hholds : ∀ g, y.CanHold m' g := fun g n _ => by rw [hreal]; trivial
    obtain ⟨z, m₃, hz, hphysical⟩ := (sound_arrays.1 h (unnamed .strict)).2.2 (hholds _)
    refine ⟨_, y, m', _, m₂, h, ?_⟩
    rw [hphysical (hholds _)]
    have hsum := sum_row (v := ⟨1, ⟨[2], [0, 1]⟩⟩) (m := m₂) rfl rfl rfl (500 * Scale.one.real) (unnamed .strict)
    cases hz.symm.trans hsum
    have hnumbers : (m₂.read ⟨1, ⟨[2], [0, 1]⟩⟩).numbers.entries = [1 * (Scale.ten 3).real, 2 * (Scale.ten 3).real] := rfl
    change Grid.mk [] [Numeric.add (500 * Scale.one.real) (Numeric.rowSum _)] = Grid.mk [] [3500]
    rw [hnumbers, hthousand, Scale.real_one, Numeric.Exact.add, Numeric.rowSum_eq_sum]
    norm_num
  · obtain ⟨y, m', h⟩ : ∃ y m', ofSequence [lengthIn (.ten 3) (.number 1), lengthIn .one (.number 500)]
        (unnamed .smallerWins) ⟨[]⟩ = .ok (y, m') := ⟨_, _, rfl⟩
    have hmeasures : ∀ x ∈ [lengthIn (.ten 3) (.number 1), lengthIn .one (.number 500)], x.IsMeasure ⟨[]⟩ :=
      measures_lengths trivial trivial
    have hrows := (sound_arrays.2 hmeasures h).2.2
    have hvalues : Operand.rows ([lengthIn (.ten 3) (.number 1), lengthIn .one (.number 500)].map (Operand.physical ⟨[]⟩)) =
        .ok ⟨[2], [1 * (Scale.ten 3).real, 500 * Scale.one.real]⟩ := rfl
    refine ⟨y, m', h, ?_⟩
    rw [← Except.ok.inj (hvalues.symm.trans hrows), hthousand, Scale.real_one]
    norm_num

/-- a call whose result has other physical values than the function gives on those of the operands -/
def Departs (f : ArrayFunction) (args : List (Operand ℝ)) (named : List (String × Operand ℝ)) (m : Store ℝ) : Prop :=
  ∃ as y m' bs m₂ z m₃, CombinesFor f args named as (unnamed .smallerWins) m y m' bs m₂ ∧
    applyArrayFunction f [] (Arguments.byName bs) (unnamed .smallerWins) m₂ = .ok (z, m₃) ∧
      y.physical m' ≠ (z.tensor m₃).numbers

theorem departs_sum {a b d : Cell ℝ} {m' : Store ℝ}
    (hrun : applyArrayFunction .sum [lengthIn .one (.item a)] [("initial", lengthIn .one (.item b))]
      (unnamed .smallerWins) ⟨[]⟩ = .ok (lengthIn .one (.item d), m')) (hd : d.toNumber ≠ b.toNumber + a.toNumber) :
    Departs .sum [lengthIn .one (.item a)] [("initial", lengthIn .one (.item b))] ⟨[]⟩ := by
  have hshows : ∀ c : Cell ℝ,
      (lengthIn .one (.item c)).ShowsPhysical ⟨[]⟩ ⟨[]⟩ (.number (c.toNumber * Scale.one.real)) := fun c =>
    ⟨trivial, trivial, rfl⟩
  refine ⟨_, _, _, [(.needed "a" .quantity, .number (a.toNumber * Scale.one.real)),
    (.optional "initial" .perhaps, .number (b.toNumber * Scale.one.real))], ⟨[]⟩, _, _,
    ⟨rfl, rfl, rfl, rfl, rfl, ⟨.refl _, ?_⟩, hrun⟩, rfl, ?_⟩
  · exact .cons ⟨rfl, .single (.inl rfl) (hshows a)⟩ (.cons ⟨rfl, .single (.inr rfl) (hshows b)⟩ .nil)
  · intro h
    change Grid.mk [] [d.toNumber * Scale.one.real] =
      Grid.mk [] [Numeric.add (b.toNumber * Scale.one.real) (Numeric.rowSum [a.toNumber * Scale.one.real])] at h
    rw [Numeric.Exact.add, Numeric.rowSum_eq_sum, List.sum_singleton, Scale.real_one, mul_one, mul_one, mul_one] at h
    exact hd (List.head_eq_of_cons_eq (congrArg Grid.entries h))

/-- two truth values in memory -/
def twoTruths : Store ℝ := ⟨[⟨.flag, [.flag true, .flag true]⟩]⟩

/-- The sum of the products of truth values is a truth value, a sum of whole numbers wraps around, and sums of whole
numbers do not begin with fractions: these are not the sums of the physical values. -/
theorem not_sound_arrays :
    Departs .dot [lengthIn .one (rowIn 0 2), lengthIn .one (rowIn 0 2)] [] twoTruths ∧
    Departs .sum [lengthIn .one (.item (.integer 9223372036854775807))]
      [("initial", lengthIn .one (.item (.integer 1)))] ⟨[]⟩ ∧
    Departs .sum [lengthIn .one (.item (.integer 1))] [("initial", lengthIn .one (.item (.real 0.5)))] ⟨[]⟩ := by
  refine ⟨?_, departs_sum (d := .integer (-9223372036854775808)) rfl ?_, departs_sum rfl fun h => ?_⟩
  · let m : Store ℝ :=
      withPair twoTruths ((Cell.flag true).toNumber * Scale.one.real) ((Cell.flag true).toNumber * Scale.one.real)
    have hshows : (lengthIn .one (rowIn 0 2)).ShowsPhysical twoTruths m (rowIn 1 2) :=
      ⟨isNumeric_rowIn rfl rfl rfl, isNumeric_rowIn rfl rfl rfl, rfl⟩
    have hstands : StandFor (unnamed .smallerWins) twoTruths
        [(.needed "a" .quantity, lengthIn .one (rowIn 0 2)), (.needed "b" .quantity, lengthIn .one (rowIn 0 2))] m
        [(.needed "a" .quantity, rowIn 1 2), (.needed "b" .quantity, rowIn 1 2)] :=
      ⟨List.prefix_append _ _, .cons ⟨rfl, .single (.inl rfl) hshows⟩ (.cons ⟨rfl, .single (.inl rfl) hshows⟩ .nil)⟩
    refine ⟨_, _, _, _, _, _, _, ⟨rfl, rfl, rfl, rfl, rfl, hstands, rfl⟩, rfl, fun h => ?_⟩
    have hentry := List.head_eq_of_cons_eq (congrArg Grid.entries h)
    change (Cell.flag true).toNumber * Scale.one.real =
      (Cell.flag true).toNumber * Scale.one.real * ((Cell.flag true).toNumber * Scale.one.real) +
        (Cell.flag true).toNumber * Scale.one.real * ((Cell.flag true).toNumber * Scale.one.real) at hentry
    rw [Scale.real_one, Cell.toNumber_flag] at hentry
    norm_num at hentry
  · rw [Cell.toNumber_integer, Cell.toNumber_integer, Cell.toNumber_integer]
    norm_num
  · -- whatever whole number the sum is, it is no fraction
    rw [Cell.toNumber_integer, Cell.toNumber_integer] at h
    change _ = (0.5 : ℝ) + _ at h
    generalize wrapped ((Cell.real (Cell.real (0.5 : ℝ)).toNumber).toInt + 1) = n at h
    have hdouble : (2 * n : ℝ) = 3 := by rw [h]; norm_num
    have hodd : 2 * n = 3 := by exact_mod_cast hdouble
    omega

end Lengths

end UnitAlgebra

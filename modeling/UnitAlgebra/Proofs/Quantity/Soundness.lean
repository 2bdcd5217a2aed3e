/-
Soundness of the arithmetic of quantities. The result of a function has the physical value that the function has on the
physical values of its operands, whatever scales these are stored in and whichever policy chooses the scale of the
result. Functions without a unit rule are computed on values in the identity scale.

Results:
- `Gives.steps`: a call, step by step.
- `Gives.physical`: the physical value of a result.
- `Gives.erased`: the result of a function without a unit rule.
- `sound_callWith`: both, and that nothing else counts.
-/
import UnitAlgebra.Proofs.Numeric.Exact
import UnitAlgebra.Proofs.Quantity.Physical
import UnitAlgebra.Proofs.Quantity.Weighted

namespace UnitAlgebra

section Exact

variable [Numeric ℝ] [Numeric.Exact]

/-! ## Runs -/

/-- the way of application that belongs to a manner without options -/
def wayOf : Manner → Way ℝ
  | .outer => .crossed
  | _ => .plainly

section Runs

open Session

variable {f : Elementwise} {manner : Manner} {c : Context ℝ} {m m' : Store ℝ} {xs : List (Operand ℝ)} {y : Operand ℝ}

/-- a call on quantities and numbers, plainly or as an outer table, that gives a result and writes into no operand -/
structure Gives (f : Elementwise) (manner : Manner) (xs : List (Operand ℝ)) (c : Context ℝ) (m : Store ℝ)
    (y : Operand ℝ) (m' : Store ℝ) : Prop where
  way : manner = .plain ∨ manner = .outer
  length : xs.length = f.arity
  measures : ∀ x ∈ xs, x.IsMeasure m
  quantities : xs.any Operand.isQuantity = true
  run : callWith (.each f) manner xs [] c m = .ok (y, m')

omit [Numeric.Exact] in
/-- A call, step by step. -/
theorem Gives.steps (h : Gives f manner xs c m y m') : ∃ u m₁ vs m₂ zs,
      (TensorFunction.each f).rule.unit (.plain f.name) (xs.map (Operand.participant m)) c m = .ok (u, m₁) ∧
      (TensorFunction.each f).rule.values (TensorFunction.each f).alignment u (xs.map (Operand.participant m)) c m₁ =
        .ok (vs, m₂) ∧
      computeBare (.each f) (wayOf manner) [] vs c m₂ = .ok (zs, m') ∧
      y = together (if (TensorFunction.each f).givesQuantity then zs.map (inUnitOf u) else zs) := by
  have harranged : arrange (.each f) manner xs [] = .ok ⟨fun _ => wayOf manner, [], xs⟩ := by
    have hdrop : xs.drop (TensorFunction.each f).arity = [] := List.drop_eq_nil_of_le (Nat.le_of_eq h.length)
    have htake : xs.take (TensorFunction.each f).arity = xs := List.take_of_length_le (Nat.le_of_eq h.length)
    have hlength : ¬ xs.length < (TensorFunction.each f).arity := by
      rw [h.length]
      exact Nat.lt_irrefl _
    have hplain : arrangePlainly (.each f) (wayOf manner) xs [] = .ok ⟨fun _ => wayOf manner, [], xs⟩ := by
      simp only [arrangePlainly, hdrop, htake, hlength]
      rfl
    rcases h.way with rfl | rfl <;> exact hplain
  have happly : apply (.each f) (wayOf manner) [] xs c m = .ok (y, m') := by
    rw [← callWith_of_arranged _ harranged]
    exact h.run
  have hseries : xs.any Operand.isSeries = false := by
    rw [List.any_eq_false]
    intro x hx
    have hmeasure := h.measures x hx
    cases x <;> first | exact Bool.false_ne_true | exact hmeasure.elim
  rw [apply_quantities (by rwa [List.append_nil]) (by rw [List.append_nil, h.quantities])] at happly
  obtain ⟨ps, _, hps, happly⟩ := bind_eq_ok_iff.1 happly
  rw [mapM_ofOperand] at hps
  cases hps
  obtain ⟨u, m₁, hu, happly⟩ := bind_eq_ok_iff.1 happly
  obtain ⟨vs, m₂, hv, happly⟩ := bind_eq_ok_iff.1 happly
  obtain ⟨_, _, hcheck, happly⟩ := bind_eq_ok_iff.1 happly
  obtain ⟨-, rfl⟩ := lift_eq_ok_iff.1 hcheck
  obtain ⟨zs, _, hzs, happly⟩ := bind_eq_ok_iff.1 happly
  obtain ⟨rfl, rfl⟩ := pure_eq_ok_iff.1 happly
  exact ⟨u, m₁, vs, m₂, zs, hu, hv, hzs, rfl⟩

omit [Numeric.Exact] in
theorem computeBare_spec (hmanner : manner = .plain ∨ manner = .outer) {vs zs : List (Operand ℝ)}
    (hvs : ∀ v ∈ vs, v.IsNumeric m) (h : computeBare (.each f) (wayOf manner) [] vs c m = .ok (zs, m')) :
    manner = .plain ∧ Widely f vs zs ∨ ∃ ts rs, (∀ v, vs = [v] → ts = [v.tensor m]) ∧
      List.Forall₂ (Reads f vs.length m) vs ts ∧ Tensor.inManner manner f ts = .ok rs ∧
        List.Forall₂ (fun r z => Computed r z m') rs zs := by
  rcases hmanner with rfl | rfl
  · rcases computePlainly_spec hvs h with hwide | ⟨ts, rs, hone, hts, hrs, hzs⟩
    · exact Or.inl ⟨rfl, hwide⟩
    · exact Or.inr ⟨ts, rs, hone, hts, hrs, mapM_computed_spec hzs⟩
  · obtain ⟨ts, rs, hts, hrs, hzs⟩ := computeCrossed_spec hvs h
    refine Or.inr ⟨ts, rs, ?_, hts, hrs, mapM_computed_spec hzs⟩
    rintro v rfl
    cases h

end Runs

/-! ## What operands stand for -/

/-- no whole number wraps around in its cell; one that no cell can hold is computed exactly, or counts as a number -/
def Operand.Unwrapped (f : Elementwise) (manner : Manner) (m : Store ℝ) (xs : List (Operand ℝ)) : Prop :=
  (∀ x ∈ xs, (bareValue x).isWide = true → xs.length = 1 ∧ (bareValue x).isUnsigned = true) →
    Tensor.Unwrapped f (manner.arranged (xs.map (Operand.stored m)))

/-- a tensor that a function of so many operands is computed on has the physical values of one of them, by a factor -/
structure Stands (f : Elementwise) (count : Nat) (m : Store ℝ) (x : Operand ℝ) (a : ℝ) (t : Tensor ℝ) : Prop where
  filled : t.grid.Filled
  uniform : t.IsUniform
  physical : t.numbers.map (Numeric.mul · a) = x.physical m
  kind : t = x.stored m ∨ t.kind = .real
  wide : (bareValue x).isWide = true →
    f.isComparison = true ∨ t.kind = .real ∨ count = 1 ∧ (bareValue x).isUnsigned = true

section Stands

variable {f : Elementwise} {manner : Manner} {m m' : Store ℝ} {xs : List (Operand ℝ)} {ts : List (Tensor ℝ)}
  {a : Operand ℝ → ℝ} {count : Nat}

omit [Numeric.Exact] in
theorem Aligned.stands {x v : Operand ℝ} {a : ℝ} {t : Tensor ℝ} (h : Aligned m x a v m') (hx : x.IsMeasure m)
    (hm : m.Grows m') (ht : Reads f count m' v t) : Stands f count m x a t := by
  rcases ht with ⟨rfl, hcomparison⟩ | ⟨-, rfl⟩
  · have hstored : v = bareValue x → v.tensor m' = x.stored m := by
      rintro rfl
      exact Operand.tensor_of_grows hx.live hm
    refine ⟨h.numeric.filled, h.numeric.uniform, h.physical, h.kind.imp hstored And.left, fun hw => ?_⟩
    rcases h.kind with rfl | ⟨hreal, -⟩
    · exact (hcomparison hw).imp_right Or.inr
    · exact Or.inr (Or.inl hreal)
  · refine ⟨(h.numeric.filled.map _).map _, Tensor.isUniform_ofNumbers _, ?_, Or.inr rfl, fun _ => Or.inr (Or.inl rfl)⟩
    rw [Tensor.numbers_ofNumbers]
    exact h.physical

omit [Numeric.Exact] in
theorem forall₂_stands {vs : List (Operand ℝ)} (hxs : ∀ x ∈ xs, x.IsMeasure m) (hm : m.Grows m')
    (hv : List.Forall₂ (fun x v => Aligned m x (a x) v m') xs vs) (ht : List.Forall₂ (Reads f count m') vs ts) :
    List.Forall₂ (fun x t => Stands f count m x (a x) t) xs ts := by
  induction hv generalizing ts with
  | nil =>
    cases ht
    exact .nil
  | cons hxv _ ih =>
    cases ht with
    | cons hvt hrest =>
      refine .cons (hxv.stands (hxs _ List.mem_cons_self) hm hvt) ?_
      exact ih (fun x hx => hxs x (List.mem_cons_of_mem _ hx)) hrest

omit [Numeric.Exact] in
/-- tensors that stand for operands, with their factors -/
theorem exists_weighted (h : List.Forall₂ (fun x t => Stands f count m x (a x) t) xs ts) : ∃ qs : List (Tensor.Weighted ℝ),
    qs.map Prod.fst = ts ∧ qs.map Prod.snd = xs.map a ∧
      qs.map Tensor.Weighted.tensor = xs.map (fun x => .ofNumbers (x.physical m)) ∧
      ∀ q ∈ qs, q.1.grid.Filled ∧ q.1.IsUniform := by
  induction h with
  | nil => exact ⟨[], rfl, rfl, rfl, nofun⟩
  | @cons x t xs ts hxt _ ih =>
    obtain ⟨qs, hts, has, hphysical, hqs⟩ := ih
    refine ⟨(t, a x) :: qs, congrArg (t :: ·) hts, congrArg (a x :: ·) has, ?_, ?_⟩
    · rw [List.map_cons, List.map_cons, hphysical, Tensor.Weighted.tensor, hxt.physical]
    · exact List.forall_mem_cons.2 ⟨⟨hxt.filled, hxt.uniform⟩, hqs⟩

omit [Numeric.Exact] in
/-- if no whole number wraps around among the operands, none does among what stands for them -/
theorem unwrapped_of_stands (hf : f.isPhysical = true)
    (hu : Operand.Unwrapped f manner m xs) (h : List.Forall₂ (fun x t => Stands f xs.length m x (a x) t) xs ts) :
    Tensor.Unwrapped f (manner.arranged ts) := by
  by_cases hcells : ∀ x ∈ xs, (bareValue x).isWide = true → xs.length = 1 ∧ (bareValue x).isUnsigned = true
  · exact (hu hcells).of_kinds hf (List.forall₂_map_left_iff.2 (h.imp fun _ _ => Stands.kind))
  · push Not at hcells
    obtain ⟨x, hx, hw, hcell⟩ := hcells
    obtain ⟨t, ht, hxt⟩ := exists_partner h hx
    rcases hxt.wide hw with hcomparison | hreal | ⟨hone, hunsigned⟩
    · exact Tensor.unwrapped_of_isComparison hcomparison _
    · exact Tensor.unwrapped_of_real hf manner ⟨t, ht, hreal⟩
    · exact absurd hunsigned (hcell hone)

end Stands

/-! ## Physical values of results -/

section Results

open Session

variable {f : Elementwise} {manner : Manner} {c : Context ℝ} {m m' : Store ℝ} {xs : List (Operand ℝ)} {y : Operand ℝ}

omit [Numeric.Exact] in
theorem physical_result {u : StorageUnit} {z : Operand ℝ} (hz : z.isQuantity = false) :
    (together (if (TensorFunction.each f).givesQuantity then [z].map (inUnitOf u) else [z])).physical m' =
      (z.tensor m').numbers.map (· * f.weight u.scale.real) := by
  by_cases hf : (TensorFunction.each f).givesQuantity = true
  · rw [if_pos hf, Elementwise.weight, if_pos hf]
    rfl
  · rw [if_neg hf, Elementwise.weight, if_neg hf, ← Scale.real_one]
    cases z <;> first | rfl | cases hz

omit [Numeric ℝ] [Numeric.Exact] in
theorem isQuantity_result {u : StorageUnit} {z : Operand ℝ} (hz : z.isQuantity = false) :
    (together (if (TensorFunction.each f).givesQuantity then [z].map (inUnitOf u) else [z])).isQuantity =
      (TensorFunction.each f).givesQuantity := by
  by_cases hf : (TensorFunction.each f).givesQuantity = true
  · rw [if_pos hf, hf]
    rfl
  · rw [if_neg hf, Bool.eq_false_iff.2 hf]
    exact hz

/-- a result has the physical value that the function has on the physical values of the operands -/
def Physically (f : Elementwise) (manner : Manner) (xs : List (Operand ℝ)) (m : Store ℝ) (y : Operand ℝ)
    (m' : Store ℝ) : Prop :=
  ∃ t, Tensor.inManner manner f (xs.map fun x => .ofNumbers (x.physical m)) = .ok [t] ∧ y.physical m' = t.numbers

/-- **Physical values of results.** A function on quantities gives what it gives on their physical values. -/
theorem Gives.physically (h : Gives f manner xs c m y m') (hf : f.isPhysical = true) (hu : Operand.Unwrapped f manner m xs) :
    Physically f manner xs m y m' ∧ y.isQuantity = (TensorFunction.each f).givesQuantity := by
  obtain ⟨u, m₁, vs, m₂, zs, hunit, hvalues, hcompute, rfl⟩ := h.steps
  obtain ⟨hm, a, haligned, hweighs⟩ := exists_aligned hf h.length h.measures hunit hvalues
  have hnumeric : ∀ v ∈ vs, v.IsNumeric m₂ := by
    intro v hv
    obtain ⟨x, _, hxv⟩ := exists_partner haligned.flip hv
    exact hxv.numeric
  rcases computeBare_spec h.way hnumeric hcompute with ⟨rfl, n, k, rfl, -, -, hwide, rfl⟩ | ⟨ts, rs, -, hts, hrs, hzs⟩
  · -- one whole number that no cell can hold
    obtain ⟨x, rfl⟩ : ∃ x, xs = [x] := List.length_eq_one_iff.1 haligned.length_eq
    obtain ⟨hxn, -⟩ := List.forall₂_cons.1 haligned
    obtain ⟨t, ht, hnumbers⟩ := Tensor.elementwise_wide hf h.length.symm hweighs hwide
    have hphysical : x.physical m = ⟨[], [Numeric.mul (n : ℝ) (a x)]⟩ := by
      rw [← hxn.physical, ← Cell.toNumber_integer]
      rfl
    refine ⟨⟨t, ?_, ?_⟩, isQuantity_result rfl⟩
    · rw [List.map_singleton, hphysical]
      exact ht
    · rw [physical_result rfl, hnumbers, ← Cell.toNumber_integer]
      rfl
  · rw [← haligned.length_eq] at hts
    have hstands := forall₂_stands h.measures hm haligned hts
    have hunwrapped := unwrapped_of_stands hf hu hstands
    obtain ⟨qs, rfl, has, hphysical, hqs⟩ := exists_weighted hstands
    have hlength : qs.length = f.arity := by rw [← h.length, hstands.length_eq, List.length_map]
    obtain ⟨r, t, rfl, ht, hnumbers⟩ := Tensor.inManner_weighted hf manner hlength (fun q hq => (hqs q hq).1)
      (fun q hq => (hqs q hq).2) (has ▸ hweighs) hunwrapped hrs
    rw [List.forall₂_cons_left_iff] at hzs
    obtain ⟨z, _, hz, hnil, rfl⟩ := hzs
    cases hnil
    refine ⟨⟨t, hphysical ▸ ht, ?_⟩, isQuantity_result hz.isBare⟩
    rw [physical_result hz.isBare, hnumbers, Tensor.numbers, hz.grid]
    rfl

end Results

/-! ## Functions without a unit rule -/

/-- an operand in the identity scale; a whole number that no cell can hold counts as a number beside others -/
noncomputable def Operand.inIdentity (f : Elementwise) (m : Store ℝ) (x : Operand ℝ) : Tensor ℝ :=
  if x.storedScale = .one ∧ ((bareValue x).isWide = true → f.arity = 1) then x.stored m else .ofNumbers (x.physical m)

/-- a value that a function without a unit rule is computed on -/
structure Erased (m : Store ℝ) (x v : Operand ℝ) (m' : Store ℝ) : Prop where
  numeric : v.IsNumeric m'
  value : x.storedScale = .one ∧ v = bareValue x ∨
    x.storedScale ≠ .one ∧ v.tensor m' = .ofNumbers (x.physical m) ∧ v.isWide = false

section Erasing

open Session

variable {f : Elementwise} {manner : Manner} {c : Context ℝ} {m m' : Store ℝ} {xs : List (Operand ℝ)} {y : Operand ℝ}

omit [Numeric.Exact] in
theorem physical_of_one {x : Operand ℝ} (hs : x.storedScale = .one) : x.physical m = (x.stored m).numbers := by
  simp [Operand.physical, hs, Scale.real_one, Grid.map]

omit [Numeric.Exact] in
theorem Erased.grows {x v : Operand ℝ} {m₁ m₂ : Store ℝ} (h : Erased m x v m₁) (hm : m₁.Grows m₂) :
    Erased m x v m₂ := by
  refine ⟨h.numeric.grows hm, ?_⟩
  rw [Operand.tensor_of_grows h.numeric.live hm]
  exact h.value

theorem forall₂_erased {vs : List (Operand ℝ)} (hxs : ∀ x ∈ xs, x.IsMeasure m)
    (h : (xs.map (Operand.participant m)).mapM (fun p => p.quantity.valueIn .one) c m = .ok (vs, m')) :
    m.Grows m' ∧ List.Forall₂ (fun x v => Erased m x v m') xs vs := by
  rw [List.mapM_map] at h
  refine mapM_grows (R := fun x v m' => Erased m x v m') (fun hR hm => hR.grows hm) ?_ (.refl m) h
  intro x hx v m₁ m₂ hm hv
  have hnumeric : (x.participant m).quantity.value.IsNumeric m₁ := by
    rw [x.value_participant]
    exact (hxs x hx).grows hm
  obtain ⟨hgrows, hvalue⟩ := Quantity.valueIn_spec hnumeric hv
  rw [x.value_participant, show (x.participant m).quantity.scale = _ from x.scale_participant m] at hvalue
  refine ⟨hgrows, ?_⟩
  rcases hvalue with ⟨hs, rfl⟩ | ⟨hs, hshows⟩
  · exact ⟨(hxs x hx).grows (hm.trans hgrows), Or.inl ⟨hs, rfl⟩⟩
  · refine ⟨hshows.numeric, Or.inr ⟨hs, ?_, hshows.isNarrow⟩⟩
    rw [hshows.tensor, Tensor.times, Operand.tensor_of_grows (hxs x hx).live hm, Scale.real_one, div_one]
    simp only [Numeric.Exact.mul]
    rfl

omit [Numeric.Exact] in
theorem Erased.eq_inIdentity {x v : Operand ℝ} {t : Tensor ℝ} (h : Erased m x v m') (hx : x.IsMeasure m)
    (hm : m.Grows m') (hf : f.isComparison = false) (hone : f.arity = 1 → t = v.tensor m') (ht : Reads f f.arity m' v t) :
    t = x.inIdentity f m := by
  unfold Operand.inIdentity
  rcases h.value with ⟨hs, rfl⟩ | ⟨hs, htensor, hnarrow⟩
  · have hstored : (bareValue x).tensor m' = x.stored m := Operand.tensor_of_grows hx.live hm
    rcases ht with ⟨rfl, hcomparison⟩ | ⟨hw, rfl⟩
    · refine (if_pos ⟨hs, fun hw => ?_⟩).trans hstored.symm |>.symm
      rcases hcomparison hw with hcomparison | ⟨harity, -⟩
      · rw [hcomparison] at hf
        cases hf
      · exact harity
    · by_cases harity : f.arity = 1
      · rw [if_pos ⟨hs, fun _ => harity⟩, hone harity, hstored]
      · rw [if_neg fun hstays => harity (hstays.2 hw), physical_of_one hs, hstored]
  · rw [if_neg fun hstays => hs hstays.1]
    rcases ht with ⟨rfl, -⟩ | ⟨hw, -⟩
    · exact htensor
    · rw [hnarrow] at hw
      cases hw

omit [Numeric.Exact] in
theorem map_inIdentity {vs : List (Operand ℝ)} {ts : List (Tensor ℝ)} (hxs : ∀ x ∈ xs, x.IsMeasure m) (hm : m.Grows m')
    (hf : f.isComparison = false) (hv : List.Forall₂ (fun x v => Erased m x v m') xs vs)
    (ht : List.Forall₂ (fun v t => Reads f f.arity m' v t ∧ (f.arity = 1 → t = v.tensor m')) vs ts) :
    ts = xs.map (Operand.inIdentity f m) := by
  induction hv generalizing ts with
  | nil =>
    cases ht
    rfl
  | cons hxv _ ih =>
    cases ht with
    | cons hvt hrest =>
      refine congrArg₂ List.cons (hxv.eq_inIdentity (hxs _ List.mem_cons_self) hm hf hvt.2 hvt.1) ?_
      exact ih (fun x hx => hxs x (List.mem_cons_of_mem _ hx)) hrest

omit [Numeric ℝ] [Numeric.Exact] in
theorem requireErasable_one {wording : Wording} {ps : List (Participant ℝ × Nat)} {u : StorageUnit}
    (h : UnitRule.requireErasable wording ps = .ok u) : u = .one := by
  induction ps with
  | nil =>
    cases h
    rfl
  | cons p ps ih =>
    rw [UnitRule.requireErasable] at h
    split at h
    · exact ih h
    · cases h

omit [Numeric ℝ] [Numeric.Exact] in
theorem givesQuantity_of_erased (hf : (TensorFunction.each f).rule = .erased) :
    (TensorFunction.each f).givesQuantity = true := by
  cases f <;> first | rfl | cases hf

omit [Numeric ℝ] [Numeric.Exact] in
theorem isComparison_of_erased (hf : (TensorFunction.each f).rule = .erased) : f.isComparison = false := by
  cases f <;> first | rfl | cases hf

omit [Numeric.Exact] in
theorem elementwise_wide_erased (hf : (TensorFunction.each f).rule = .erased) {n k : ℤ} (hw : wrapped n ≠ n)
    (hn : isUnsigned n = false) (h : f.onWide n = .ok k) :
    f.arity = 1 ∧ Tensor.elementwise f [.scalar (.integer n : Cell ℝ)] = .ok [.scalar (.integer k)] := by
  cases f with
  | real g => cases g <;> first | (cases h; done) | (cases h; exact ⟨rfl, rfl⟩)
  | invert =>
    cases h
    have hexact : wrappedAs n (-n - 1) = -n - 1 := by
      rw [wrappedAs, if_neg hw, hn]
      rfl
    refine ⟨rfl, ?_⟩
    change (Except.ok [Tensor.scalar (Cell.integer (wrappedAs n (-n - 1)))] : Outcome (List (Tensor ℝ))) = _
    rw [hexact]
  | _ => first | (cases hf; done) | (cases h; done) | (cases h; exact ⟨rfl, rfl⟩)

/-- **Functions without a unit rule.** They are computed on values in the identity scale, and so is their result. -/
theorem Gives.erased (h : Gives f manner xs c m y m') (hf : (TensorFunction.each f).rule = .erased) :
    ∃ ts zs, Tensor.inManner manner f (xs.map (Operand.inIdentity f m)) = .ok ts ∧
      y = together (zs.map (inUnitOf .one)) ∧ List.Forall₂ (fun t z => (z.tensor m').grid = t.grid) ts zs := by
  obtain ⟨u, m₁, vs, m₂, zs, hunit, hvalues, hcompute, rfl⟩ := h.steps
  rw [givesQuantity_of_erased hf, if_pos rfl]
  rw [hf] at hunit hvalues
  have hu : u = .one ∧ m = m₁ := by
    obtain ⟨hrequire, hm⟩ := lift_eq_ok_iff.1 hunit
    exact ⟨requireErasable_one hrequire, hm⟩
  obtain ⟨rfl, rfl⟩ := hu
  obtain ⟨hm, herased⟩ := forall₂_erased h.measures hvalues
  have hnumeric : ∀ v ∈ vs, v.IsNumeric m₂ := by
    intro v hv
    obtain ⟨x, _, hxv⟩ := exists_partner herased.flip hv
    exact hxv.numeric
  rcases computeBare_spec h.way hnumeric hcompute with ⟨rfl, n, k, rfl, hw, hn, hwide, rfl⟩ | ⟨ts, rs, hone, hts, hrs, hzs⟩
  · -- one whole number that no cell can hold
    obtain ⟨x, rfl⟩ : ∃ x, xs = [x] := List.length_eq_one_iff.1 herased.length_eq
    obtain ⟨harity, helementwise⟩ := elementwise_wide_erased hf hw hn hwide
    have hstored : x.inIdentity f m = .scalar (.integer n) := by
      obtain ⟨hxn, -⟩ := List.forall₂_cons.1 herased
      rcases hxn.value with ⟨hs, hvalue⟩ | ⟨-, -, hnarrow⟩
      · rw [Operand.inIdentity, if_pos ⟨hs, fun _ => harity⟩, Operand.stored, ← hvalue]
        rfl
      · exact absurd hnarrow (by simpa [Operand.isWide] using hw)
    refine ⟨_, [.integer k], ?_, rfl, .cons rfl .nil⟩
    rw [List.map_singleton, hstored]
    exact helementwise
  · have hlength : vs.length = f.arity := herased.length_eq.symm.trans h.length
    have halone : List.Forall₂ (fun v t => Reads f f.arity m₂ v t ∧ (f.arity = 1 → t = v.tensor m₂)) vs ts := by
      rw [hlength] at hts
      by_cases harity : f.arity = 1
      · obtain ⟨v, rfl⟩ := List.length_eq_one_iff.1 (hlength.trans harity)
        cases hone v rfl
        exact .cons ⟨(List.forall₂_cons.1 hts).1, fun _ => rfl⟩ .nil
      · exact hts.imp fun _ _ ht => ⟨ht, fun hone => absurd hone harity⟩
    have hidentity := map_inIdentity h.measures hm (isComparison_of_erased hf) herased halone
    exact ⟨rs, zs, hidentity ▸ hrs, rfl, hzs.imp fun r z hz => hz.grid⟩

/-- **Soundness.** A function with a unit rule gives what it gives on the physical values of its operands, unless whole
numbers wrap around; so operands with the same physical values give results with the same physical value, in whichever
scales they are stored and under whichever policy. A function without a unit rule gives what it gives on the values in
the identity scale, as quantities in the unit one. -/
theorem sound_callWith (h : Gives f manner xs c m y m') :
    (f.isPhysical = true → Operand.Unwrapped f manner m xs →
      Physically f manner xs m y m' ∧ y.isQuantity = (TensorFunction.each f).givesQuantity ∧
      ∀ {c₁ : Context ℝ} {n n' : Store ℝ} {ws : List (Operand ℝ)} {z : Operand ℝ}, Gives f manner ws c₁ n z n' →
        Operand.Unwrapped f manner n ws → ws.map (Operand.physical n) = xs.map (Operand.physical m) →
        z.physical n' = y.physical m') ∧
    ((TensorFunction.each f).rule = .erased → ∃ ts zs,
      Tensor.inManner manner f (xs.map (Operand.inIdentity f m)) = .ok ts ∧ y = together (zs.map (inUnitOf .one)) ∧
        List.Forall₂ (fun t z => (z.tensor m').grid = t.grid) ts zs) := by
  refine ⟨fun hf hu => ?_, h.erased⟩
  obtain ⟨⟨t, ht, hy⟩, hquantity⟩ := h.physically hf hu
  refine ⟨⟨t, ht, hy⟩, hquantity, fun {c₁ n n' ws z} hz hv hsame => ?_⟩
  obtain ⟨⟨s, hs, hphysical⟩, -⟩ := hz.physically hf hv
  have hoperands : ws.map (fun x => Tensor.ofNumbers (x.physical n)) =
      xs.map fun x => Tensor.ofNumbers (x.physical m) := by
    simpa [Function.comp_def] using congrArg (List.map Tensor.ofNumbers) hsame
  rw [hoperands, ht] at hs
  cases hs
  rw [hphysical, hy]

end Erasing

end Exact

/-! ## Lengths -/

section Lengths

open Session

/-- a value that is stored as a length -/
def lengthIn (s : Scale) (x : Operand ℝ) : Operand ℝ := .quantity ⟨x, { length := 1 }, s⟩

/-- a context in which no unit has a name -/
noncomputable def unnamed (policy : ScalePolicy) : Context ℝ := ⟨policy, .empty [] []⟩

theorem measures_lengths {s t : Scale} {a b : Operand ℝ} {m : Store ℝ} (ha : a.IsNumeric m) (hb : b.IsNumeric m) :
    ∀ x ∈ [lengthIn s a, lengthIn t b], x.IsMeasure m := by
  intro x hx
  rcases List.mem_pair.1 hx with rfl | rfl
  · exact ha
  · exact hb

/-- three kilometers and five hundred meters are 3500 meters -/
theorem sound_callWith_lengths : ∃ y m',
    Gives .add .plain [lengthIn (.ten 3) (.number 3), lengthIn .one (.number 500)] (unnamed .smallerWins) ⟨[]⟩ y m' ∧
      y.physical m' = ⟨[], [3500]⟩ := by
  have hgives : ∃ y m',
      Gives .add .plain [lengthIn (.ten 3) (.number 3), lengthIn .one (.number 500)] (unnamed .smallerWins) ⟨[]⟩ y m' :=
    ⟨_, _, Or.inl rfl, rfl, measures_lengths trivial trivial, rfl, rfl⟩
  obtain ⟨y, m', hgives⟩ := hgives
  refine ⟨y, m', hgives, ?_⟩
  have hnumbers : ∃ t ∈ [lengthIn (.ten 3) (.number 3), lengthIn .one (.number 500)].map (Operand.stored ⟨[]⟩),
      t.kind = .real := ⟨_, List.mem_cons_self, rfl⟩
  obtain ⟨⟨t, ht, hy⟩, -⟩ := (sound_callWith hgives).1 rfl fun _ => Tensor.unwrapped_of_real rfl .plain hnumbers
  have hsum : Tensor.inManner .plain .add ([lengthIn (.ten 3) (.number 3), lengthIn .one (.number 500)].map fun x =>
      .ofNumbers (x.physical ⟨[]⟩)) = .ok [.ofNumbers ⟨[], [3 * (Scale.ten 3).real + 500 * Scale.one.real]⟩] := rfl
  have hthousand : (Scale.ten 3).real = 1000 := by
    change (2 : ℝ) ^ (3 : ℤ) * ((3 : ℝ) ^ (0 : ℤ) * ((5 : ℝ) ^ (3 : ℤ) * (Real.pi ^ (0 : ℤ) * 1))) = 1000
    norm_num
  cases hsum.symm.trans ht
  rw [hy, Tensor.numbers_ofNumbers, hthousand, Scale.real_one]
  norm_num

/-- A sum of whole numbers that wraps around, and a sum of truth values, are not the sums of the physical values. -/
theorem not_physically_add :
    (∃ y m', Gives .add .plain [lengthIn .one (.integer 9223372036854775807), lengthIn .one (.integer 1)]
        (unnamed .smallerWins) ⟨[]⟩ y m' ∧
      ¬ Physically .add .plain [lengthIn .one (.integer 9223372036854775807), lengthIn .one (.integer 1)] ⟨[]⟩ y m') ∧
    ∃ y m', Gives .add .plain [lengthIn .one (.flag true), lengthIn .one (.flag true)]
        (unnamed .smallerWins) ⟨[]⟩ y m' ∧
      ¬ Physically .add .plain [lengthIn .one (.flag true), lengthIn .one (.flag true)] ⟨[]⟩ y m' := by
  -- the cell of a result beside the sum of the numbers of two cells
  have hdiffer : ∀ {a b c : Cell ℝ} {m' : Store ℝ}, c.toNumber ≠ a.toNumber + b.toNumber →
      ¬ Physically .add .plain [lengthIn .one (.item a), lengthIn .one (.item b)] ⟨[]⟩
        (lengthIn .one (.item c)) m' := by
    rintro a b c m' hne ⟨t, ht, hy⟩
    have hsum : Tensor.inManner .plain .add ([lengthIn .one (.item a), lengthIn .one (.item b)].map fun x =>
        .ofNumbers (x.physical ⟨[]⟩)) =
          .ok [.ofNumbers ⟨[], [a.toNumber * Scale.one.real + b.toNumber * Scale.one.real]⟩] := rfl
    cases hsum.symm.trans ht
    change Grid.mk [] [c.toNumber * Scale.one.real] = Tensor.numbers _ at hy
    rw [Tensor.numbers_ofNumbers, Scale.real_one, mul_one, mul_one, mul_one] at hy
    exact hne (List.head_eq_of_cons_eq (congrArg Grid.entries hy))
  have hwrapped : (Cell.integer (-9223372036854775808) : Cell ℝ).toNumber ≠
      (Cell.integer 9223372036854775807 : Cell ℝ).toNumber + (Cell.integer 1 : Cell ℝ).toNumber := by
    rw [Cell.toNumber_integer, Cell.toNumber_integer, Cell.toNumber_integer]
    norm_num
  have hflag : (Cell.flag true : Cell ℝ).toNumber ≠
      (Cell.flag true : Cell ℝ).toNumber + (Cell.flag true : Cell ℝ).toNumber := by
    rw [Cell.toNumber_flag]
    norm_num
  constructor
  · exact ⟨_, _, ⟨Or.inl rfl, rfl, measures_lengths trivial trivial, rfl, rfl⟩, hdiffer hwrapped⟩
  · exact ⟨_, _, ⟨Or.inl rfl, rfl, measures_lengths trivial trivial, rfl, rfl⟩, hdiffer hflag⟩

end Lengths

end UnitAlgebra

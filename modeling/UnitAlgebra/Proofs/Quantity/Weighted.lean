/-
Functions on tensors of stored numbers and on tensors of physical values. Where the numbers of the operands have factors,
the numbers of the result have the factor that belongs to them, in every manner of application.

Results:
- `unwrapped_of_real`: beside numbers no whole number wraps around.
- `elementwise_physical`, `inManner_weighted`: functions on tensors, by factors.
- `elementwise_wide`: a whole number that no cell can hold, by a factor.
-/
import UnitAlgebra.Proofs.Quantity.Computing
import UnitAlgebra.Proofs.Quantity.Whole

namespace UnitAlgebra

variable [Numeric ℝ] [Numeric.Exact]

/-! ## Functions on tensors -/

namespace Tensor

/-- no whole number wraps around at any place where a function is computed -/
def Unwrapped (f : Elementwise) (ts : List (Tensor ℝ)) : Prop :=
  ∀ k, f.computing (Kind.joinAll (ts.map Tensor.kind)) = some k → ∀ cs, IsRow ts cs → f.Unwrapped (cs.map (Cell.cast k))

omit [Numeric.Exact] in
theorem unwrapped_cast_real (f : Elementwise) (cs : List (Cell ℝ)) : f.Unwrapped (cs.map (Cell.cast .real)) := by
  rcases cs with _ | ⟨c, _ | ⟨d, _ | ⟨e, cs⟩⟩⟩ <;> cases f <;> trivial

omit [Numeric.Exact] in
/-- comparisons have verdicts for results -/
theorem unwrapped_of_isComparison {f : Elementwise} (hf : f.isComparison = true) (ts : List (Tensor ℝ)) :
    Unwrapped f ts := by
  intro k _ cs _
  generalize cs.map (Cell.cast k) = ds
  rcases ds with _ | ⟨c, _ | ⟨d, _ | ⟨e, cs⟩⟩⟩ <;> cases f <;> trivial

omit [Numeric ℝ] [Numeric.Exact] in
theorem kind_arranged (manner : Manner) (ts : List (Tensor ℝ)) :
    (manner.arranged ts).map Tensor.kind = ts.map Tensor.kind := by
  rcases ts with _ | ⟨s, _ | ⟨t, _ | ⟨u, ts⟩⟩⟩ <;> cases manner <;> rfl

omit [Numeric.Exact] in
/-- Where numbers are among the operands, all is computed on numbers. -/
theorem unwrapped_of_real {f : Elementwise} (hf : f.isPhysical = true) (manner : Manner) {ts : List (Tensor ℝ)}
    (h : ∃ t ∈ ts, t.kind = .real) : Unwrapped f (manner.arranged ts) := by
  obtain ⟨t, ht, hreal⟩ := h
  have hjoin : Kind.joinAll (ts.map Tensor.kind) = .real := by
    refine Kind.eq_real_of_le ?_
    rw [← hreal]
    exact Kind.rank_le_joinAll (List.mem_map_of_mem ht)
  intro k hk cs _
  rw [kind_arranged, hjoin, Elementwise.computing_real hf] at hk
  cases hk
  exact unwrapped_cast_real f cs

omit [Numeric.Exact] in
/-- taking operands to numbers keeps whole numbers from wrapping around -/
theorem Unwrapped.of_kinds {f : Elementwise} (hf : f.isPhysical = true) {manner : Manner} {ss ts : List (Tensor ℝ)}
    (h : Unwrapped f (manner.arranged ss)) (hk : List.Forall₂ (fun s t => t = s ∨ t.kind = .real) ss ts) :
    Unwrapped f (manner.arranged ts) := by
  by_cases hreal : ∃ t ∈ ts, t.kind = .real
  · exact unwrapped_of_real hf manner hreal
  · have hsame : ts = ss := by
      clear h
      induction hk with
      | nil => rfl
      | @cons s t ss ts hst _ ih =>
        rw [ih fun ⟨u, hu, hkind⟩ => hreal ⟨u, List.mem_cons_of_mem t hu, hkind⟩]
        rcases hst with rfl | hkind
        · rfl
        · exact absurd ⟨t, List.mem_cons_self, hkind⟩ hreal
    rw [hsame]
    exact h

/-- Functions on tensors, by factors. -/
theorem elementwise_physical {f : Elementwise} (hf : f.isPhysical = true) {qs : List (Weighted ℝ)}
    (hn : qs.length = f.arity) (hfilled : ∀ q ∈ qs, q.1.grid.Filled) (huniform : ∀ q ∈ qs, q.1.IsUniform) {b : ℝ}
    (hw : f.Weighs (qs.map Prod.snd) b) (hu : Unwrapped f (qs.map Prod.fst)) {rs : List (Tensor ℝ)}
    (h : elementwise f (qs.map Prod.fst) = .ok rs) :
    ∃ r t, rs = [r] ∧ elementwise f (qs.map Weighted.tensor) = .ok [t] ∧ t.numbers = r.numbers.map (· * b) := by
  have hresults : f.results = 1 := by cases f <;> first | rfl | cases hf
  refine elementwise_weighted hresults (Elementwise.computing_real hf) hfilled (fun k hk cs out hrow hcs hout => ?_) h
  have hlength : cs.length = qs.length := by rw [hcs.length_eq, List.length_map]
  have hkinds : ∀ c ∈ cs, c.kind.rank ≤ k.rank := by
    intro c hc
    obtain ⟨t, ht, hct⟩ := exists_partner hcs hc
    obtain ⟨q, hq, rfl⟩ := List.mem_map.1 ht
    rw [huniform q hq c hct]
    exact (Kind.rank_le_joinAll (List.mem_map_of_mem ht)).trans (Elementwise.rank_le_computing hf hk)
  obtain ⟨out₁, hout₁, c, d, rfl, rfl, hd⟩ :=
    Elementwise.onCells_unwrapped hf hk (hlength.trans hn) hkinds (hu k hk cs hrow) hout
  have has : (qs.map Prod.snd).length = f.arity := by rw [List.length_map, hn]
  obtain ⟨out₂, out₃, hout₂, hout₃, d', e, rfl, rfl, he⟩ :=
    Elementwise.onCells_weighs hf hw has (hlength.trans (List.length_map _).symm)
  cases hout₁.symm.trans hout₂
  refine ⟨c, e, rfl, ?_, by rw [he, hd, mul_one]⟩
  rw [List.zipWith_map_right] at hout₃
  exact hout₃

omit [Numeric.Exact] in
theorem elementwise_number {f : Elementwise} (hf : f.isPhysical = true) (hn : f.arity = 1) {x : ℝ} {d : Cell ℝ}
    (hd : f.onNumber x = [d]) : elementwise f [ofNumbers ⟨[], [x]⟩] = .ok [⟨.real, ⟨[], [d]⟩⟩] := by
  cases f <;> first | (cases hf; done) | (cases hn; done) | (cases hd; rfl)

/-- a whole number beyond the range of cells, by a factor -/
theorem elementwise_wide {f : Elementwise} (hf : f.isPhysical = true) (hn : f.arity = 1) {a b : ℝ} (hw : f.Weighs [a] b)
    {n k : ℤ} (h : f.onWide n = .ok k) :
    ∃ t, elementwise f [ofNumbers ⟨[], [Numeric.mul (n : ℝ) a]⟩] = .ok [t] ∧ t.numbers = ⟨[], [k * b]⟩ := by
  obtain ⟨c, d, hc, hd, hnumber⟩ := Elementwise.onWide_agrees hf h
  cases hc
  have hlength : [(.real (n : ℝ) : Cell ℝ)].length = [a].length := rfl
  obtain ⟨out, out', hout, hout', e, e', rfl, rfl, he⟩ := Elementwise.onCells_weighs hf hw hn.symm hlength
  cases hd.symm.trans (Except.ok.inj hout)
  refine ⟨_, elementwise_number hf hn (Except.ok.inj hout'), ?_⟩
  change Grid.mk [] [e'.toNumber] = _
  rw [he, hnumber, Cell.toNumber_integer, mul_one]

/-! ## Manners -/

omit [Numeric ℝ] [Numeric.Exact] in
theorem volume_ones (s t : List Nat) : Grid.volume (s ++ t.map fun _ => 1) = Grid.volume s := by
  have hones : Grid.volume (t.map fun _ => 1) = 1 := by
    induction t with
    | nil => rfl
    | cons n t ih => simpa [Grid.volume] using ih
  induction s with
  | nil => exact hones
  | cons n s ih => exact congrArg (n * ·) ih

/-- weighted operands, set up in a manner -/
def arrangedWeighted (manner : Manner) (qs : List (Weighted ℝ)) : List (Weighted ℝ) :=
  match manner, qs with
  | .outer, [p, q] => [(⟨p.1.kind, ⟨p.1.grid.shape ++ q.1.grid.shape.map fun _ => 1, p.1.grid.entries⟩⟩, p.2), q]
  | _, qs => qs

omit [Numeric.Exact] in
theorem arranged_tensor (manner : Manner) (qs : List (Weighted ℝ)) :
    (arrangedWeighted manner qs).map Weighted.tensor = manner.arranged (qs.map Weighted.tensor) := by
  rcases qs with _ | ⟨p, _ | ⟨q, _ | ⟨r, qs⟩⟩⟩ <;> cases manner <;> rfl

/-- **Functions on tensors, in a manner, by factors.** -/
theorem inManner_weighted {f : Elementwise} (hf : f.isPhysical = true) (manner : Manner) {qs : List (Weighted ℝ)}
    (hn : qs.length = f.arity) (hfilled : ∀ q ∈ qs, q.1.grid.Filled) (huniform : ∀ q ∈ qs, q.1.IsUniform) {b : ℝ}
    (hw : f.Weighs (qs.map Prod.snd) b) (hu : Unwrapped f (manner.arranged (qs.map Prod.fst))) {rs : List (Tensor ℝ)}
    (h : inManner manner f (qs.map Prod.fst) = .ok rs) :
    ∃ r t, rs = [r] ∧ inManner manner f (qs.map Weighted.tensor) = .ok [t] ∧ t.numbers = r.numbers.map (· * b) := by
  unfold inManner at h ⊢
  rw [← arranged_tensor]
  by_cases htwo : manner = .outer ∧ ∃ p q, qs = [p, q]
  · -- the first operand is seen in a larger box, with the same cells
    obtain ⟨rfl, p, q, rfl⟩ := htwo
    have hn' : (arrangedWeighted .outer [p, q]).length = f.arity := hn
    refine elementwise_physical hf hn' (fun w hw => ?_) (fun w hw => ?_) hw hu h
    · rcases List.mem_pair.1 hw with rfl | rfl
      · exact (hfilled p (by simp)).trans (volume_ones _ _).symm
      · exact hfilled _ (by simp)
    · rcases List.mem_pair.1 hw with rfl | rfl
      · exact huniform p (by simp)
      · exact huniform _ (by simp)
  · have hplain : arrangedWeighted manner qs = qs ∧ manner.arranged (qs.map Prod.fst) = qs.map Prod.fst := by
      rcases qs with _ | ⟨p, _ | ⟨q, _ | ⟨r, qs⟩⟩⟩ <;> cases manner <;>
        first | exact ⟨rfl, rfl⟩ | exact absurd ⟨rfl, _, _, rfl⟩ htwo
    rw [hplain.1]
    rw [hplain.2] at h hu
    exact elementwise_physical hf hn hfilled huniform hw hu h

end Tensor

end UnitAlgebra

/-
Closeness of scaled tensors. Numbers that are close to each other are so in every scale, if the absolute tolerance is
taken to the scale with them; the relative one is the same in all scales.

Results:
- `isClose_scaled`: two numbers.
- `closeness_scaled`: tensors, refusals included.
-/
import UnitAlgebra.Proofs.Tensor.Scaled

namespace UnitAlgebra.Tensor

variable [Numeric ℝ]

/-- The closeness of tensors is told by truth values. -/
theorem isUniform_of_closeness {a b absolute relative t : Tensor ℝ} {nanClose : Bool}
    (h : closeness a b absolute relative nanClose = .ok t) : t.IsUniform := by
  obtain ⟨rows, -, h⟩ := Outcome.bind_eq_ok_iff.1 h
  cases h
  intro c hc
  obtain ⟨row, -, rfl⟩ := List.mem_map.1 hc
  split <;> rfl

variable [Numeric.Analytic] {w : ℝ} (hw : 0 < w)

include hw

/-- **Two numbers are close in every scale** or in none. -/
theorem isClose_scaled (x y s r : ℝ) (nanClose : Bool) :
    isClose ⟨s * w, r, nanClose⟩ (x * w) (y * w) = isClose ⟨s, r, nanClose⟩ x y := by
  have hdistance : Numeric.abs (Numeric.sub (x * w) (y * w)) = Numeric.abs (Numeric.sub x y) * w := by
    rw [Numeric.Exact.sub, Numeric.Exact.sub, Numeric.Exact.abs, Numeric.Exact.abs, ← sub_mul, abs_mul, abs_of_pos hw]
  have hbound : Numeric.add (s * w) (Numeric.mul r (Numeric.abs (y * w))) =
      Numeric.add s (Numeric.mul r (Numeric.abs y)) * w := by
    simp only [Numeric.Exact.add, Numeric.Exact.mul, Numeric.Exact.abs, abs_mul, abs_of_pos hw]
    ring
  have hle : Numeric.le (Numeric.abs (Numeric.sub (x * w) (y * w)))
      (Numeric.add (s * w) (Numeric.mul r (Numeric.abs (y * w)))) =
        Numeric.le (Numeric.abs (Numeric.sub x y)) (Numeric.add s (Numeric.mul r (Numeric.abs y))) := by
    rw [hdistance, hbound, Bool.eq_iff_iff, Numeric.Exact.le, Numeric.Exact.le]
    exact mul_le_mul_iff_left₀ hw
  have heq : Numeric.eq (x * w) (y * w) = Numeric.eq x y := by
    rw [Bool.eq_iff_iff, Numeric.Exact.eq, Numeric.Exact.eq]
    exact mul_left_inj' hw.ne'
  have hfinite (z : ℝ) : Numeric.isFinite z = true := by
    rw [Numeric.isFinite, Numeric.Exact.isNaN, Numeric.Analytic.isInfinite]
    rfl
  unfold isClose
  rw [hle, heq, hfinite, hfinite, Numeric.Exact.isNaN, Numeric.Exact.isNaN, Numeric.Exact.isNaN, Numeric.Exact.isNaN]

/-- **Closeness of tensors**, which is told, or refused, in every scale as in any other. -/
theorem closeness_scaled {a a' b b' s s' : Tensor ℝ} (ha : Scaled Cell.Equals w a a') (hb : Scaled Cell.Equals w b b')
    (hs : Scaled Cell.Equals w s s') (r : Tensor ℝ) (nanClose : Bool) :
    closeness a' b' s' r nanClose = closeness a b s r nanClose := by
  have hcolumn {t t' : Tensor ℝ} (ht : Scaled Cell.Equals w t t') (shape : List Nat) :
      (t'.grid.broadcast shape).entries.map Cell.toNumber =
        ((t.grid.broadcast shape).entries.map Cell.toNumber).map (· * w) := by
    have hall := (ht.grid.broadcast shape).entries
    generalize (t.grid.broadcast shape).entries = cells at hall
    generalize (t'.grid.broadcast shape).entries = cells' at hall
    induction hall with
    | nil => rfl
    | cons hc _ ih =>
      obtain ⟨x, ⟨-, rfl⟩, rfl⟩ := hc
      exact congrArg (_ :: ·) ih
  unfold closeness numberRows
  simp only [List.map_cons, List.map_nil, ← ha.grid.shape, ← hb.grid.shape, ← hs.grid.shape]
  cases Grid.sharedShapes [a.grid.shape, b.grid.shape, s.grid.shape, r.grid.shape] with
  | none => rfl
  | some shape =>
    simp only [hcolumn ha, hcolumn hb, hcolumn hs]
    refine congrArg (fun cells => Except.ok (Tensor.mk .flag ⟨shape, cells⟩)) ?_
    refine List.map_map.trans (Eq.trans (List.map_congr_left fun i _ => ?_) List.map_map.symm)
    -- a row that lacks a number lacks it in every scale
    simp only [Function.comp_apply, List.filterMap_cons, List.filterMap_nil, List.getElem?_map (f := (· * w))]
    generalize ((a.grid.broadcast shape).entries.map Cell.toNumber)[i]? = x
    generalize ((b.grid.broadcast shape).entries.map Cell.toNumber)[i]? = y
    generalize ((s.grid.broadcast shape).entries.map Cell.toNumber)[i]? = z
    generalize ((r.grid.broadcast shape).entries.map Cell.toNumber)[i]? = v
    cases x <;> cases y <;> cases z <;> cases v <;> try rfl
    exact congrArg Cell.flag (isClose_scaled hw _ _ _ _ nanClose)

end UnitAlgebra.Tensor

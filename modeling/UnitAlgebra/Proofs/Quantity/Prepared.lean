/-
Calls that are prepared first and then carried out. All that can fail is in the preparation; what is prepared is only
written, and writing gives the result whatever it is.

Results:
- `run_eq_ok_iff`: a run of what has been prepared.
- `computeBare_nil`: without anything to write into, results are operands of their own.
- `apply_quantities`: a function on quantities, step by step.
-/
import UnitAlgebra.Proofs.Session.Memory
import UnitAlgebra.Quantity.Call

namespace UnitAlgebra

variable {κ : Type} [Numeric κ]

namespace Prepared

variable {α β : Type}

/-- what is prepared is carried out whatever it is -/
theorem run_eq (p : Prepared κ α) (c : Context κ) (m : Store κ) : p.run c m = .ok (p.result, p.write m) := rfl

theorem run_map (f : α → β) (p : Prepared κ α) : (p.map f).run = p.run >>= fun a => pure (f a) := rfl

end Prepared

namespace Session

variable {α : Type} {c : Context κ} {m m' : Store κ}

/-- A run of what has been prepared. -/
theorem run_eq_ok_iff {act : Session κ (Prepared κ α)} {a : α} : (act >>= Prepared.run) c m = .ok (a, m') ↔
    ∃ p m₁, act c m = .ok (p, m₁) ∧ p.result = a ∧ p.write m₁ = m' := by
  rw [bind_eq_ok_iff]
  refine exists_congr fun p => exists_congr fun m₁ => and_congr_right fun _ => ?_
  rw [p.run_eq, Except.ok.injEq, Prod.mk.injEq]

/-! ## Results of their own -/

/-- results as operands of their own -/
def delivered (r : Results κ) : Session κ (List (Operand κ)) :=
  match r with
  | .tensors _ ts => ts.mapM computed
  | .wide n => pure [.integer n]

omit [Numeric κ] in
theorem prepareResults_nil (r : Results κ) : prepareResults [] r = (delivered r >>= fun xs => pure (.done xs)) := by
  cases r <;> rfl

variable {f : TensorFunction} {way : Way κ} {outs xs : List (Operand κ)}

/-- but for chosen places, all ways compute results first -/
theorem prepareBare_eq (hway : way ≠ .atPlaces) : prepareBare f way outs xs = resultsOf f way xs >>= prepareResults outs := by
  cases way <;> first | rfl | exact absurd rfl hway

/-- Without anything to write into, results are operands of their own. -/
theorem computeBare_nil (way : Way κ) (hway : way ≠ .atPlaces) : computeBare f way [] xs = resultsOf f way xs >>= delivered := by
  rw [computeBare, prepareBare_eq hway, bind_assoc]
  refine bind_congr fun r => ?_
  rw [prepareResults_nil, bind_assoc]
  exact bind_pure (delivered r)

omit [Numeric κ] in
theorem kindInto_eq (outs : List (Operand κ)) (c : Context κ) (m : Store κ) :
    ∃ k, kindInto outs c m = .ok (k, m) := by
  unfold kindInto
  rcases outs.map bareValue with _ | ⟨x, _ | ⟨y, ys⟩⟩
  · exact ⟨none, rfl⟩
  · cases x <;> exact ⟨_, rfl⟩
  · refine ⟨none, ?_⟩
    cases x <;> rfl

/-! ## Functions on quantities -/

theorem callWith_of_arranged {manner : Manner} {named : List (String × Operand κ)} (way : Option Kind → Way κ)
    {args : List (Operand κ)} (h : arrange f manner args named = .ok ⟨way, [], xs⟩) :
    callWith f manner args named = apply f (way none) [] xs := by
  rw [callWith, prepareCall, h]
  rfl

omit [Numeric κ] in
theorem arrangePlainly_operands (way : Way κ) (h : xs.length = f.arity) :
    arrangePlainly f way xs [] = .ok ⟨fun _ => way, [], xs⟩ := by
  have hdrop : xs.drop f.arity = [] := List.drop_eq_nil_of_le (Nat.le_of_eq h)
  have htake : xs.take f.arity = xs := List.take_of_length_le (Nat.le_of_eq h)
  have hlength : ¬ xs.length < f.arity := by
    rw [h]
    exact Nat.lt_irrefl _
  simp only [arrangePlainly, hdrop, htake, hlength]
  rfl

/-- a plain call on all operands is the function on them -/
theorem callWith_plain (h : xs.length = f.arity) : callWith f .plain xs [] = apply f .plainly [] xs :=
  callWith_of_arranged (fun _ => .plainly) (arrangePlainly_operands .plainly h)

/-- A function on quantities, step by step. -/
theorem apply_quantities (hseries : (xs ++ outs).any Operand.isSeries = false)
    (hquantity : (xs ++ outs).any Operand.isQuantity = true) :
    apply f way outs xs = (do
      let ps ← xs.mapM Participant.ofOperand
      let u ← f.rule.unit (.plain f.name) ps
      let values ← f.rule.values f.alignment u ps
      checkOutputs f u outs
      let results ← computeBare f way (outs.map bareValue) values
      return together (if f.givesQuantity then results.map (inUnitOf u) else results)) := by
  simp only [apply, prepare, hseries, hquantity, Bool.false_eq_true, if_false, if_true, prepareRule, computeBare,
    bind_assoc, pure_bind, Prepared.run_map]

end Session

end UnitAlgebra

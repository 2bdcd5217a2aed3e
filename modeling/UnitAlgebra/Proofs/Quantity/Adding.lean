/-
Runs that only add to memory: reading operands, computing on them and taking values to other scales make new buffers, if
any, and leave those that are there as they are.

Results:
- `Adds.bind`, `Adds.mapM`: such runs put together.
- `adds_alignedValue`: taking values to a scale adds to memory and changes nothing.
-/
import UnitAlgebra.Proofs.Session.Memory
import UnitAlgebra.Quantity.Elementwise

namespace UnitAlgebra

variable {κ : Type} [Numeric κ]

namespace Session

variable {α β : Type}

/-! ## Runs that only add to memory -/

/-- whatever the run gives, all buffers stay as they are -/
structure Adds (act : Session κ α) : Prop where
  grows : ∀ {c m a m'}, act c m = .ok (a, m') → m.Grows m'

omit [Numeric κ] in
theorem adds_pure (a : α) : Adds (pure a : Session κ α) where
  grows h := by
    obtain ⟨-, rfl⟩ := pure_eq_ok_iff.1 h
    exact .refl _

omit [Numeric κ] in
theorem adds_lift (o : Outcome α) : Adds (liftM o : Session κ α) where
  grows h := by
    obtain ⟨-, rfl⟩ := lift_eq_ok_iff.1 h
    exact .refl _

omit [Numeric κ] in
theorem adds_throw (fault : Fault) : Adds (throw fault : Session κ α) := ⟨nofun⟩

omit [Numeric κ] in
theorem Adds.bind {act : Session κ α} {f : α → Session κ β} (h : Adds act) (hf : ∀ a, Adds (f a)) :
    Adds (act >>= f) where
  grows hrun := by
    obtain ⟨a, m₁, ha, hb⟩ := bind_eq_ok_iff.1 hrun
    exact (h.grows ha).trans ((hf a).grows hb)

omit [Numeric κ] in
theorem Adds.mapM {f : α → Session κ β} (h : ∀ a, Adds (f a)) (l : List α) : Adds (l.mapM f) := by
  induction l with
  | nil => exact adds_pure []
  | cons a l ih =>
    rw [List.mapM_cons]
    exact (h a).bind fun _ => ih.bind fun _ => adds_pure _

theorem adds_elementwise₁ (f : Elementwise) (xs : List (Operand κ)) : Adds (elementwise₁ f xs) := by
  have htensors : Adds (xs.mapM tensorOf) := .mapM (fun x => ⟨fun h => by
    obtain ⟨-, rfl⟩ := tensorOf_eq_ok_iff.1 h
    exact .refl _⟩) xs
  have hcomputed (rs : List (Tensor κ)) : Adds (rs.mapM computed) := .mapM (fun t => ⟨fun h => (computed_spec h).1⟩) rs
  refine (htensors.bind fun ts => (adds_lift _).bind hcomputed).bind fun ys => ?_
  split <;> exact adds_pure _

theorem adds_arithmetic (k : Combination) (a b : Operand κ) : Adds (arithmetic k a b) := by
  unfold arithmetic
  split
  · exact adds_lift _
  · split <;> first | exact adds_pure _ | exact adds_elementwise₁ _ _ | exact adds_throw _

theorem adds_stepInside (k : Combination) (x : κ) (q : Quantity (Operand κ)) : Adds (stepInside k x q) := by
  have hscaled (f : Elementwise) : Adds (elementwise₁ f [q.value, .number x] >>= fun y =>
      (pure (.quantity { q with value := y }) : Session κ (Operand κ))) :=
    (adds_elementwise₁ f _).bind fun _ => adds_pure _
  have hsum (f : Elementwise) (scale : Scale) (left right : Operand κ) :
      Adds (elementwise₁ f [left, right] >>= fun y =>
        (pure (.quantity ⟨y, q.dimension, scale⟩) : Session κ (Operand κ))) :=
    (adds_elementwise₁ f _).bind fun _ => adds_pure _
  have hmoved {s t : Scale} (y : Operand κ) {rest : Operand κ → Session κ (Operand κ)} (hrest : ∀ z, Adds (rest z)) :
      Adds (if s = t then pure y >>= rest
        else (liftM (Numeric.ratio s t : Outcome κ) : Session κ κ) >>= fun r =>
          arithmetic .mul y (.number r) >>= rest) := by
    split
    · exact (adds_pure y).bind hrest
    · exact (adds_lift _).bind fun r => (adds_arithmetic _ _ _).bind hrest
  have hpolicy : Adds (policy : Session κ ScalePolicy) := ⟨fun h => by
    cases h
    exact .refl _⟩
  unfold stepInside
  split
  · exact hscaled _
  · exact hscaled _
  all_goals
    simp only
    split
    · exact hpolicy.bind fun p => (adds_lift _).bind fun scale =>
        hmoved q.value fun left => hmoved (.number x) fun right => hsum _ scale left right
    · exact adds_throw _

theorem adds_withNumber (k : Combination) (a : Operand κ) (x : κ) : Adds (withNumber k a x) := by
  unfold withNumber
  split
  · exact adds_stepInside k x _
  · exact adds_arithmetic k _ _

theorem adds_step (a : Operand κ) (s : Step κ) : Adds (step a s) := by
  cases s with
  | move s t => exact (adds_lift _).bind fun r => adds_withNumber .mul a r
  | _ => exact adds_withNumber _ a _

theorem adds_convert (a : Operand κ) (steps : List (Step κ)) : Adds (convert a steps) := by
  induction steps generalizing a with
  | nil => exact adds_pure a
  | cons s steps ih =>
    have hrun : convert a (s :: steps) = step a s >>= fun b => convert b steps := rfl
    rw [hrun]
    exact (adds_step a s).bind ih

/-- Taking values to a scale adds to memory and changes nothing. -/
theorem adds_alignedValue (u : StorageUnit) (p : Participant κ) : Adds (UnitRule.alignedValue u p) := by
  unfold UnitRule.alignedValue
  split
  · exact adds_convert _ _
  · exact adds_pure _

theorem adds_tensorOf (x : Operand κ) : Adds (tensorOf x) where
  grows h := by
    obtain ⟨-, rfl⟩ := tensorOf_eq_ok_iff.1 h
    exact .refl _

theorem adds_indexOf (x : Operand κ) : Adds (indexOf x) := by
  unfold indexOf
  simp only
  split
  case h_6 =>
    -- the bounds of a stretch, each of them absent or a whole number
    refine Adds.bind ?_ fun _ => Adds.bind ?_ fun _ => Adds.bind ?_ fun _ => adds_pure _
    all_goals split <;> first | exact adds_pure _ | exact adds_throw _
  all_goals first
    | exact adds_pure _
    | exact adds_throw _
    | refine (adds_tensorOf x).bind fun t => ?_
      split <;> first | exact adds_pure _ | exact adds_throw _

theorem adds_keyOf (x : Operand κ) : Adds (keyOf x) := by
  cases x with
  | tuple xs => exact .mapM adds_indexOf xs
  | _ => exact (adds_indexOf _).bind fun _ => adds_pure _

end Session

end UnitAlgebra

/-
What goes wrong in computing is told without words: an operand is of the wrong type or has a bad value, a number is too
large or divided by zero, a scale overflows. A value that is refused in words is refused before, while the unit of the
result is found.

Results:
- `Session.Unworded.bind`, `Session.Unworded.mapM`: such runs put together.
- `unworded_convert`: values taken to other scales.
- `unworded_computeBare`: functions computed plainly on bare operands.
-/
import UnitAlgebra.Proofs.Quantity.Prepared
import UnitAlgebra.Proofs.Unit.Arithmetic

namespace UnitAlgebra

/-- a value out of place that is refused in words -/
def Fault.isWorded : Fault → Bool
  | .badValue (some _) => true
  | _ => false

variable {α β κ : Type} [Numeric κ]

/-! ## Outcomes -/

/-- no value is refused in words -/
def Outcome.Unworded (o : Outcome α) : Prop := ∀ fault, o = .error fault → fault.isWorded = false

namespace Outcome

theorem unworded_ok (a : α) : Unworded (.ok a) := by
  rintro _ ⟨⟩

theorem unworded_error {fault : Fault} (h : fault.isWorded = false) : Unworded (.error fault : Outcome α) := by
  rintro _ ⟨⟩
  exact h

theorem Unworded.bind {o : Outcome α} {f : α → Outcome β} (h : Unworded o) (hf : ∀ a, Unworded (f a)) :
    Unworded (o >>= f) := by
  cases o with
  | error fault => exact unworded_error (h fault rfl)
  | ok a => exact hf a

theorem Unworded.map {o : Outcome α} (h : Unworded o) (f : α → β) : Unworded (o.map f) := by
  cases o with
  | error fault => exact unworded_error (h fault rfl)
  | ok a => exact unworded_ok _

theorem Unworded.mapM {f : α → Outcome β} (h : ∀ a, Unworded (f a)) (l : List α) : Unworded (l.mapM f) := by
  induction l with
  | nil => exact unworded_ok []
  | cons a l ih =>
    rw [List.mapM_cons]
    exact (h a).bind fun _ => ih.bind fun _ => unworded_ok _

end Outcome

open Outcome (unworded_ok unworded_error)

theorem unworded_ofInt (n : Int) : (Numeric.ofInt n : Outcome κ).Unworded := by
  unfold Numeric.ofInt
  split
  · exact unworded_ok _
  · exact unworded_error rfl

theorem unworded_ofInts (f : Base → Int) : (Scale.ofInts f).Unworded := by
  unfold Scale.ofInts
  split
  · exact unworded_ok _
  · exact unworded_error rfl

theorem unworded_ratio (s t : Scale) : (Numeric.ratio s t : Outcome κ).Unworded := by
  have hdiv : (s.div t).Unworded := by
    intro fault h
    have hreaches := Scale.reaches_div s t
    rw [h] at hreaches
    obtain ⟨-, cause, rfl⟩ := hreaches
    rfl
  refine hdiv.bind fun u => ?_
  unfold Numeric.factor
  split
  · exact unworded_ok _
  · exact unworded_error rfl

theorem unworded_resolve (p : ScalePolicy) (s t : Scale) (place : Option Operation) :
    (p.resolve s t place).Unworded := by
  unfold ScalePolicy.resolve
  split
  · exact unworded_ok _
  · exact unworded_error rfl

/-! ## Reading operands -/

namespace Operand

theorem unworded_rows (gs : List (Grid α)) : (rows gs).Unworded := by
  unfold rows
  split
  · exact unworded_ok _
  · split
    · exact unworded_ok _
    · exact unworded_error rfl

mutual

theorem unworded_leaves (m : Store κ) (x : Operand κ) : (x.leaves m).Unworded := by
  cases x with
  | list xs =>
    rw [leaves]
    exact (unworded_leavesAll m xs).bind unworded_rows
  | tuple xs =>
    rw [leaves]
    exact (unworded_leavesAll m xs).bind unworded_rows
  | quantity q =>
    rw [leaves]
    exact unworded_leaves m q.value
  | _ =>
    simp only [leaves]
    exact unworded_ok _

theorem unworded_leavesAll (m : Store κ) (xs : List (Operand κ)) : (leavesAll m xs).Unworded := by
  cases xs with
  | nil =>
    rw [leavesAll]
    exact unworded_ok _
  | cons x xs =>
    rw [leavesAll]
    exact (unworded_leaves m x).bind fun _ => (unworded_leavesAll m xs).bind fun _ => unworded_ok _

end

theorem unworded_cell (x : Operand κ) : (x.cell .asIs).Unworded := by
  cases x with
  | integer n =>
    change (if wrapped n = n then _ else _ : Outcome (Cell κ)).Unworded
    split
    · exact unworded_ok _
    · exact unworded_error rfl
  | _ => first | exact unworded_ok _ | exact unworded_error rfl

theorem unworded_toTensor (m : Store κ) (x : Operand κ) : (x.toTensor m .asIs).Unworded := by
  unfold toTensor
  split
  · exact unworded_ok _
  · exact (unworded_leaves m x).bind fun g =>
      (Outcome.Unworded.mapM unworded_cell g.entries).bind fun _ => unworded_ok _

theorem unworded_toNumber (m : Store κ) (x : Operand κ) : (x.toNumber m).Unworded := by
  cases x with
  | integer n => exact unworded_ofInt n
  | text s =>
    simp only [toNumber]
    split
    · next n _ => cases n <;> first | exact unworded_ok _ | exact unworded_error rfl
    · exact unworded_error rfl
  | array v =>
    simp only [toNumber]
    split
    · exact unworded_ok _
    · exact unworded_error rfl
  | _ => first | exact unworded_ok _ | exact unworded_error rfl

end Operand

/-! ## Computing on tensors -/

omit [Numeric κ] in
theorem unworded_onIntegers (f : Elementwise) (n k : Int) :
    (f.onIntegers n k : Outcome (List (Cell κ))).Unworded := by
  cases f with
  | power =>
    simp only [Elementwise.onIntegers]
    split
    · exact unworded_error rfl
    · exact unworded_ok _
  | _ => exact unworded_ok _

theorem unworded_onCells (f : Elementwise) (k : Kind) (cs : List (Cell κ)) : (f.onCells k cs).Unworded := by
  unfold Elementwise.onCells
  split <;> first | exact unworded_ok _ | exact unworded_onIntegers f _ _ | exact unworded_error rfl

theorem unworded_elementwise (f : Elementwise) (ts : List (Tensor κ)) : (Tensor.elementwise f ts).Unworded := by
  unfold Tensor.elementwise
  split
  · exact unworded_error rfl
  · split
    · exact unworded_error rfl
    · exact (Outcome.Unworded.mapM (unworded_onCells f _) _).bind fun _ => unworded_ok _

/-! ## Runs -/

namespace Session

/-- whatever goes wrong in the run, no value is refused in words -/
structure Unworded (act : Session κ α) : Prop where
  fault : ∀ {c m fault}, act c m = .error fault → fault.isWorded = false

omit [Numeric κ] in
theorem unworded_pure (a : α) : Unworded (pure a : Session κ α) := ⟨nofun⟩

omit [Numeric κ] in
theorem unworded_throw {fault : Fault} (h : fault.isWorded = false) : Unworded (throw fault : Session κ α) where
  fault := by
    rintro c m _ ⟨⟩
    exact h

omit [Numeric κ] in
theorem unworded_lift {o : Outcome α} (h : o.Unworded) : Unworded (liftM o : Session κ α) where
  fault hrun := by
    cases o with
    | error fault =>
      cases hrun
      exact h _ rfl
    | ok a => cases hrun

omit [Numeric κ] in
theorem unworded_get : Unworded (get : Session κ (Store κ)) := ⟨nofun⟩

omit [Numeric κ] in
theorem Unworded.bind {act : Session κ α} {f : α → Session κ β} (h : Unworded act) (hf : ∀ a, Unworded (f a)) :
    Unworded (act >>= f) where
  fault {c m fault} hrun := by
    cases hact : act c m with
    | error other =>
      rw [bind_of_error hact] at hrun
      cases hrun
      exact h.fault hact
    | ok r =>
      rw [bind_of_ok hact] at hrun
      exact (hf r.1).fault hrun

omit [Numeric κ] in
theorem Unworded.mapM {f : α → Session κ β} (h : ∀ a, Unworded (f a)) (l : List α) : Unworded (l.mapM f) := by
  induction l with
  | nil => exact unworded_pure []
  | cons a l ih =>
    rw [List.mapM_cons]
    exact (h a).bind fun _ => ih.bind fun _ => unworded_pure _

theorem unworded_tensorOf (x : Operand κ) : Unworded (tensorOf x) :=
  unworded_get.bind fun m => unworded_lift (x.unworded_toTensor m)

omit [Numeric κ] in
theorem unworded_computed (t : Tensor κ) : Unworded (computed t) := by
  unfold computed
  split
  · exact unworded_pure _
  · exact ⟨nofun⟩

/-! ## Values in other scales -/

theorem unworded_elementwise₁ (f : Elementwise) (xs : List (Operand κ)) : Unworded (elementwise₁ f xs) := by
  have htensors : Unworded (xs.mapM tensorOf) := .mapM unworded_tensorOf xs
  have hresults : Unworded (elementwise f xs) := htensors.bind fun ts =>
    (unworded_lift (unworded_elementwise f ts)).bind fun rs => .mapM unworded_computed rs
  refine hresults.bind fun ys => ?_
  split <;> exact unworded_pure _

theorem unworded_arithmetic (k : Combination) (a b : Operand κ) : Unworded (arithmetic k a b) := by
  have hnumber (x : Plain κ) : x.toNumber.Unworded := by
    cases x with
    | whole n => exact unworded_ofInt n
    | number x => exact unworded_ok _
  have hquotient (n k : Int) : (wholeQuotient n k : Outcome κ).Unworded := by
    unfold wholeQuotient
    split
    · exact unworded_error rfl
    · split
      · exact unworded_ok _
      · exact unworded_error rfl
  have hplain (x y : Plain κ) : (plainArithmetic k x y).Unworded := by
    unfold plainArithmetic
    split
    · exact unworded_ok _
    · exact unworded_ok _
    · exact unworded_ok _
    · exact (hquotient _ _).map _
    · refine (hnumber _).bind fun x => (hnumber _).bind fun y => ?_
      split <;> first | exact unworded_ok _ | skip
      split
      · exact unworded_error rfl
      · exact unworded_ok _
  unfold arithmetic
  split
  · exact unworded_lift (hplain _ _)
  · split <;> first | exact unworded_pure _ | exact unworded_elementwise₁ _ _ | exact unworded_throw rfl

theorem unworded_stepInside (k : Combination) (x : κ) (q : Quantity (Operand κ)) : Unworded (stepInside k x q) := by
  have hresult (f : Elementwise) (ys : List (Operand κ)) (g : Operand κ → Operand κ) :
      Unworded (elementwise₁ f ys >>= fun y => (pure (g y) : Session κ (Operand κ))) :=
    (unworded_elementwise₁ f ys).bind fun _ => unworded_pure _
  have hmoved {s t : Scale} (y : Operand κ) {rest : Operand κ → Session κ (Operand κ)}
      (hrest : ∀ z, Unworded (rest z)) :
      Unworded (if s = t then pure y >>= rest
        else (liftM (Numeric.ratio s t : Outcome κ) : Session κ κ) >>= fun r =>
          arithmetic .mul y (.number r) >>= rest) := by
    split
    · exact (unworded_pure y).bind hrest
    · exact (unworded_lift (unworded_ratio _ _)).bind fun r => (unworded_arithmetic _ _ _).bind hrest
  have hpolicy : Unworded (policy : Session κ ScalePolicy) := ⟨nofun⟩
  unfold stepInside
  split
  · exact hresult _ _ fun y => .quantity { q with value := y }
  · exact hresult _ _ fun y => .quantity { q with value := y }
  all_goals
    simp only
    split
    · exact hpolicy.bind fun p => (unworded_lift (unworded_resolve p _ _ _)).bind fun scale =>
        hmoved q.value fun left => hmoved (.number x) fun right =>
          hresult _ [left, right] fun y => .quantity ⟨y, q.dimension, scale⟩
    · exact unworded_throw rfl

theorem unworded_step (a : Operand κ) (s : Step κ) : Unworded (step a s) := by
  have hnumber (k : Combination) (x : κ) : Unworded (withNumber k a x) := by
    unfold withNumber
    split
    · exact unworded_stepInside k x _
    · exact unworded_arithmetic k _ _
  cases s with
  | move s t => exact (unworded_lift (unworded_ratio s t)).bind fun r => hnumber .mul r
  | _ => exact hnumber _ _

/-- Values taken to other scales. -/
theorem unworded_convert (a : Operand κ) (steps : List (Step κ)) : Unworded (convert a steps) := by
  induction steps generalizing a with
  | nil => exact unworded_pure a
  | cons s steps ih =>
    have hrun : convert a (s :: steps) = step a s >>= fun b => convert b steps := rfl
    rw [hrun]
    exact (unworded_step a s).bind ih

theorem unworded_exponentOf? (function : String) (p : Participant κ) : Unworded (exponentOf? function p) := by
  unfold exponentOf?
  split
  · refine Unworded.bind (unworded_convert _ _) fun x => unworded_get.bind fun m => ?_
    split
    · exact unworded_pure _
    · refine unworded_get.bind fun m => (unworded_lift (x.unworded_toNumber m)).bind fun y => ?_
      split
      · exact unworded_throw rfl
      split
      · exact unworded_throw rfl
      · exact unworded_pure _
  · exact unworded_throw rfl

/-! ## Functions on bare operands -/

theorem unworded_onOpaque (f : Elementwise) (xs : List (Operand κ)) : Unworded (onOpaque f xs) := by
  have hlikeness (negated : Bool) (x y : Operand κ) : Unworded (likeness negated x y) := by
    unfold likeness
    split
    · exact unworded_pure _
    · exact (unworded_tensorOf _).bind fun _ => unworded_pure _
  unfold onOpaque
  split
  · exact (hlikeness _ _ _).bind fun _ => unworded_pure _
  · exact (hlikeness _ _ _).bind fun _ => unworded_pure _
  · exact unworded_throw rfl

theorem unworded_tensorsFor (f : Elementwise) (xs : List (Operand κ)) : Unworded (tensorsFor f xs) := by
  have hwide (k : Option Kind) (n : Int) : (wideTensor f k n : Outcome (Tensor κ)).Unworded := by
    unfold wideTensor
    split
    · exact (unworded_ofInt n).map _
    · split
      · exact unworded_ok _
      · exact unworded_error rfl
  unfold tensorsFor
  split
  · refine (Unworded.mapM unworded_tensorOf _).bind fun others => Unworded.mapM (fun x => ?_) xs
    split
    · split
      · exact unworded_lift (hwide _ _)
      · exact unworded_tensorOf _
    · exact unworded_tensorOf _
  · exact .mapM unworded_tensorOf xs

/-- Functions computed plainly on bare operands. -/
theorem unworded_computeBare (f : Elementwise) (xs : List (Operand κ)) :
    Unworded (computeBare (.each f) .plainly [] xs) := by
  have hwide (n : Int) : (f.onWide n).Unworded := by
    unfold Elementwise.onWide
    split <;> first | exact unworded_ok _ | exact unworded_error rfl
  have htensors (ts : List (Tensor κ)) :
      Unworded (do return Results.tensors .broadcast (← Tensor.elementwise f ts) : Session κ (Results κ)) :=
    (unworded_lift (unworded_elementwise f ts)).bind fun _ => unworded_pure _
  have hplain : Unworded (plainResults f xs) := by
    unfold plainResults
    split
    · split
      · exact htensors _
      · exact (unworded_lift (hwide _)).bind fun _ => unworded_pure _
    · split
      · exact (unworded_onOpaque f _).bind fun _ => unworded_pure _
      · exact (unworded_tensorsFor f _).bind htensors
  have hdelivered (r : Results κ) : Unworded (delivered r) := by
    cases r with
    | tensors fit ts => exact .mapM unworded_computed ts
    | wide n => exact unworded_pure _
  rw [computeBare_nil .plainly (by simp)]
  exact hplain.bind hdelivered

end Session

end UnitAlgebra

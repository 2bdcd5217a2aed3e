/-
Plain numbers in sessions. A conversion of a plain number is the conversion of the number: it leaves memory alone, and
what it refuses is what the steps refuse.

Results:
- `convert_intoStorage`: numbers are taken to storage units without fail.
- `convert_number`: a list of steps, run on a plain number.
- `rescale_number`: a plain number in one unit as a plain number in another.
- `erase_number`: a plain number of an erasable unit as a bare number.
-/
import UnitAlgebra.Conversion.Values
import UnitAlgebra.Proofs.Session.Memory

namespace UnitAlgebra

variable {κ : Type} [Numeric κ]

/-! ## Numbers in units -/

namespace UnitMeaning

/-- a number of an erasable unit as a bare number -/
def erase (x : κ) (u : UnitMeaning κ) : Outcome κ := do Step.convert x (← u.erasure)

/-- a number in a unit as a number in its storage unit -/
def intoStorage (u : UnitMeaning κ) (x : κ) : κ :=
  let y := if Numeric.isOne u.factor then x else Numeric.mul x u.factor
  if Numeric.isZero u.offset then y else Numeric.add y u.offset

/-- Numbers are taken to storage units without fail. -/
theorem convert_intoStorage (x : κ) (u : UnitMeaning κ) : Step.convert x u.toStorage = .ok (u.intoStorage x) := by
  unfold toStorage intoStorage
  rw [Step.convert_append]
  by_cases hf : Numeric.isOne u.factor <;> by_cases ho : Numeric.isZero u.offset <;> simp only [hf, ho] <;> rfl

end UnitMeaning

namespace Session

variable (c : Context κ) (m : Store κ)

/-- a number as what a session gives, with the memory as it is -/
def given (o : Outcome κ) : Outcome (Operand κ × Store κ) := o.map fun y => (.number y, m)

/-- A list of steps, run on a plain number. -/
theorem convert_number (x : κ) (steps : List (Step κ)) :
    convert (.number x) steps c m = given m (Step.convert x steps) := by
  induction steps generalizing x with
  | nil => rfl
  | cons s steps ih =>
    have hrun : convert (.number x) (s :: steps) c m =
        step (.number x) s c m >>= fun p => convert p.1 steps c p.2 := rfl
    have hsteps : Step.convert x (s :: steps) = s.onNumber x >>= fun y => Step.convert y steps := rfl
    rw [hrun, hsteps, step_number]
    cases s.onNumber x with
    | error fault => rfl
    | ok y => exact ih y

/-- A plain number in one unit as a plain number in another. -/
theorem rescale_number (x : κ) (u v : UnitMeaning κ) :
    rescale (.number x) u v c m = given m (UnitMeaning.rescale x u v) := by
  have hrun : rescale (.number x) u v c m = u.steps v >>= fun steps => convert (.number x) steps c m := by
    change (liftM (u.steps v) : Session κ _) c m >>= _ = _
    cases u.steps v <;> rfl
  rw [hrun, UnitMeaning.rescale]
  cases u.steps v with
  | error fault => rfl
  | ok steps => exact convert_number c m x steps

/-- A plain number of an erasable unit as a bare number. -/
theorem erase_number (x : κ) (u : UnitMeaning κ) :
    erase (.number x) u c m = given m (UnitMeaning.erase x u) := by
  have hrun : erase (.number x) u c m = u.erasure >>= fun steps => convert (.number x) steps c m := by
    change (liftM u.erasure : Session κ _) c m >>= _ = _
    cases u.erasure <;> rfl
  rw [hrun, UnitMeaning.erase]
  cases u.erasure with
  | error fault => rfl
  | ok steps => exact convert_number c m x steps

end Session

end UnitAlgebra

/-
Powers with numbers for exponents. An exponent is made a fraction before anything is raised, and what is not finite has
none: it is refused whatever is raised, dimensionless or not. A finite exponent that is no small fraction raises
dimensionless values, in the scale one; a small fraction raises values in the scale that has its root.

Results:
- `exponentOf?_number`, `call_number`: what a number is read as, and what a call of a power does with it.
- `computeBare_power`: the numbers of a power, or a whole number too large for one.
- `ends_powerUnit`, `power_outcome`: what a call with a finite exponent is refused for.
- `exists_power`: dimensionless values have their powers, as long as the scales stay in range.
- `physical_power`: the physical value of a power.
- `powers_take_numbers`: all of this on machine numbers and on real ones.
-/
import UnitAlgebra.Proofs.Expression.Factors
import UnitAlgebra.Proofs.Quantity.Roots

namespace UnitAlgebra

variable {κ : Type} [Numeric κ]

/-! ## Numbers as exponents -/

/-- a number, plain or as an item -/
inductive Operand.IsNumber (p : κ) : Operand κ → Prop where
  | plain : IsNumber p (.number p)
  | item : IsNumber p (.item (.real p))

/-- the small fraction that a number is -/
def Fraction.ofNumber? (p : κ) : Option Fraction := (Numeric.fraction? largestRoot p).map fun r => ⟨r.1, r.2⟩

theorem Fraction.denominator_of_ofNumber? (hκ : Numeric.Reduced κ) {p : κ} {r : Fraction} (h : ofNumber? p = some r) :
    r.denominator ≠ 0 := by
  obtain ⟨⟨n, d⟩, hfraction, rfl⟩ := Option.map_eq_some_iff.1 h
  exact (hκ hfraction).1

namespace Session

variable {c : Context κ} {m m' : Store κ} {p : κ} {w : Operand κ}

/-- A number is read as a fraction if it is finite. -/
theorem exponentOf?_number (hw : w.IsNumber p) (function : String) :
    exponentOf? function (w.participant m) =
      if Numeric.isNaN p then throw (.badValue none)
      else if Numeric.isInfinite p then throw .tooLarge
      else pure (Fraction.ofNumber? p) := by
  cases hw <;> rfl

variable {f : Elementwise} {q : Quantity (Operand κ)}

/-- the functions that raise to the power of their second operand -/
theorem power_or_floatPower (hf : (TensorFunction.each f).rule = .power) : f = .power ∨ f = .floatPower := by
  cases f with
  | power => exact .inl rfl
  | floatPower => exact .inr rfl
  | real g => cases g <;> cases hf
  | _ => cases hf

/-- A call with a number for exponent, step by step. -/
theorem call_number (hf : (TensorFunction.each f).rule = .power) (hw : w.IsNumber p) :
    callWith (.each f) .plain [.quantity q, w] [] c m =
      if Numeric.isNaN p then .error (.badValue none)
      else if Numeric.isInfinite p then .error .tooLarge
      else (do
        let u ← powerUnit f.name (Fraction.ofNumber? p) ⟨q.dimension, q.scale⟩
        let base ← powerBase (Fraction.ofNumber? p) q.scale
        let v ← q.valueIn base
        let results ← computeBare (.each f) .plainly [] [v, w]
        return together (results.map (inUnitOf u)) : Session κ (Operand κ)) c m := by
  have hcall : callWith (.each f) .plain [.quantity q, w] [] c m = (do
      let u ← (do
        let exponent ← exponentOf? f.name (w.participant m)
        return ← powerUnit f.name exponent ⟨q.dimension, q.scale⟩ : Session κ StorageUnit)
      let values ← (do
        let scale ← powerBase (← exponentOf? "power" (w.participant m)) q.scale
        return [← q.valueIn scale, ← (w.participant m).quantity.valueIn .one] : Session κ (List (Operand κ)))
      let results ← computeBare (.each f) .plainly [] values
      return together (results.map (inUnitOf u)) : Session κ (Operand κ)) c m := by
    rcases power_or_floatPower hf with rfl | rfl <;> cases hw <;> exact call_quantity rfl rfl rfl
  have hexponent : (w.participant m).quantity.valueIn .one = pure w := by
    cases hw <;> rfl
  rw [hcall]
  simp only [exponentOf?_number hw, hexponent]
  split
  · rfl
  · split
    · rfl
    · simp only [pure_bind, bind_assoc]

/-! ## Powers of numbers -/

theorem mapM_tensorOf_number (hw : w.IsNumber p) : [w].mapM tensorOf c m = .ok ([.scalar (.real p)], m) := by
  cases hw <;> rfl

theorem tensorsFor_wide (hf : (TensorFunction.each f).rule = .power) (hw : w.IsNumber p) {n : Int}
    (hwide : (Operand.integer n : Operand κ).isWide = true) :
    tensorsFor f [.integer n, w] c m =
      (Numeric.ofInt n >>= fun x => .ok ([.scalar (.real x), .scalar (.real p)], m)) := by
  have hnarrow : w.isWide = false := by
    cases hw <;> rfl
  have hothers : ([.integer n, w].filter fun x => !x.isWide).mapM tensorOf c m = .ok ([.scalar (.real p)], m) := by
    rw [List.filter_cons_of_neg (by simp [hwide]), List.filter_cons_of_pos (by simp [hnarrow]), List.filter_nil]
    exact mapM_tensorOf_number hw
  have hkind : f.computing (Kind.joinAll (.integer :: [.scalar (.real p)].map (Tensor.kind (κ := κ)))) = some .real := by
    rcases power_or_floatPower hf with rfl | rfl <;> rfl
  unfold tensorsFor
  rw [if_pos (by simp [hwide]), bind_of_ok hothers, hkind, List.mapM_cons]
  cases hn : (Numeric.ofInt n : Outcome κ) with
  | error fault =>
    refine bind_of_error ?_
    simp only [hwide, if_true, wideTensor, hn]
    rfl
  | ok x =>
    refine bind_eq_ok_iff.2 ⟨.scalar (.real x), m, ?_, ?_⟩
    · simp only [hwide, if_true, wideTensor, hn]
      rfl
    · cases hw <;> rfl

theorem tensorsFor_number (hf : (TensorFunction.each f).rule = .power) (hw : w.IsNumber p) {v : Operand κ}
    (hv : v.IsNumeric m) :
    (∃ t, tensorsFor f [v, w] c m = .ok ([t, .scalar (.real p)], m) ∧ t.grid.Filled ∧
      t.numbers = (v.tensor m).numbers) ∨
    tensorsFor f [v, w] c m = .error .tooLarge ∧ v.isWide = true ∧ IsUncountable v := by
  cases hwide : v.isWide with
  | false =>
    have hnarrow : w.isWide = false := by
      cases hw <;> rfl
    have hread : tensorOf v c m = .ok (v.tensor m, m) := tensorOf_eq_ok_iff.2 ⟨Operand.toTensor_eq hv hwide, rfl⟩
    refine .inl ⟨v.tensor m, ?_, hv.filled, rfl⟩
    unfold tensorsFor
    rw [if_neg (by simp [hwide, hnarrow]), List.mapM_cons, bind_of_ok hread, bind_of_ok (mapM_tensorOf_number hw)]
    rfl
  | true =>
    cases v with
    | integer n =>
      rw [tensorsFor_wide hf hw hwide]
      cases hn : (Numeric.ofInt? n : Option κ) with
      | none =>
        rw [Numeric.ofInt, hn]
        exact .inr ⟨rfl, rfl, n, rfl, hn⟩
      | some x =>
        rw [Numeric.ofInt, hn]
        refine .inl ⟨.scalar (.real x), rfl, Grid.filled_scalar _, ?_⟩
        change _ = Grid.mk [] [(Numeric.ofInt? n : Option κ).getD Numeric.nan]
        rw [hn]
        rfl
    | _ => cases hwide

/-- **The numbers of a power**: each is raised to the exponent. -/
theorem computeBare_power (hf : (TensorFunction.each f).rule = .power) (hw : w.IsNumber p) {v : Operand κ}
    (hv : v.IsNumeric m) :
    (∃ z m', computeBare (.each f) .plainly [] [v, w] c m = .ok ([z], m') ∧
      (z.tensor m').numbers = (v.tensor m).numbers.map (Numeric.operate .power · p)) ∨
    computeBare (.each f) .plainly [] [v, w] c m = .error .tooLarge ∧ v.isWide = true ∧ IsUncountable v := by
  have hclear : [v, w].any Operand.isOpaque = false := by
    cases hw <;> cases v <;> first | rfl | exact hv.elim
  have hrun : computeBare (.each f) .plainly [] [v, w] = (do
      (← Tensor.elementwise f (← tensorsFor f [v, w])).mapM computed : Session κ (List (Operand κ))) := by
    rw [computeBare_nil .plainly (by simp)]
    change plainResults f [v, w] >>= delivered = _
    unfold plainResults
    simp only [hclear, Bool.false_eq_true, if_false, bind_assoc, pure_bind]
    rfl
  rw [hrun]
  rcases tensorsFor_number (c := c) hf hw hv with ⟨t, ht, hfilled, hnumbers⟩ | ⟨hfault, hwide, hlarge⟩
  · have helementwise : Tensor.elementwise f [t, .scalar (.real p)] =
        .ok [.ofNumbers (t.numbers.map (Numeric.operate .power · p))] := by
      rcases power_or_floatPower hf with rfl | rfl <;>
        exact Tensor.elementwise_beside rfl rfl rfl (fun _ => rfl) hfilled
    obtain ⟨z, m', hz⟩ := exists_computed (.ofNumbers (t.numbers.map (Numeric.operate .power · p))) c m
    refine .inl ⟨z, m', ?_, ?_⟩
    · rw [bind_of_ok ht, helementwise]
      refine bind_eq_ok_iff.2 ⟨_, m, rfl, ?_⟩
      rw [List.mapM_cons, bind_of_ok hz]
      rfl
    · rw [(computed_spec hz).2.tensor (Tensor.isUniform_ofNumbers _), Tensor.numbers_ofNumbers, hnumbers]
  · exact .inr ⟨bind_of_error hfault, hwide, hlarge⟩

end Session

/-! ## What powers are refused for -/

/-- an error of the unit algebra, or a bad value -/
def Fault.IsValueError (fault : Fault) : Prop := (∃ e, fault = .unit e) ∨ ∃ v, fault = .badValue v

theorem Outcome.Ends.of_error {α : Type} {P : α → Prop} {B : Fault → Prop} {o : Outcome α} {fault : Fault}
    (h : Ends P B o) (ho : o = .error fault) : B fault := by
  rw [ho] at h
  exact h

section Refusals

variable {e : Option Fraction} {function : String} {u : StorageUnit} {s : Scale}

theorem Scale.ends_ofInts (wanted : Base → Int) : Outcome.Ends (fun _ => True) Fault.IsValueError (Scale.ofInts wanted) := by
  unfold Scale.ofInts
  split
  · trivial
  · exact .inl ⟨_, rfl⟩

theorem Dimension.ends_pow (d : Dimension) (n : Int) : Outcome.Ends (fun _ => True) Fault.IsValueError (d.pow n) := by
  have h := Dimension.reaches_pow d n
  cases hd : d.pow n with
  | error fault =>
    rw [hd] at h
    obtain ⟨-, cause, rfl⟩ := h
    exact .inl ⟨_, rfl⟩
  | ok => trivial

theorem Dimension.ends_rootOf (d : Dimension) {n : Int} (hn : n ≠ 0) :
    Outcome.Ends (fun _ => True) Fault.IsValueError (d.rootOf n) := by
  rw [Dimension.rootOf, if_neg hn]
  split
  · trivial
  · exact .inr ⟨_, rfl⟩

/-- a unit has no power if exponents leave their range, a root is not there, or the exponent is no small fraction -/
theorem ends_powerUnit (he : ∀ r, e = some r → r.denominator ≠ 0) :
    Outcome.Ends (fun _ => True) Fault.IsValueError (powerUnit function e u) := by
  cases e with
  | none =>
    rw [powerUnit]
    split
    · trivial
    · exact .inr ⟨_, rfl⟩
  | some r =>
    have hr : (r.denominator : Int) ≠ 0 := by exact_mod_cast he r rfl
    exact (Dimension.ends_pow _ _).bind fun d _ => (Dimension.ends_rootOf d hr).bind fun _ _ =>
      (Scale.ends_ofInts _).bind fun _ _ => trivial

theorem ends_powerBase : Outcome.Ends (fun _ => True) Fault.IsValueError (powerBase e s) := by
  cases e with
  | none => trivial
  | some r => exact Scale.ends_ofInts _

end Refusals

/-! ## Calls -/

namespace Session

variable {c : Context κ} {m m' : Store κ} {p : κ} {w : Operand κ} {f : Elementwise} {q : Quantity (Operand κ)}

/-- the value is taken to a scale, and its numbers are raised there -/
def RaisedIn (base : Scale) (p : κ) (c : Context κ) (m : Store κ) (q : Quantity (Operand κ)) (z : Operand κ)
    (m' : Store κ) : Prop :=
  ∃ v m₁, q.valueIn base c m = .ok (v, m₁) ∧
    (z.tensor m').numbers = (v.tensor m₁).numbers.map (Numeric.operate .power · p)

/-- a power is computed in the scale of its exponent, or the value cannot be taken there -/
theorem raised_outcome (hf : (TensorFunction.each f).rule = .power) (hw : w.IsNumber p) (hq : q.value.IsNumeric m)
    (base : Scale) :
    (∃ v m₁ z m', q.valueIn base c m = .ok (v, m₁) ∧
      computeBare (.each f) .plainly [] [v, w] c m₁ = .ok ([z], m') ∧ RaisedIn base p c m q z m') ∨
    ∃ fault, (q.valueIn base >>= fun v => computeBare (.each f) .plainly [] [v, w]) c m = .error fault ∧
      (q.scale ≠ base ∧ (Numeric.ratio q.scale base : Outcome κ) = .error fault ∨
        fault = .tooLarge ∧ IsUncountable q.value) := by
  rcases Quantity.valueIn_outcome hq base c with ⟨v, m₁, hv⟩ | ⟨fault, hfault, hcause⟩
  · obtain ⟨hnumeric, hcases⟩ := Quantity.valueIn_cases hq hv
    rcases computeBare_power (c := c) hf hw hnumeric with ⟨z, m', hz, hnumbers⟩ | ⟨hfault, hwide, hlarge⟩
    · exact .inl ⟨v, m₁, z, m', hv, hz, v, m₁, hv, hnumbers⟩
    · refine .inr ⟨.tooLarge, by rwa [bind_of_ok hv], .inr ⟨rfl, ?_⟩⟩
      -- only a value that stays in its scale can be a wide whole number
      rcases hcases with ⟨-, rfl, -⟩ | ⟨-, r, -, ⟨a, x, -, -, rfl⟩ | ⟨-, hshows⟩⟩
      · exact hlarge
      · cases hwide
      · rw [hshows.isNarrow] at hwide
        cases hwide
  · exact .inr ⟨fault, bind_of_error hfault, hcause⟩

/-- **How a power with a finite exponent ends.** -/
theorem power_outcome (hf : (TensorFunction.each f).rule = .power) (hw : w.IsNumber p) (hnan : Numeric.isNaN p = false)
    (hinf : Numeric.isInfinite p = false) (hq : q.value.IsNumeric m) :
    (∃ u base z m', powerUnit f.name (Fraction.ofNumber? p) ⟨q.dimension, q.scale⟩ = .ok u ∧
      powerBase (Fraction.ofNumber? p) q.scale = .ok base ∧
      callWith (.each f) .plain [.quantity q, w] [] c m = .ok (inUnitOf u z, m') ∧ RaisedIn base p c m q z m') ∨
    ∃ fault, callWith (.each f) .plain [.quantity q, w] [] c m = .error fault ∧
      (powerUnit f.name (Fraction.ofNumber? p) ⟨q.dimension, q.scale⟩ = .error fault ∨
        powerBase (Fraction.ofNumber? p) q.scale = .error fault ∨
        (∃ base, powerBase (Fraction.ofNumber? p) q.scale = .ok base ∧ q.scale ≠ base ∧
          (Numeric.ratio q.scale base : Outcome κ) = .error fault) ∨
        fault = .tooLarge ∧ IsUncountable q.value) := by
  rw [call_number hf hw, hnan, hinf, if_neg Bool.false_ne_true, if_neg Bool.false_ne_true]
  cases hu : powerUnit f.name (Fraction.ofNumber? p) ⟨q.dimension, q.scale⟩ with
  | error fault => exact .inr ⟨fault, rfl, .inl rfl⟩
  | ok u =>
    cases hbase : powerBase (Fraction.ofNumber? p) q.scale with
    | error fault => exact .inr ⟨fault, rfl, .inr (.inl rfl)⟩
    | ok base =>
      rcases raised_outcome (c := c) hf hw hq base with ⟨v, m₁, z, m', hv, hz, hraised⟩ | ⟨fault, hfault, hcause⟩
      · refine .inl ⟨u, base, z, m', rfl, rfl, ?_, hraised⟩
        refine bind_eq_ok_iff.2 ⟨u, m, rfl, bind_eq_ok_iff.2 ⟨base, m, rfl, ?_⟩⟩
        rw [bind_of_ok hv, bind_of_ok hz]
        rfl
      · refine .inr ⟨fault, ?_, .inr (.inr (hcause.imp_left fun h => ⟨base, rfl, h⟩))⟩
        change ((q.valueIn base >>= fun v => computeBare (.each f) .plainly [] [v, w] >>= fun results =>
          pure (together (results.map (inUnitOf u)))) : Session κ _) c m = _
        rw [← bind_assoc]
        exact bind_of_error hfault

end Session

/-! ## Powers of dimensionless values -/

/-- the scale that a value is taken to for an exponent, and that of the result, have exponents in range -/
def Fraction.Fits (e : Option Fraction) (s : Scale) : Prop :=
  ∀ r, e = some r → ∀ b, InRange (r.denominator * Int.fdiv (s.get b).val r.denominator) ∧
    InRange (r.numerator * Int.fdiv (s.get b).val r.denominator)

section Dimensionless

variable {e : Option Fraction} {s : Scale}

theorem Dimension.val_get_one (a : Axis) : ((one : Dimension).get a).val = 0 := by
  cases a <;> rfl

theorem Dimension.pow_one_eq (n : Int) : (one : Dimension).pow n = .ok one :=
  (reaches_pow one n).eq_ok_iff.2 fun a => by rw [val_get_one, mul_zero]

theorem Dimension.rootOf_one {n : Int} (hn : n ≠ 0) : (one : Dimension).rootOf n = .ok one := by
  have hdivisible : (one : Dimension).divisible n = true :=
    (Fraction.divisible_iff one n).2 fun a => by rw [val_get_one]; exact dvd_zero n
  have hroot : (one : Dimension).root n = one := by
    refine ext_get fun a => Exponent.ext ?_
    have h := get_root hdivisible a
    rw [val_get_one] at h ⊢
    exact (mul_eq_zero.1 h).resolve_right hn
  rw [rootOf, if_neg hn, if_pos hdivisible, hroot]

theorem exists_powerUnit (he : ∀ r, e = some r → r.denominator ≠ 0) (hfit : Fraction.Fits e s) (function : String) :
    ∃ t, powerUnit function e ⟨.one, s⟩ = .ok ⟨.one, t⟩ ∧ (e = none → t = .one) := by
  cases e with
  | none => exact ⟨.one, rfl, fun _ => rfl⟩
  | some r =>
    have hr : (r.denominator : Int) ≠ 0 := by exact_mod_cast he r rfl
    obtain ⟨t, ht, -⟩ := (Scale.reaches_ofInts _ _).exists_of_inRange fun b => (hfit r rfl b).2
    refine ⟨t, ?_, nofun⟩
    exact Outcome.bind_eq_ok_iff.2 ⟨_, Dimension.pow_one_eq _, Outcome.bind_eq_ok_iff.2 ⟨_, Dimension.rootOf_one hr,
      Outcome.bind_eq_ok_iff.2 ⟨t, ht, rfl⟩⟩⟩

theorem exists_powerBase (hfit : Fraction.Fits e s) : ∃ base, powerBase e s = .ok base := by
  cases e with
  | none => exact ⟨.one, rfl⟩
  | some r =>
    obtain ⟨base, hbase, -⟩ := (Scale.reaches_ofInts _ _).exists_of_inRange fun b => (hfit r rfl b).1
    exact ⟨base, hbase⟩

end Dimensionless

namespace Session

variable {c : Context κ} {m m' : Store κ} {p : κ} {w : Operand κ} {f : Elementwise} {q : Quantity (Operand κ)}

/-- Dimensionless values have their powers, as long as the scales and their ratio stay in range. -/
theorem exists_power (hκ : Numeric.Reduced κ) (hf : (TensorFunction.each f).rule = .power) (hw : w.IsNumber p)
    (hnan : Numeric.isNaN p = false) (hinf : Numeric.isInfinite p = false) (hq : q.value.IsNumeric m)
    (hone : q.dimension = .one) (hsmall : ¬ IsUncountable q.value) (hfit : Fraction.Fits (Fraction.ofNumber? p) q.scale)
    (hratio : ∀ base, powerBase (Fraction.ofNumber? p) q.scale = .ok base → q.scale ≠ base →
      ∃ r, (Numeric.ratio q.scale base : Outcome κ) = .ok r) :
    ∃ t z m', callWith (.each f) .plain [.quantity q, w] [] c m = .ok (.quantity ⟨z, .one, t⟩, m') ∧
      (Fraction.ofNumber? p = none → t = .one ∧ RaisedIn .one p c m q z m') := by
  obtain ⟨t, ht, hnone⟩ := exists_powerUnit (fun r hr => Fraction.denominator_of_ofNumber? hκ hr) hfit f.name
  obtain ⟨base, hbase⟩ := exists_powerBase hfit
  rcases power_outcome (c := c) hf hw hnan hinf hq with
    ⟨u, base', z, m', hu, hbase', hcall, hraised⟩ | ⟨fault, -, hunit | hfault | ⟨base', hbase', hne, hfault⟩ | ⟨-, hlarge⟩⟩
  · rw [hone, ht] at hu
    cases hu
    refine ⟨t, z, m', hcall, fun he => ⟨hnone he, ?_⟩⟩
    rw [he] at hbase'
    cases hbase'
    exact hraised
  · rw [hone, ht] at hunit
    cases hunit
  · cases hbase.symm.trans hfault
  · obtain ⟨r, hr⟩ := hratio base' hbase' hne
    cases hr.symm.trans hfault
  · exact absurd hlarge hsmall

/-! ## Powers with numbers for exponents -/

/-- what becomes of a number as an exponent: what is not finite is refused; else what a call is refused for is a value
error, or a whole number too large for a number, and what it returns was raised in the scale for the exponent;
dimensionless values have their powers, those with an exponent that is no small fraction in the scale one -/
structure TakesNumber (c : Context κ) (m : Store κ) (f : Elementwise) (q : Quantity (Operand κ)) (w : Operand κ) (p : κ) :
    Prop where
  nan : Numeric.isNaN p = true → callWith (.each f) .plain [.quantity q, w] [] c m = .error (.badValue none)
  infinite : Numeric.isNaN p = false → Numeric.isInfinite p = true →
    callWith (.each f) .plain [.quantity q, w] [] c m = .error .tooLarge
  refused : Numeric.isNaN p = false → Numeric.isInfinite p = false → ∀ {fault},
    callWith (.each f) .plain [.quantity q, w] [] c m = .error fault →
      fault.IsValueError ∨ fault = .tooLarge ∧ IsUncountable q.value
  returned : ∀ {y m'}, callWith (.each f) .plain [.quantity q, w] [] c m = .ok (y, m') → ∃ u base z,
    powerUnit f.name (Fraction.ofNumber? p) ⟨q.dimension, q.scale⟩ = .ok u ∧
      powerBase (Fraction.ofNumber? p) q.scale = .ok base ∧ y = inUnitOf u z ∧ RaisedIn base p c m q z m'
  dimensionless : Numeric.isNaN p = false → Numeric.isInfinite p = false → q.dimension = .one →
    ¬ IsUncountable q.value → Fraction.Fits (Fraction.ofNumber? p) q.scale →
    (∀ base, powerBase (Fraction.ofNumber? p) q.scale = .ok base → q.scale ≠ base →
      ∃ r, (Numeric.ratio q.scale base : Outcome κ) = .ok r) →
    ∃ t z m', callWith (.each f) .plain [.quantity q, w] [] c m = .ok (.quantity ⟨z, .one, t⟩, m') ∧
      (Fraction.ofNumber? p = none → t = .one ∧ RaisedIn .one p c m q z m')

theorem takesNumber (hκ : Numeric.Reduced κ) (hf : (TensorFunction.each f).rule = .power) (hw : w.IsNumber p)
    (hq : q.value.IsNumeric m) : TakesNumber c m f q w p where
  nan hnan := by rw [call_number hf hw, if_pos hnan]
  infinite hnan hinf := by rw [call_number hf hw, hnan, if_neg Bool.false_ne_true, if_pos hinf]
  refused hnan hinf fault hcall := by
    have hdenominator := fun r hr => Fraction.denominator_of_ofNumber? hκ (p := p) (r := r) hr
    rcases power_outcome (c := c) hf hw hnan hinf hq with
      ⟨u, base, z, m', -, -, hok, -⟩ | ⟨cause, herror, hcause⟩
    · cases hok.symm.trans hcall
    · cases herror.symm.trans hcall
      rcases hcause with hunit | hbase | ⟨base, -, -, hratio⟩ | hlarge
      · exact .inl ((ends_powerUnit hdenominator).of_error hunit)
      · exact .inl (ends_powerBase.of_error hbase)
      · obtain ⟨cause, rfl⟩ := Numeric.isScaleOverflow_of_ratio hratio
        exact .inl (.inl ⟨_, rfl⟩)
      · exact .inr hlarge
  returned {y m'} hcall := by
    cases hnan : Numeric.isNaN p with
    | true =>
      rw [call_number hf hw, if_pos hnan] at hcall
      cases hcall
    | false =>
      cases hinf : Numeric.isInfinite p with
      | true =>
        rw [call_number hf hw, hnan, if_neg Bool.false_ne_true, if_pos hinf] at hcall
        cases hcall
      | false =>
        rcases power_outcome (c := c) hf hw hnan hinf hq with
          ⟨u, base, z, m₁, hu, hbase, hok, hraised⟩ | ⟨cause, herror, -⟩
        · cases hok.symm.trans hcall
          exact ⟨u, base, z, hu, hbase, rfl, hraised⟩
        · cases herror.symm.trans hcall
  dimensionless hnan hinf hone hsmall hfit hratio := exists_power hκ hf hw hnan hinf hq hone hsmall hfit hratio

end Session

/-! ## Powers of physical values -/

theorem rpow_mul_pos (a : ℝ) {b : ℝ} (hb : 0 < b) (p : ℝ) : (a * b) ^ p = a ^ p * b ^ p := by
  rcases le_or_gt 0 a with ha | ha
  · exact Real.mul_rpow ha hb.le
  · rw [Real.rpow_def_of_neg (mul_neg_of_neg_of_pos ha hb), Real.rpow_def_of_neg ha, Real.rpow_def_of_pos hb,
      Real.log_mul ha.ne hb.ne', add_mul, Real.exp_add]
    ring

/-- a real number is read as a fraction with a small denominator -/
theorem Fraction.of_ofNumber? {p : ℝ} {r : Fraction} (h : ofNumber? p = some r) :
    r.denominator ≠ 0 ∧ r.denominator ≤ largestRoot ∧ p = r.numerator / r.denominator := by
  obtain ⟨⟨n, d⟩, hfraction, rfl⟩ := Option.map_eq_some_iff.1 h
  have hlimit : d ≤ largestRoot := by
    simp only [Numeric.fraction?] at hfraction
    split at hfraction
    · next hq =>
      obtain ⟨-, rfl⟩ := Prod.mk.inj (Option.some.inj hfraction)
      exact hq.choose_spec.1
    · cases hfraction
  obtain ⟨hd, -, hp⟩ := fraction?_real hfraction
  exact ⟨hd, hlimit, hp⟩

/-- real values can be taken to the scale for an exponent, from which they are less than a root away -/
theorem exists_ratio {p : ℝ} {s base : Scale} (h : powerBase (Fraction.ofNumber? p) s = .ok base) :
    ∃ r, (Numeric.ratio s base : Outcome ℝ) = .ok r := by
  have hrange : ∀ b, InRange ((s.get b).val - (base.get b).val) := by
    intro b
    cases he : Fraction.ofNumber? p with
    | none =>
      rw [he] at h
      cases h
      have hzero : ((Scale.one : Scale).get b).val = 0 := by
        cases b <;> rfl
      rw [hzero, sub_zero]
      exact (s.get b).bounded
    | some r =>
      rw [he] at h
      obtain ⟨hd, hlimit, -⟩ := Fraction.of_ofNumber? he
      have hpos : (0 : ℤ) < r.denominator := by exact_mod_cast Nat.pos_of_ne_zero hd
      rw [(Scale.reaches_ofInts _ _).eq_ok_iff.1 h b, ← Int.fmod_def]
      have hlow := Int.fmod_nonneg_of_pos (s.get b).val hpos
      have hhigh := Int.fmod_lt_of_pos (s.get b).val hpos
      unfold Fraction.largestRoot at hlimit
      unfold InRange exponentLimit
      omega
  obtain ⟨t, ht, -⟩ := (Scale.reaches_div s base).exists_of_inRange hrange
  exact ⟨t.real, by rw [Numeric.ratio, ht]; rfl⟩

namespace Session

variable {c : Context ℝ} {m m' : Store ℝ} {p : ℝ} {w : Operand ℝ} {f : Elementwise} {q : Quantity (Operand ℝ)}
  {y : Operand ℝ}

/-- the scale of a power is the power of the scale that values are taken to -/
theorem real_powerUnit {e : Option Fraction} (he : e = Fraction.ofNumber? p) {function : String} {d : Dimension}
    {s base : Scale} {u : StorageUnit} (hu : powerUnit function e ⟨d, s⟩ = .ok u) (hbase : powerBase e s = .ok base) :
    u.scale.real = base.real ^ p := by
  cases e with
  | none =>
    cases hbase
    rw [powerUnit] at hu
    split at hu
    · cases hu
      change (Scale.one : Scale).real = (Scale.one : Scale).real ^ p
      rw [Scale.real_one, Real.one_rpow]
    · cases hu
  | some r =>
    obtain ⟨hd, -, hp⟩ := Fraction.of_ofNumber? he.symm
    rw [hp]
    exact (Fraction.moves_of_unitOfPower hd hu hbase).real hd

/-- **The physical value of a power** is the power of the physical value. -/
theorem physical_power (hf : (TensorFunction.each f).rule = .power) (hw : w.IsNumber p) (hq : q.value.IsNumeric m)
    (hcall : callWith (.each f) .plain [.quantity q, w] [] c m = .ok (y, m')) :
    y.physical m' = ((Operand.quantity q).physical m).map (· ^ p) := by
  obtain ⟨u, base, z, hu, hbase, rfl, v, m₁, hv, hnumbers⟩ :=
    (takesNumber reduced_real hf hw hq).returned hcall
  have hvalue : UnitRule.alignedValue ⟨q.dimension, base⟩ ((Operand.quantity q).participant m) = q.valueIn base :=
    if_pos rfl
  obtain ⟨-, haligned⟩ := aligned_of_alignedValue (x := .quantity q) hq (.refl m) (fun _ => rfl)
    ((congrArg (fun act => act c m) hvalue).trans hv)
  have hpower : ∀ a : ℝ, a ^ p * u.scale.real = (a * base.real) ^ p := fun a => by
    rw [real_powerUnit rfl hu hbase, rpow_mul_pos a base.real_pos]
  have hresult : (inUnitOf u z).physical m' = (z.tensor m').numbers.map (· * u.scale.real) := rfl
  rw [hresult, hnumbers, ← haligned.physical]
  simp only [Grid.map, List.map_map, Function.comp_def]
  exact congrArg _ (List.map_congr_left fun cell _ => hpower cell)

/-- **Powers with numbers for exponents.** On machine numbers and on real ones, what is not finite is refused, and other
exponents are taken, by dimensionless values all of them; among real numbers, all of which are finite, the physical
value is raised, and only the scales can keep a dimensionless value from its powers. -/
theorem powers_take_numbers {f : Elementwise} (hf : (TensorFunction.each f).rule = .power) :
    (∀ {q : Quantity (Operand Float)} {w : Operand Float} {p : Float} {c : Context Float} {m : Store Float},
      w.IsNumber p → q.value.IsNumeric m → TakesNumber c m f q w p) ∧
    ∀ {q : Quantity (Operand ℝ)} {w : Operand ℝ} {p : ℝ} {c : Context ℝ} {m : Store ℝ},
      w.IsNumber p → q.value.IsNumeric m → TakesNumber c m f q w p ∧
        (∀ {y : Operand ℝ} {m' : Store ℝ}, callWith (.each f) .plain [.quantity q, w] [] c m = .ok (y, m') →
          y.physical m' = ((Operand.quantity q).physical m).map (· ^ p)) ∧
        (q.dimension = .one → Fraction.Fits (Fraction.ofNumber? p) q.scale → ∃ t z m',
          callWith (.each f) .plain [.quantity q, w] [] c m = .ok (.quantity ⟨z, .one, t⟩, m')) := by
  refine ⟨fun hw hq => takesNumber reduced_float hf hw hq, fun {q w p c m} hw hq => ?_⟩
  have htakes : TakesNumber c m f q w p := takesNumber reduced_real hf hw hq
  refine ⟨htakes, fun hcall => physical_power hf hw hq hcall, fun hone hfit => ?_⟩
  -- every whole number is a real number
  have hsmall : ¬ IsUncountable q.value := by
    rintro ⟨n, -, hn⟩
    cases (Numeric.Exact.ofInt? n).symm.trans hn
  obtain ⟨t, z, m', hcall, -⟩ :=
    htakes.dimensionless rfl rfl hone hsmall hfit fun base hbase _ => exists_ratio hbase
  exact ⟨t, z, m', hcall⟩

/-- a dimensionless value in thousands -/
def thousands {κ : Type} (x : κ) : Quantity (Operand κ) := ⟨.number x, .one, .ten 3⟩

/-- four thousand to the power 0.37 is taken in the scale one, and its square is the square of its physical value; what
is not a number is no exponent of it -/
theorem powers_take_numbers_thousands :
    let c : Context Float := ⟨.smallerWins, .empty [] []⟩
    (∃ z m', callWith (.each .power) .plain [.quantity (thousands 4.0), .number 0.37] [] c .empty =
      .ok (.quantity ⟨z, .one, .one⟩, m')) ∧
    callWith (.each .power) .plain [.quantity (thousands 4.0), .number Binary64.nan] [] c .empty =
      .error (.badValue none) ∧
    ∃ (y : Operand ℝ) (m' : Store ℝ), callWith (.each .power) .plain [.quantity (thousands 4), .number 2] []
      (unnamed .smallerWins) ⟨[]⟩ = .ok (y, m') ∧ y.physical m' = ⟨[], [(4 * (Scale.ten 3).real) ^ (2 : ℝ)]⟩ := by
  intro c
  refine ⟨?_, ?_, ?_⟩
  · have htakes := (powers_take_numbers (f := .power) rfl).1 (q := thousands 4.0) (c := c) (m := .empty)
      (.plain (p := 0.37)) trivial
    have hnone : Fraction.ofNumber? (0.37 : Float) = none := by decide +kernel
    have hratio : (Numeric.ratio (.ten 3) .one : Outcome Float) = .ok 1000.0 := by decide +kernel
    obtain ⟨t, z, m', hcall, hscale⟩ := htakes.dimensionless (by decide +kernel) (by decide +kernel) rfl
      (by rintro ⟨n, hn, -⟩; cases hn) (by rw [hnone]; exact nofun)
      (by rw [hnone]; rintro base hbase -; cases hbase; exact ⟨_, hratio⟩)
    obtain ⟨rfl, -⟩ := hscale hnone
    exact ⟨z, m', hcall⟩
  · have htakes := (powers_take_numbers (f := .power) rfl).1 (q := thousands 4.0) (c := c) (m := .empty)
      (.plain (p := Binary64.nan)) trivial
    exact htakes.nan (by decide)
  · obtain ⟨-, hphysical, hreturns⟩ := (powers_take_numbers (f := .power) rfl).2 (q := thousands 4)
      (c := unnamed .smallerWins) (m := ⟨[]⟩) (.plain (p := 2)) trivial
    have hfit : Fraction.Fits (Fraction.ofNumber? (2 : ℝ)) (.ten 3) := by
      intro r hr b
      obtain ⟨hd, hlimit, htwo⟩ := Fraction.of_ofNumber? hr
      have hpos : (0 : ℤ) < r.denominator := by exact_mod_cast Nat.pos_of_ne_zero hd
      have hdouble : r.numerator = 2 * r.denominator := by
        rw [eq_div_iff (by exact_mod_cast hd)] at htwo
        exact_mod_cast htwo.symm
      have hexponent : 0 ≤ ((Scale.ten 3).get b).val ∧ ((Scale.ten 3).get b).val ≤ 3 := by
        cases b <;> decide
      have hrest := Int.fmod_def ((Scale.ten 3).get b).val r.denominator
      have hlow := Int.fmod_nonneg_of_pos ((Scale.ten 3).get b).val hpos
      have hhigh := Int.fmod_lt_of_pos ((Scale.ten 3).get b).val hpos
      rw [hdouble, mul_assoc]
      generalize (r.denominator : ℤ) * Int.fdiv ((Scale.ten 3).get b).val r.denominator = k at hrest ⊢
      unfold Fraction.largestRoot at hlimit
      unfold InRange exponentLimit
      omega
    obtain ⟨t, z, m', hcall⟩ := hreturns rfl hfit
    exact ⟨_, m', hcall, hphysical hcall⟩

/-- **Not every exponent is taken.** An infinite one is refused for a dimensionless value as it is for a length, and as
too large, which is no value error; what is not a number is no exponent of a dimensionless value either. -/
theorem infinity_not_taken :
    let c : Context Float := ⟨.smallerWins, .empty [] []⟩
    let raise (d : Dimension) (p : Float) := callWith (.each .power) .plain
      [.quantity ⟨.number 4.0, d, .one⟩, .number p] [] c .empty
    raise .one Binary64.infinity = .error .tooLarge ∧ raise .one Binary64.nan = .error (.badValue none) ∧
      raise { length := 1 } Binary64.infinity = .error .tooLarge ∧ ¬ Fault.tooLarge.IsValueError := by
  intro c raise
  have htakes (d : Dimension) (p : Float) : TakesNumber c .empty .power ⟨.number 4.0, d, .one⟩ (.number p) p :=
    takesNumber reduced_float rfl .plain trivial
  refine ⟨(htakes .one _).infinite (by decide) (by decide), (htakes .one _).nan (by decide),
    (htakes { length := 1 } _).infinite (by decide) (by decide), ?_⟩
  rintro (⟨e, he⟩ | ⟨v, hv⟩)
  · cases he
  · cases hv

end Session

end UnitAlgebra

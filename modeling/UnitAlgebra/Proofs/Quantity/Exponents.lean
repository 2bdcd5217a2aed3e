/-
Exponents of powers. An exponent is a single bare number that is a fraction with a small denominator, in lowest terms.
It is read to find the unit of the result and once more to find the scale of the values; memory may have grown in
between, and the exponent is the same.

Results:
- `Operand.numbers_of_toNumber`: an operand that counts as one number shows that number.
- `Quantity.valueIn_again`: values that are taken to a scale once more show the same tensor.
- `exponentOf?_again`: an exponent that is read once more is the same.
- `HasExponent`: the fraction that a power has for exponent, its own or that of its second operand.
-/
import UnitAlgebra.Proofs.Decimal.Fractions
import UnitAlgebra.Proofs.Quantity.Conversion
import UnitAlgebra.Proofs.Quantity.Physical

namespace UnitAlgebra

variable {κ : Type} [Numeric κ]

/-! ## Single numbers -/

namespace Operand

variable {m : Store κ} {x : Operand κ}

theorem rank_eq (hx : x.IsNumeric m) : x.rank m = (x.tensor m).grid.rank := by
  cases x with
  | array v => exact congrArg List.length (Store.shape_read m v).symm
  | flag | integer | number | item => rfl
  | _ => exact hx.elim

/-- An operand that counts as one number shows that number. -/
theorem numbers_of_toNumber (hx : x.IsNumeric m) {z : κ} (h : x.toNumber m = .ok z) :
    (x.tensor m).numbers = ⟨[], [z]⟩ := by
  cases x with
  | flag b =>
    cases h
    rfl
  | number y =>
    cases h
    rfl
  | item c =>
    cases h
    rfl
  | integer n =>
    cases hn : (Numeric.ofInt? n : Option κ) with
    | none =>
      rw [toNumber, Numeric.ofInt, hn] at h
      cases h
    | some y =>
      rw [toNumber, Numeric.ofInt, hn] at h
      cases h
      change Grid.mk [] [(Numeric.ofInt? n : Option κ).getD Numeric.nan] = _
      rw [hn]
      rfl
  | array v =>
    simp only [toNumber] at h
    split at h
    · next c hgrid =>
      cases h
      rw [tensor, Tensor.numbers, hgrid]
      rfl
    · cases h
  | _ => exact hx.elim

end Operand

/-! ## Values taken to a scale -/

namespace Quantity

open Session

variable {q : Quantity (Operand κ)} {s : Scale} {c : Context κ} {m m' n n' : Store κ} {y z : Operand κ}

/-- what a value that is taken to a scale is: itself, or a product of numbers, or an operand that shows the products -/
theorem valueIn_cases (hx : q.value.IsNumeric m) (h : q.valueIn s c m = .ok (y, m')) : y.IsNumeric m' ∧
    (q.scale = s ∧ y = q.value ∧ m' = m ∨ q.scale ≠ s ∧ ∃ r, (Numeric.ratio q.scale s : Outcome κ) = .ok r ∧
      ((∃ a x, plain? q.value = some a ∧ a.toNumber = .ok x ∧ y = .number (Numeric.mul x r)) ∨
        plain? q.value = none ∧ Shows ((q.value.tensor m).times r) y m')) := by
  unfold valueIn convert Scale.steps at h
  split at h
  · next hs =>
    obtain ⟨rfl, rfl⟩ := pure_eq_ok_iff.1 h
    exact ⟨hx, .inl ⟨hs, rfl, rfl⟩⟩
  · next hs =>
    rw [List.foldlM_cons, bind_eq_ok_iff] at h
    obtain ⟨z, m₁, hz, h⟩ := h
    cases h
    unfold step at hz
    obtain ⟨r, _, hr, hz⟩ := bind_eq_ok_iff.1 hz
    obtain ⟨hratio, rfl⟩ := lift_eq_ok_iff.1 hr
    -- plain numbers are multiplied as such
    have hplain : ∀ a, plain? q.value = some a → arithmetic .mul q.value (.number r) c m = .ok (y, m') →
        ∃ x, a.toNumber = .ok x ∧ y = .number (Numeric.mul x r) := by
      intro a ha h
      unfold arithmetic at h
      rw [ha] at h
      have hproduct : plainArithmetic .mul a (.number r) =
          (a.toNumber >>= fun x => .ok (.number (Numeric.mul x r))) := by
        cases a <;> rfl
      obtain ⟨hproduct', -⟩ := lift_eq_ok_iff.1 h
      rw [hproduct, Outcome.bind_eq_ok_iff] at hproduct'
      obtain ⟨x, hx, hy⟩ := hproduct'
      exact ⟨x, hx, (Except.ok.inj hy).symm⟩
    cases hvalue : q.value with
    | array v =>
      rw [hvalue] at hz hx
      obtain ⟨-, hshows⟩ := elementwise₁_times hx rfl hz
      exact ⟨hshows.numeric, .inr ⟨hs, r, hratio, .inr ⟨rfl, hshows⟩⟩⟩
    | item cell =>
      rw [hvalue] at hz hx
      obtain ⟨-, hshows⟩ := elementwise₁_times hx rfl hz
      exact ⟨hshows.numeric, .inr ⟨hs, r, hratio, .inr ⟨rfl, hshows⟩⟩⟩
    | flag b =>
      rw [hvalue] at hz hplain
      obtain ⟨x, hx, rfl⟩ := hplain _ rfl hz
      exact ⟨trivial, .inr ⟨hs, r, hratio, .inl ⟨_, x, rfl, hx, rfl⟩⟩⟩
    | integer k =>
      rw [hvalue] at hz hplain
      obtain ⟨x, hx, rfl⟩ := hplain _ rfl hz
      exact ⟨trivial, .inr ⟨hs, r, hratio, .inl ⟨_, x, rfl, hx, rfl⟩⟩⟩
    | number x =>
      rw [hvalue] at hz hplain
      obtain ⟨x, hx, rfl⟩ := hplain _ rfl hz
      exact ⟨trivial, .inr ⟨hs, r, hratio, .inl ⟨_, x, rfl, hx, rfl⟩⟩⟩
    | _ =>
      rw [hvalue] at hx
      exact hx.elim

/-- Values that are taken to a scale once more, after memory has grown, show the same tensor. -/
theorem valueIn_again (hx : q.value.IsNumeric m) (h : q.valueIn s c m = .ok (y, m')) (hn : m.Grows n)
    (h' : q.valueIn s c n = .ok (z, n')) : z.tensor n' = y.tensor m' := by
  have hstay : q.value.tensor n = q.value.tensor m := Operand.tensor_of_grows hx.live hn
  rcases (valueIn_cases hx h).2 with ⟨hs, rfl, rfl⟩ | ⟨hs, r, hr, hy⟩ <;>
    rcases (valueIn_cases (hx.grows hn) h').2 with ⟨hs', rfl, rfl⟩ | ⟨hs', r', hr', hz⟩
  · exact hstay
  · exact absurd hs hs'
  · exact absurd hs' hs
  · cases hr.symm.trans hr'
    rcases hy with ⟨a, x, ha, hx, rfl⟩ | ⟨ha, hy⟩ <;> rcases hz with ⟨b, w, hb, hw, rfl⟩ | ⟨hb, hz⟩
    · cases ha.symm.trans hb
      cases hx.symm.trans hw
      rfl
    · rw [ha] at hb
      cases hb
    · rw [ha] at hb
      cases hb
    · rw [hy.tensor, hz.tensor, hstay]

end Quantity

/-! ## Reading exponents -/

namespace Session

variable {function function' : String} {p : Participant κ} {c : Context κ} {m m' n n' : Store κ}
  {e e' : Option Fraction}

/-- an exponent is the fraction that one bare number stands for, or none if there are several numbers -/
theorem exponentOf?_eq (h : exponentOf? function p c m = .ok (e, m')) :
    ∃ x, p.quantity.valueIn .one c m = .ok (x, m') ∧ (x.rank m' ≠ 0 ∧ e = none ∨ ∃ z, x.toNumber m' = .ok z ∧
      e = (Numeric.fraction? Fraction.largestRoot z).map fun r => ⟨r.1, r.2⟩) := by
  unfold exponentOf? at h
  split at h
  · obtain ⟨x, m₁, hx, h⟩ := bind_eq_ok_iff.1 h
    change (if x.rank m₁ ≠ 0 then pure none else _ : Session κ (Option Fraction)) c m₁ = .ok (e, m') at h
    split at h
    · next hrank =>
      obtain ⟨rfl, rfl⟩ := pure_eq_ok_iff.1 h
      exact ⟨x, hx, .inl ⟨hrank, rfl⟩⟩
    · obtain ⟨_, _, hget, h⟩ := bind_eq_ok_iff.1 h
      cases hget
      obtain ⟨z, _, hz, h⟩ := bind_eq_ok_iff.1 h
      obtain ⟨hnumber, rfl⟩ := lift_eq_ok_iff.1 hz
      split at h
      · cases h
      split at h
      · cases h
      · obtain ⟨rfl, rfl⟩ := pure_eq_ok_iff.1 h
        exact ⟨x, hx, .inr ⟨z, hnumber, rfl⟩⟩
  · cases h

/-- the exponent that numbers are, by the tensor that they show in the unit one -/
theorem exponentOf?_cases (hp : p.quantity.value.IsNumeric m) (h : exponentOf? function p c m = .ok (e, m')) :
    ∃ x, p.quantity.valueIn .one c m = .ok (x, m') ∧ ((x.tensor m').grid.rank ≠ 0 ∧ e = none ∨
      ∃ z, (x.tensor m').numbers = ⟨[], [z]⟩ ∧
        e = (Numeric.fraction? Fraction.largestRoot z).map fun r => ⟨r.1, r.2⟩) := by
  obtain ⟨x, hx, hcases⟩ := exponentOf?_eq h
  have hnumeric := (Quantity.valueIn_cases hp hx).1
  rw [Operand.rank_eq hnumeric] at hcases
  exact ⟨x, hx, hcases.imp_right fun ⟨z, hz, he⟩ => ⟨z, Operand.numbers_of_toNumber hnumeric hz, he⟩⟩

/-- An exponent that is read once more, after memory has grown, is the same. -/
theorem exponentOf?_again (hp : p.quantity.value.IsNumeric m) (h : exponentOf? function p c m = .ok (e, m'))
    (hn : m.Grows n) (h' : exponentOf? function' p c n = .ok (e', n')) : e' = e := by
  obtain ⟨x, hx, hcases⟩ := exponentOf?_cases hp h
  obtain ⟨y, hy, hcases'⟩ := exponentOf?_cases (hp.grows hn) h'
  have hsame := Quantity.valueIn_again hp hx hn hy
  rw [hsame] at hcases'
  have hrank : ∀ {z : κ}, (x.tensor m').numbers = ⟨[], [z]⟩ → (x.tensor m').grid.rank = 0 :=
    fun hz => congrArg (fun g : Grid κ => g.shape.length) hz
  rcases hcases with ⟨hr, rfl⟩ | ⟨z, hz, rfl⟩ <;> rcases hcases' with ⟨hr', rfl⟩ | ⟨w, hw, rfl⟩
  · rfl
  · exact absurd (hrank hw) hr
  · exact absurd (hrank hz) hr'
  · rw [hz] at hw
    cases hw
    rfl

/-! ## Exponents of powers -/

/-- the fraction that a power has for exponent: its own, or that of its second operand -/
inductive HasExponent (c : Context κ) (m : Store κ) (p : Fraction) : Elementwise → List (Operand κ) → Prop where
  | own {f : Elementwise} (h : (TensorFunction.each f).rule = .fixedPower p) : HasExponent c m p f []
  | read {f : Elementwise} {y : Operand κ} {m' : Store κ} (h : (TensorFunction.each f).rule = .power)
      (hread : exponentOf? f.name (y.participant m) c m = .ok (some p, m')) : HasExponent c m p f [y]

variable {f : Elementwise} {r : Fraction} {ys : List (Operand κ)}

theorem HasExponent.results (h : HasExponent c m r f ys) : f.results = 1 := by
  cases h with
  | own hf => cases f <;> first | rfl | cases hf
  | read hf => cases f <;> first | rfl | cases hf

/-- Exponents are in lowest terms. -/
theorem HasExponent.reduced (hκ : Numeric.Reduced κ) (h : HasExponent c m r f ys) :
    r.denominator ≠ 0 ∧ r.numerator.natAbs.Coprime r.denominator := by
  cases h with
  | own hf =>
    cases f with
    | real g => cases g <;> first | (cases hf; done) | (cases hf; decide)
    | _ => first | (cases hf; done) | (cases hf; decide)
  | read _ hread =>
    obtain ⟨x, -, ⟨-, hnone⟩ | ⟨z, -, hz⟩⟩ := exponentOf?_eq hread
    · cases hnone
    · obtain ⟨⟨n, d⟩, hfraction, rfl⟩ := Option.map_eq_some_iff.1 hz.symm
      exact hκ hfraction

end Session

end UnitAlgebra

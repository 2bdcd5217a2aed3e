/-
Runs of the digits 0 to 9 and what they are worth. A natural is read back from its decimal digits; zeros in front change
nothing, and zeros at the end are powers of ten.

Results:
- `digitsValue_toDigits`: a natural is read back from its digits.
- `digitsValue_append`: the value of two runs one after the other.
-/
import Mathlib
import UnitAlgebra.Exponent
import UnitAlgebra.Text.CharClass

namespace UnitAlgebra.Text

theorem digit?_of_isDigit {c : Char} (h : c.isDigit = true) : digit? c = some (c.toNat - '0'.toNat) := by
  have all : ∀ k < 10, digit? (Char.ofNat (k + 48)) = some k := by decide +kernel
  simp only [Char.isDigit, Bool.and_eq_true, decide_eq_true_eq, UInt32.le_iff_toNat_le] at h
  have hc : c.toNat - 48 < 10 := by
    have : c.toNat ≤ 57 := h.2
    omega
  have hk := all _ hc
  rw [Nat.sub_add_cancel (show 48 ≤ c.toNat from h.1), Char.ofNat_toNat] at hk
  exact hk

theorem ne_of_isDigit {c d : Char} (hc : c.isDigit = true) (hd : d.isDigit = false) : c ≠ d := by
  rintro rfl
  exact Bool.false_ne_true (hd.symm.trans hc)

theorem isDecimal_of_isDigit {c : Char} (h : c.isDigit = true) : isDecimal c = true := by
  rw [isDecimal, digit?_of_isDigit h]
  rfl

theorem isDecimal_of_mem_toDigits {n : Nat} {c : Char} (h : c ∈ Nat.toDigits 10 n) : isDecimal c = true :=
  isDecimal_of_isDigit (Exponent.isDigit_of_mem_toDigits h)

/-- A natural is read back from its digits. -/
theorem digitsValue_toDigits (n : Nat) : digitsValue (Nat.toDigits 10 n) = n := by
  have hfold : ∀ (cs : List Char) (init : Nat), (∀ c ∈ cs, c.isDigit = true) →
      cs.foldl (fun k c => 10 * k + (digit? c).getD 0) init = Nat.ofDigitChars 10 cs init := by
    intro cs
    induction cs with
    | nil => intro init _; rfl
    | cons c cs ih =>
      intro init h
      rw [List.foldl_cons, digit?_of_isDigit (h c List.mem_cons_self), Nat.ofDigitChars_cons]
      exact ih _ fun d hd => h d (List.mem_cons_of_mem c hd)
  rw [digitsValue, hfold _ _ fun c hc => Exponent.isDigit_of_mem_toDigits hc]
  exact Nat.ofDigitChars_ten_toDigits

theorem head?_toDigits {n : Nat} (h : n ≠ 0) : (Nat.toDigits 10 n).head? ≠ some '0' := by
  induction n using Nat.strongRecOn with
  | _ n ih =>
    by_cases hn : n < 10
    · have hdigit : ∀ k < 10, k ≠ 0 → Nat.digitChar k ≠ '0' := by decide
      rw [Nat.toDigits_of_lt_base hn]
      exact fun heq => hdigit n hn h (Option.some.inj heq)
    · rw [Nat.toDigits_of_base_le (by decide) (Nat.not_lt.1 hn), List.head?_append_of_ne_nil _ Nat.toDigits_ne_nil]
      exact ih (n / 10) (by omega) (by omega)

/-- The value of two runs one after the other. -/
theorem digitsValue_append (as bs : List Char) :
    digitsValue (as ++ bs) = digitsValue as * 10 ^ bs.length + digitsValue bs := by
  have hfold : ∀ (cs : List Char) (init : Nat), cs.foldl (fun k c => 10 * k + (digit? c).getD 0) init =
      init * 10 ^ cs.length + digitsValue cs := by
    intro cs
    induction cs with
    | nil => intro init; exact (Nat.mul_one init).symm
    | cons c cs ih =>
      intro init
      rw [digitsValue, List.foldl_cons, List.foldl_cons, ih, ih, List.length_cons, Nat.pow_succ]
      ring
  rw [digitsValue, List.foldl_append]
  exact hfold bs _

theorem digitsValue_replicate_zero (k : Nat) : digitsValue (List.replicate k '0') = 0 := by
  induction k with
  | zero => rfl
  | succ k ih =>
    rw [List.replicate_succ', digitsValue_append, ih]
    decide

/-- zeros in front change nothing -/
theorem digitsValue_zeros_append (k : Nat) (cs : List Char) :
    digitsValue (List.replicate k '0' ++ cs) = digitsValue cs := by
  rw [digitsValue_append, digitsValue_replicate_zero, Nat.zero_mul, Nat.zero_add]

/-- zeros at the end are powers of ten -/
theorem digitsValue_append_zeros (cs : List Char) (k : Nat) :
    digitsValue (cs ++ List.replicate k '0') = digitsValue cs * 10 ^ k := by
  rw [digitsValue_append, digitsValue_replicate_zero, Nat.add_zero, List.length_replicate]

end UnitAlgebra.Text

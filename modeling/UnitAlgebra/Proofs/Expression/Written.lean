/-
Texts that are put together from texts: integers in decimal, parentheses, marks. What is written so is read back as it
was put together.

Results:
- `decimalLiteral`: an integer in decimal is a literal with the integer as its value.
- `reads_group`: a text in parentheses is read as a group.
- `parse_of_derivation`: a text that is read as the leaves of a derivation is parsed to its tree.
- `exists_derivation`: a text that is parsed has a derivation.
-/
import Mathlib
import UnitAlgebra.Proofs.Expression.Grammar
import UnitAlgebra.Proofs.Text.Digits

namespace UnitAlgebra.Expression

open Text

/-! ## Integers in decimal -/

/-- the literal of an integer in decimal -/
def decimalLiteral (n : Int) : Literal where
  sign := if n < 0 then some '-' else none
  digits := Nat.toDigits 10 n.natAbs
  signs := by
    intro c hc
    split at hc
    · cases hc
      rfl
    · cases hc
  nonempty := Nat.toDigits_ne_nil
  decimal := fun _ hc => isDecimal_of_mem_toDigits hc

theorem chars_decimalLiteral (n : Int) : (decimalLiteral n).chars = Exponent.decimalDigits n := by
  unfold Literal.chars decimalLiteral Exponent.decimalDigits
  by_cases h : n < 0
  · simp [h]
  · simp [h]

/-- An integer is read back from its decimal form. -/
theorem value_decimalLiteral (n : Int) : (decimalLiteral n).numeral.value = n := by
  unfold Literal.numeral decimalLiteral
  by_cases h : n < 0
  · simp only [h, if_true, Numeral.value, digitsValue_toDigits]
    omega
  · simp only [h, if_false, Numeral.value, digitsValue_toDigits]
    omega

theorem numeral_decimalLiteral_of_nonneg (n : Nat) :
    (decimalLiteral n).numeral = .unsigned n (Nat.toDigits 10 n).length := by
  unfold Literal.numeral decimalLiteral
  have h : ¬ (n : Int) < 0 := by omega
  simp only [h, if_false, Int.natAbs_natCast, digitsValue_toDigits]

theorem digits_decimalLiteral_le {n : Int} {k : Nat} (hk : 0 < k) (h : n.natAbs < 10 ^ k) :
    (decimalLiteral n).numeral.digits ≤ k := by
  rw [Literal.digits_numeral]
  exact (Nat.length_toDigits_le_iff (by decide) hk).2 h

theorem reads_decimal (n : Int) : Reads (Exponent.decimalDigits n) [(decimalLiteral n).terminal] := by
  rw [← chars_decimalLiteral, ← List.append_nil (decimalLiteral n).chars]
  exact .cons (.literal _ (stopsAt_nil _)) .nil

/-! ## Groups -/

theorem reads_group {cs : List Char} {ts : List Terminal} (h : Reads cs ts) :
    Reads ('(' :: cs ++ [')']) (.opening :: ts ++ [.closing]) := by
  have hclose : Reads [')'] [.closing] := .mark rfl .nil
  exact .mark rfl (h.append hclose (apart_mark (t := .closing) rfl []))

/-- a list that begins with a character and ends with one, neither of them a blank -/
theorem trim_between {first last : Char} {cs : List Char} (hf : isBlank first = false) (hl : isBlank last = false) :
    trim (first :: cs ++ [last]) = first :: cs ++ [last] := by
  refine trim_of_head_of_last (stopsAt_cons.2 hf) ?_
  rw [List.reverse_append]
  exact stopsAt_cons.2 hl

/-! ## Derivations of texts -/

theorem parse_of_derivation {text : String} {d : Derivation .expr} (h : Reads (trim text.toList) d.leaves)
    (hs : ∀ t ∈ d.leaves, t.Short) : parse text = .ok d.tree := parse_eq_ok_iff.2 ⟨d, h, hs, rfl⟩

theorem exists_derivation {text : String} {n : UnitExpr} (h : parse text = .ok n) :
    ∃ d : Derivation .expr, Reads text.toList d.leaves ∧ (∀ t ∈ d.leaves, t.Short) ∧ d.tree = n := by
  obtain ⟨d, hreads, hshort, htree⟩ := parse_eq_ok_iff.1 h
  exact ⟨d, hreads.of_trim, hshort, htree⟩

theorem short_of_ne_integer {t : Terminal} (h : ∀ n, t ≠ .integer n) : t.Short := fun n hn => absurd hn (h n)

end UnitAlgebra.Expression

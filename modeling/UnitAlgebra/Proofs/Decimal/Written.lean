/-
The written form of a number is read back as the number. It is put together from the digits before the point, those
after it and a power of ten; what is read is the number nearest to the quotient that these stand for, which is the
quotient that the fewest digits of the number stand for.

Results:
- `text_eq_chars`: digits are written as the parts of a decimal.
- `value_parted`: the parts stand for the quotient that the digits stand for.
- `splitNumber_text`: a number is read back from its text, also where more follows.
-/
import Mathlib
import UnitAlgebra.Decimal.Reader
import UnitAlgebra.Proofs.Decimal.Shortest
import UnitAlgebra.Proofs.Text.Classes
import UnitAlgebra.Proofs.Text.Digits

namespace UnitAlgebra.Decimal

open Text (digitsValue isDecimal StopsAt)

/-! ## Decimals in parts -/

/-- digits before and after the point, and a power of ten if one is written -/
structure Parted where
  whole : List Char
  fraction : List Char
  power : Option Int

namespace Parted

/-- a power of ten as it is written behind digits -/
def powerText : Option Int → List Char
  | none => []
  | some e => 'e' :: exponentText e

/-- the written form -/
def chars (p : Parted) : List Char :=
  p.whole ++ ((if p.fraction.isEmpty then [] else '.' :: p.fraction) ++ powerText p.power)

/-- the digits as one natural -/
def digits (p : Parted) : Nat := digitsValue (p.whole ++ p.fraction)

/-- the power of ten that belongs to that natural -/
def exponent (p : Parted) : Int := p.power.getD 0 - p.fraction.length

/-- digits with no zeros in front -/
structure IsPlain (p : Parted) : Prop where
  digit : ∀ c ∈ p.whole ++ p.fraction, c.isDigit = true
  whole_ne_nil : p.whole ≠ []
  leading : p.whole = ['0'] ∨ p.whole.head? ≠ some '0'

/-- a decimal with neither fraction nor power of ten -/
def isWhole (p : Parted) : Bool := p.fraction.isEmpty && p.power.isNone

end Parted

/-! ## Digits in parts -/

/-- digits of a magnitude: none of them is a zero in front, but for the one digit of zero itself -/
structure Digits.IsProper (d : Digits) : Prop where
  digit : ∀ c ∈ d.digits, c.isDigit = true
  ne_nil : d.digits ≠ []
  leading : d = ⟨['0'], 1⟩ ∨ d.digits.head? ≠ some '0'

/-- the parts in which digits are written -/
def Digits.parted (style : NumberStyle) (d : Digits) : Parted :=
  if style.lowest < d.point ∧ d.point ≤ style.highest then
    ⟨d.positional.1, if d.positional.2.isEmpty then ['0'] else d.positional.2, none⟩
  else ⟨d.digits.take 1, d.digits.drop 1, some (d.point - 1)⟩

/-- Digits are written as the parts of a decimal. -/
theorem text_eq_chars (style : NumberStyle) (d : Digits) : d.text style = (d.parted style).chars := by
  unfold Digits.text Digits.parted
  split
  · simp only [Parted.chars, Parted.powerText, List.append_nil]
    split <;> rfl
  · simp [Parted.chars, Parted.powerText]

theorem positional_of_nonpos {d : Digits} (h : d.point ≤ 0) :
    d.positional = (['0'], List.replicate (-d.point).toNat '0' ++ d.digits) := if_pos h

theorem positional_of_pos {d : Digits} (h : ¬d.point ≤ 0) :
    d.positional = (d.digits.take d.point.toNat ++ List.replicate (d.point.toNat - d.digits.length) '0',
      d.digits.drop d.point.toNat) := if_neg h

theorem isDigit_of_mem_zeros {k : Nat} {c : Char} (h : c ∈ List.replicate k '0') : c.isDigit = true := by
  rw [List.eq_of_mem_replicate h]
  rfl

theorem isWhole_parted (style : NumberStyle) (d : Digits) : (d.parted style).isWhole = false := by
  unfold Digits.parted
  split
  · have hfraction : (if d.positional.2.isEmpty then ['0'] else d.positional.2).isEmpty = false := by
      split
      · rfl
      · next h => exact Bool.eq_false_iff.2 h
    rw [Parted.isWhole, hfraction]
    rfl
  · exact Bool.and_false _

/-- Proper digits are written with no zeros in front. -/
theorem isPlain_parted {d : Digits} (h : d.IsProper) : (d.parted .plain).IsPlain := by
  have htake {n : Nat} (hn : n ≠ 0) : d.digits.take n ≠ [] := by
    rw [ne_eq, List.take_eq_nil_iff, not_or]
    exact ⟨hn, h.ne_nil⟩
  have hhead {n : Nat} (hn : n ≠ 0) (cs : List Char) : (d.digits.take n ++ cs).head? = d.digits.head? := by
    rw [List.head?_append_of_ne_nil _ (htake hn), List.head?_take, if_neg hn]
  unfold Digits.parted
  split
  · next hrange =>
    have hfraction {c : Char} (hc : c ∈ if d.positional.2.isEmpty then ['0'] else d.positional.2) :
        c = '0' ∨ c ∈ d.positional.2 := by
      split at hc
      · exact .inl (List.mem_singleton.1 hc)
      · exact .inr hc
    by_cases hpoint : d.point ≤ 0
    · rw [positional_of_nonpos hpoint] at hfraction ⊢
      refine ⟨fun c hc => ?_, List.cons_ne_nil _ _, .inl rfl⟩
      rcases List.mem_append.1 hc with hc | hc
      · rw [List.mem_singleton.1 hc]
        rfl
      · rcases hfraction hc with rfl | hc
        · rfl
        · exact (List.mem_append.1 hc).elim isDigit_of_mem_zeros (h.digit c)
    · have hn : d.point.toNat ≠ 0 := by omega
      rw [positional_of_pos hpoint] at hfraction ⊢
      refine ⟨fun c hc => ?_, List.append_ne_nil_of_left_ne_nil (htake hn) _, ?_⟩
      · rcases List.mem_append.1 hc with hc | hc
        · exact (List.mem_append.1 hc).elim (fun hc => h.digit c (List.mem_of_mem_take hc)) isDigit_of_mem_zeros
        · rcases hfraction hc with rfl | hc
          · rfl
          · exact h.digit c (List.mem_of_mem_drop hc)
      · rcases h.leading with rfl | hleading
        · exact .inl rfl
        · exact .inr (by rwa [hhead hn])
  · next hrange =>
    have hone := hhead one_ne_zero []
    rw [List.append_nil] at hone
    refine ⟨fun c hc => ?_, htake one_ne_zero, .inr ?_⟩
    · rw [List.take_append_drop] at hc
      exact h.digit c hc
    · rcases h.leading with rfl | hleading
      · exact absurd (by decide) hrange
      · rwa [hone]

/-- The parts stand for the quotient that the digits stand for. -/
theorem value_parted (style : NumberStyle) {d : Digits} (hne : d.digits ≠ []) :
    ((d.parted style).digits * 10 ^ (d.parted style).exponent : ℚ) =
      digitsValue d.digits * 10 ^ (d.point - d.digits.length) := by
  have hlength : 0 < d.digits.length := List.length_pos_of_ne_nil hne
  unfold Digits.parted
  split
  · by_cases hpoint : d.point ≤ 0
    · have hfraction : (List.replicate (-d.point).toNat '0' ++ d.digits).isEmpty = false := by
        simp [hne]
      have hdigits : digitsValue (['0'] ++ (List.replicate (-d.point).toNat '0' ++ d.digits)) =
          digitsValue d.digits := by
        rw [show ['0'] = List.replicate 1 '0' from rfl, Text.digitsValue_zeros_append, Text.digitsValue_zeros_append]
      simp only [positional_of_nonpos hpoint, hfraction, Parted.digits, Parted.exponent, Bool.false_eq_true, if_false,
        hdigits, List.length_append, List.length_replicate, Option.getD_none]
      congr 2
      omega
    · by_cases hlong : d.digits.length ≤ d.point.toNat
      · -- zeros fill up to the point, and one stands behind it
        have hzero : ['0'] = List.replicate 1 '0' := rfl
        have hdigits : digitsValue (d.digits ++ List.replicate (d.point.toNat - d.digits.length) '0' ++ ['0']) =
            digitsValue d.digits * 10 ^ (d.point.toNat - d.digits.length + 1) := by
          rw [hzero, List.append_assoc, List.replicate_append_replicate, Text.digitsValue_append_zeros]
        have hexponent : d.point - d.digits.length = (d.point.toNat - d.digits.length + 1 : ℕ) + (-1 : ℤ) := by omega
        simp only [positional_of_pos hpoint, Parted.digits, Parted.exponent, List.take_of_length_le hlong,
          List.drop_of_length_le hlong, List.isEmpty_nil, if_true, hdigits, List.length_singleton, Option.getD_none]
        rw [hexponent, zpow_add₀ (by norm_num), zpow_natCast, Nat.cast_mul, Nat.cast_pow]
        push_cast
        ring
      · have hnone : d.point.toNat - d.digits.length = 0 := by omega
        have hfraction : (d.digits.drop d.point.toNat).isEmpty = false := by
          rw [← Bool.not_eq_true, List.isEmpty_iff, List.drop_eq_nil_iff]
          exact hlong
        simp only [positional_of_pos hpoint, Parted.digits, Parted.exponent, hnone, List.replicate_zero,
          List.append_nil, hfraction, Bool.false_eq_true, if_false, List.take_append_drop, List.length_drop,
          Option.getD_none]
        congr 2
        omega
  · have hdigits : d.digits.take 1 ++ d.digits.drop 1 = d.digits := List.take_append_drop 1 _
    simp only [Parted.digits, Parted.exponent, hdigits, List.length_drop, Option.getD_some]
    congr 2
    omega

/-! ## The fewest digits -/

theorem exists_stripped {d : Digits} (hdigit : ∀ c ∈ d.digits, c.isDigit = true) (hne : d.digits ≠ [])
    (hhead : d.digits.head? ≠ some '0') :
    d.stripped.IsProper ∧ d.stripped.point = d.point ∧ ∃ k, d.digits = d.stripped.digits ++ List.replicate k '0' := by
  obtain ⟨kept, hkept⟩ : ∃ kept, (d.digits.reverse.dropWhile (· = '0')).reverse = kept := ⟨_, rfl⟩
  obtain ⟨k, hzeros⟩ : ∃ k, d.digits.reverse.takeWhile (· = '0') = List.replicate k '0' :=
    ⟨_, List.eq_replicate_of_mem fun c hc => by simpa using List.mem_takeWhile_imp hc⟩
  have hdigits : d.digits = kept ++ List.replicate k '0' := by
    rw [← hkept, ← List.reverse_replicate, ← hzeros, ← List.reverse_append, List.takeWhile_append_dropWhile,
      List.reverse_reverse]
  have hsome : kept ≠ [] := by
    rintro rfl
    rw [List.nil_append] at hdigits
    cases k with
    | zero => exact hne hdigits
    | succ k => exact hhead (by rw [hdigits]; rfl)
  have hstripped : d.stripped = ⟨kept, d.point⟩ := by
    rw [Digits.stripped, hkept]
    cases kept with
    | nil => exact absurd rfl hsome
    | cons c kept => rfl
  rw [hdigits, List.head?_append_of_ne_nil _ hsome] at hhead
  rw [hstripped]
  refine ⟨⟨fun c hc => hdigit c ?_, hsome, .inr hhead⟩, rfl, k, hdigits⟩
  rw [hdigits]
  exact List.mem_append_left _ hc

theorem toFloat_zero (e : Int) : toFloat 0 e = Float.ofBits 0 := by
  simp only [toFloat, true_or, if_true]

theorem stripped_ofNat {d : Nat} (hd : d ≠ 0) (e : Int) : (Digits.ofNat d e).stripped.IsProper ∧
    toFloat (digitsValue (Digits.ofNat d e).stripped.digits)
      ((Digits.ofNat d e).stripped.point - (Digits.ofNat d e).stripped.digits.length) = toFloat d e := by
  have hofNat : Digits.ofNat d e = ⟨Nat.toDigits 10 d, (Nat.toDigits 10 d).length + e⟩ := by
    rw [Digits.ofNat, if_neg hd]
  obtain ⟨hproper, hpoint, k, hdigits⟩ := exists_stripped (d := Digits.ofNat d e)
    (by rw [hofNat]; exact fun c => Exponent.isDigit_of_mem_toDigits) (by rw [hofNat]; exact Nat.toDigits_ne_nil)
    (by rw [hofNat]; exact Text.head?_toDigits hd)
  refine ⟨hproper, ?_⟩
  rw [hpoint]
  generalize (Digits.ofNat d e).stripped.digits = kept at hdigits ⊢
  rw [hofNat] at hdigits ⊢
  simp only at hdigits ⊢
  have hvalue : d = digitsValue kept * 10 ^ k := by
    rw [← Text.digitsValue_append_zeros, ← hdigits, Text.digitsValue_toDigits]
  have hexponent : ((Nat.toDigits 10 d).length : ℤ) + e - kept.length = k + e := by
    rw [hdigits, List.length_append, List.length_replicate]
    push_cast
    ring
  refine toFloat_congr ?_
  rw [hexponent, zpow_add₀ (by norm_num), zpow_natCast]
  conv_rhs => rw [hvalue]
  push_cast
  ring

/-- a magnitude that is not zero has a digit that is not zero -/
theorem shortestDigits_ne_zero {p : Binary64.Parts} (hp : p.IsProper) (hm : p.mantissa ≠ 0) :
    (shortestDigits p.quotient.1 p.quotient.2).1 ≠ 0 := by
  intro hd
  have hreads := toFloat_shortestDigits hp hm
  rw [hd, toFloat_zero] at hreads
  have hbits := Binary64.toBits_ofBits hp.finite.le
  have hzero : (Float.ofBits (0 : ℕ).toUInt64).toBits.toNat = 0 := Binary64.toBits_ofBits (Nat.zero_le _)
  rw [← hreads] at hbits
  have hnone : (p.power + 1074).toNat * 2 ^ 52 + p.mantissa = 0 := hbits.symm.trans hzero
  omega

/-- **The fewest digits** of a finite number are proper, and read as its magnitude. -/
theorem shortest_spec {x : Float} (hnan : x.isNaN = false) (hinf : x.isInf = false) : (shortest x).IsProper ∧
    toFloat (digitsValue (shortest x).digits) ((shortest x).point - (shortest x).digits.length) =
      Float.ofBits (Binary64.magnitude x).toUInt64 := by
  have hp := Binary64.isProper_parts hnan hinf
  have hquotient : (Binary64.quotient x).1 = 0 ↔ (Binary64.parts x).mantissa = 0 := quotient_eq_zero_iff _
  rw [(Binary64.magnitude_parts x).2]
  by_cases hm : (Binary64.parts x).mantissa = 0
  · have hlowest : (Binary64.parts x).power = -1074 := by
      have := hp.normal
      omega
    have hzero : shortest x = ⟨['0'], 1⟩ := by
      simp only [shortest, hquotient.2 hm, if_true]
    have hnothing : digitsValue ['0'] = 0 := Text.digitsValue_replicate_zero 1
    rw [hzero, hm, hlowest, hnothing, toFloat_zero]
    exact ⟨⟨fun c => isDigit_of_mem_zeros (k := 1), List.cons_ne_nil _ _, .inl rfl⟩, rfl⟩
  · have hshortest : shortest x = (Digits.ofNat (shortestDigits (Binary64.quotient x).1 (Binary64.quotient x).2).1
        (shortestDigits (Binary64.quotient x).1 (Binary64.quotient x).2).2).stripped := by
      simp only [shortest, mt hquotient.1 hm, if_false]
    obtain ⟨hproper, hreads⟩ := stripped_ofNat (shortestDigits_ne_zero hp hm)
      (shortestDigits (Binary64.quotient x).1 (Binary64.quotient x).2).2
    rw [hshortest]
    exact ⟨hproper, hreads.trans (toFloat_shortestDigits hp hm)⟩

/-! ## Reading the parts -/

/-- what may stand behind a number: nothing that could belong to it -/
def EndsNumber (rest : List Char) : Prop := ∀ c ∈ rest.head?, isDecimal c = false ∧ c ≠ '.' ∧ c ≠ 'e' ∧ c ≠ 'E'

theorem endsNumber_cons {c : Char} (rest : List Char) (h : isDecimal c = false ∧ c ≠ '.' ∧ c ≠ 'e' ∧ c ≠ 'E') :
    EndsNumber (c :: rest) := by
  rintro _ ⟨⟩
  exact h

theorem EndsNumber.stopsAt {rest : List Char} (h : EndsNumber rest) : StopsAt isDecimal rest :=
  fun c hc => (h c hc).1

theorem splitDigits_run {ds rest : List Char} (hds : ∀ c ∈ ds, c.isDigit = true) (hrest : StopsAt isDecimal rest) :
    splitDigits (ds ++ rest) = (ds, rest) := by
  have hdecimal : ∀ c ∈ ds, isDecimal c = true := fun c hc => Text.isDecimal_of_isDigit (hds c hc)
  rw [splitDigits, Text.takeWhile_run hdecimal hrest, Text.dropWhile_run hdecimal hrest]

theorem exists_exponentText (e : Int) : ∃ ds, exponentText e = (if e < 0 then '-' else '+') :: ds ∧
    (∀ c ∈ ds, c.isDigit = true) ∧ ds ≠ [] ∧ digitsValue ds = e.natAbs := by
  have hdigit : ∀ c ∈ Nat.toDigits 10 e.natAbs, c.isDigit = true := fun c => Exponent.isDigit_of_mem_toDigits
  refine ⟨_, rfl, ?_⟩
  split
  · refine ⟨fun c hc => ?_, List.cons_ne_nil _ _, ?_⟩
    · rcases List.mem_cons.1 hc with rfl | hc
      · rfl
      · exact hdigit c hc
    · exact (Text.digitsValue_zeros_append 1 _).trans (Text.digitsValue_toDigits _)
  · exact ⟨hdigit, Nat.toDigits_ne_nil, Text.digitsValue_toDigits _⟩

theorem splitExponent_powerText (power : Option Int) {rest : List Char} (h : EndsNumber rest) :
    splitExponent (Parted.powerText power ++ rest) = (power.getD 0, rest) := by
  cases power with
  | none =>
    cases rest with
    | nil => rfl
    | cons c rest =>
      obtain ⟨-, -, he, hE⟩ := h c rfl
      simp [Parted.powerText, splitExponent, he, hE]
  | some e =>
    obtain ⟨ds, htext, hdigit, hne, hvalue⟩ := exists_exponentText e
    have hrun := splitDigits_run hdigit h.stopsAt
    have hempty : ds.isEmpty = false := by simp [hne]
    by_cases he : e < 0
    · have hsign : splitSign ('-' :: (ds ++ rest)) = (true, ds ++ rest) := rfl
      simp only [Parted.powerText, htext, he, if_true, List.cons_append, splitExponent, true_or, hsign, hrun, hempty,
        Bool.false_eq_true, if_false, hvalue, Option.getD_some]
      congr 1
      omega
    · have hsign : splitSign ('+' :: (ds ++ rest)) = (false, ds ++ rest) := rfl
      simp only [Parted.powerText, htext, he, if_true, List.cons_append, splitExponent, true_or, hsign, hrun, hempty,
        Bool.false_eq_true, if_false, hvalue, Option.getD_some]
      congr 1
      omega

/-- The parts of a decimal are read as they are written. -/
theorem splitDecimal_chars (negative : Bool) {p : Parted} (hp : p.IsPlain) {rest : List Char} (h : EndsNumber rest) :
    splitDecimal negative (p.chars ++ rest) = some (.finite negative p.digits p.exponent, rest) := by
  obtain ⟨whole, fraction, power⟩ := p
  obtain ⟨hdigit, hwhole, -⟩ := hp
  simp only at hdigit hwhole
  have hw : ∀ c ∈ whole, c.isDigit = true := fun c hc => hdigit c (List.mem_append_left _ hc)
  have hf : ∀ c ∈ fraction, c.isDigit = true := fun c hc => hdigit c (List.mem_append_right _ hc)
  have hempty : whole.isEmpty = false := by simp [hwhole]
  have hpower : StopsAt isDecimal (Parted.powerText power ++ rest) := by
    cases power with
    | none => exact h.stopsAt
    | some e => exact Text.stopsAt_cons.2 (by decide)
  have hexponent := splitExponent_powerText power h
  cases fraction with
  | nil =>
    have hpoint : ∀ after, Parted.powerText power ++ rest ≠ '.' :: after := by
      intro after heq
      cases power with
      | none =>
        have hhead : '.' ∈ rest.head? := by
          rw [show rest = '.' :: after from heq]
          rfl
        exact (h _ hhead).2.1 rfl
      | some e => exact absurd (List.cons.inj heq).1 (by decide)
    have hrun := splitDigits_run hw hpower
    simp only [Parted.chars, List.isEmpty_nil, if_true, List.nil_append, List.append_assoc]
    unfold splitDecimal
    rw [hrun]
    simp only [hempty, Bool.false_and, Bool.false_eq_true, if_false]
    rw [hexponent]
    rfl
  | cons c fraction =>
    have hrun : splitDigits (whole ++ '.' :: c :: (fraction ++ (Parted.powerText power ++ rest))) =
        (whole, '.' :: c :: (fraction ++ (Parted.powerText power ++ rest))) :=
      splitDigits_run hw (Text.stopsAt_cons.2 (by decide))
    have hbehind : splitDigits (c :: (fraction ++ (Parted.powerText power ++ rest))) =
        (c :: fraction, Parted.powerText power ++ rest) := splitDigits_run hf hpower
    simp only [Parted.chars, List.isEmpty_cons, Bool.false_eq_true, if_false, List.append_assoc, List.cons_append]
    unfold splitDecimal
    rw [hrun]
    simp only [hempty, Bool.false_and, Bool.false_eq_true, if_false, hbehind]
    rw [hexponent]
    rfl

/-! ## Texts of numbers -/

/-- a finite number is written as a sign, if it is negative, and a decimal that reads as its magnitude -/
theorem exists_parted {x : Float} (hnan : x.isNaN = false) (hinf : x.isInf = false) : ∃ p : Parted, p.IsPlain ∧
    p.isWhole = false ∧ (text x).toList = (if Binary64.isNegative x then ['-'] else []) ++ p.chars ∧
    (if Binary64.isNegative x then -toFloat p.digits p.exponent else toFloat p.digits p.exponent) = x := by
  obtain ⟨hproper, hreads⟩ := shortest_spec hnan hinf
  have hvalue := value_parted .plain hproper.ne_nil
  refine ⟨(shortest x).parted .plain, isPlain_parted hproper, isWhole_parted _ _, ?_, ?_⟩
  · simp only [text, hnan, hinf, Bool.false_eq_true, if_false, String.toList_append, String.toList_ofList,
      text_eq_chars]
    split <;> rfl
  · rw [toFloat_congr hvalue, hreads]
    exact Binary64.ofBits_magnitude hnan

theorem Parted.IsPlain.exists_head {p : Parted} (h : p.IsPlain) :
    ∃ c rest, p.chars = c :: rest ∧ c.isDigit = true := by
  obtain ⟨c, rest, hwhole⟩ := List.exists_cons_of_ne_nil h.whole_ne_nil
  refine ⟨c, _, by rw [Parted.chars, hwhole, List.cons_append], h.digit c (List.mem_append_left _ ?_)⟩
  rw [hwhole]
  exact List.mem_cons_self

theorem splitSign_digit {c : Char} (h : c.isDigit = true) (cs : List Char) :
    splitSign (c :: cs) = (false, c :: cs) := by
  unfold splitSign
  split
  · next heq => exact absurd (List.cons.inj heq).1 (Text.ne_of_isDigit h rfl)
  · next heq => exact absurd (List.cons.inj heq).1 (Text.ne_of_isDigit h rfl)
  · rfl

theorem splitSign_chars (negative : Bool) {p : Parted} (h : p.IsPlain) (rest : List Char) :
    splitSign ((if negative then ['-'] else []) ++ (p.chars ++ rest)) = (negative, p.chars ++ rest) := by
  obtain ⟨c, cs, hchars, hdigit⟩ := h.exists_head
  rw [hchars]
  cases negative with
  | true => rfl
  | false => exact splitSign_digit hdigit _

theorem stopsAt_text (x : Float) (rest : List Char) : StopsAt Text.isBlank ((text x).toList ++ rest) := by
  by_cases hnan : x.isNaN = true
  · rw [text, if_pos hnan]
    exact Text.stopsAt_cons.2 (by decide)
  · rw [Bool.not_eq_true] at hnan
    by_cases hinf : x.isInf = true
    · simp only [text, hnan, hinf, Bool.false_eq_true, if_false, if_true]
      cases Binary64.isNegative x <;> exact Text.stopsAt_cons.2 (by decide)
    · rw [Bool.not_eq_true] at hinf
      obtain ⟨p, hplain, -, htext, -⟩ := exists_parted hnan hinf
      obtain ⟨c, cs, hchars, hdigit⟩ := hplain.exists_head
      rw [htext, hchars]
      cases Binary64.isNegative x with
      | true => exact Text.stopsAt_cons.2 (by decide)
      | false => exact Text.stopsAt_cons.2 (Text.isBlank_of_isDecimal (Text.isDecimal_of_isDigit hdigit))

/-- **A number is read back from its text**, also where a blank and more follow. -/
theorem splitNumber_text (x : Float) (rest : List Char) :
    ∃ n, splitNumber ((text x).toList ++ ' ' :: rest) = some (n, ' ' :: rest) ∧
      n.value = (.ok x : Outcome Float) := by
  by_cases hnan : x.isNaN = true
  · refine ⟨.notANumber, ?_, ?_⟩
    · rw [text, if_pos hnan]
      rfl
    · rw [Binary64.eq_nan hnan]
      rfl
  · rw [Bool.not_eq_true] at hnan
    by_cases hinf : x.isInf = true
    · have hvalue := Binary64.eq_infinity hnan hinf
      simp only [text, hnan, hinf, Bool.false_eq_true, if_false, if_true, String.toList_append]
      cases hneg : Binary64.isNegative x with
      | true =>
        rw [hneg] at hvalue
        exact ⟨.infinity true, rfl, by rw [hvalue]; rfl⟩
      | false =>
        rw [hneg] at hvalue
        exact ⟨.infinity false, rfl, by rw [hvalue]; rfl⟩
    · rw [Bool.not_eq_true] at hinf
      obtain ⟨p, hplain, -, htext, hvalue⟩ := exists_parted hnan hinf
      have hends : EndsNumber (' ' :: rest) := endsNumber_cons rest (by decide)
      refine ⟨.finite (Binary64.isNegative x) p.digits p.exponent, ?_, ?_⟩
      · rw [htext, List.append_assoc]
        simp only [splitNumber, splitSign_chars _ hplain, splitDecimal_chars _ hplain hends]
        rfl
      · conv_rhs => rw [← hvalue]
        rfl

end UnitAlgebra.Decimal

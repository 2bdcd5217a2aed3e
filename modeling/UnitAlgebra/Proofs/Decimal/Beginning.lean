/-
Numbers at the beginning of a text. A number is digits with a point and a power of ten, or a word in letters of either
case, behind a sign if there is one. The reader takes as much as it can, so a number is read as it is written only if
nothing that follows it could belong to it: no digit, no point, no complete power of ten, and not the letters that make
the short word for infinity the long one. All numbers that are taken are of this kind, apart from words that are written
with letters which only look like those of infinity.

Results:
- `splitNumber_chars`: a number is read as it is written when it is detached from what follows.
- `exists_writtenNumber`: what is read as a number is written as one.
- `detached_of_clear`: a name that is clear of numbers is detached from a number in front of it.
-/
import Mathlib.Data.List.Forall2
import Mathlib.Data.Option.Basic
import UnitAlgebra.Decimal.Reader
import UnitAlgebra.Proofs.Expression.Reading

namespace UnitAlgebra.Decimal

open Expression (isSign Literal)
open Text (digitsValue isDecimal isNameChar StopsAt)

/-! ## Written numbers -/

/-- digits of any script with a point; on one side of it there may be none, or there is no point -/
structure Figures where
  whole : List Char
  fraction : Option (List Char)
  nonempty : whole ++ fraction.getD [] ≠ []
  decimal : ∀ c ∈ whole ++ fraction.getD [], isDecimal c = true

namespace Figures

variable (f : Figures)

def digits : List Char := f.whole ++ f.fraction.getD []

/-- the point with the digits behind it -/
def pointed : Option (List Char) → List Char
  | none => []
  | some ds => '.' :: ds

def chars : List Char := f.whole ++ pointed f.fraction

end Figures

/-- a power of ten behind digits -/
structure Power where
  letter : Char
  amount : Literal
  letters : letter = 'e' ∨ letter = 'E'

def Power.chars (p : Power) : List Char := p.letter :: p.amount.chars

/-- the words for numbers that have no digits -/
inductive Word where
  | inf | infinity | nan
deriving DecidableEq

namespace Word

def letters : Word → List Char
  | inf => "inf".toList
  | infinity => "inf".toList ++ "inity".toList
  | nan => "nan".toList

def number (negative : Bool) : Word → NumberText
  | inf | infinity => .infinity negative
  | nan => .notANumber

end Word

/-- a character is a letter in either case -/
def InCase (letter c : Char) : Prop := c = letter ∨ c = letter.toUpper

/-- a number without its sign -/
inductive Unsigned where
  | figures (f : Figures) (power : Option Power)
  | word (w : Word) (chars : List Char) (letters : List.Forall₂ InCase w.letters chars)

namespace Unsigned

def powerChars : Option Power → List Char
  | none => []
  | some p => p.chars

def powerValue : Option Power → Int
  | none => 0
  | some p => p.amount.numeral.value

def chars : Unsigned → List Char
  | figures f power => f.chars ++ powerChars power
  | word _ chars _ => chars

/-- what the text says, behind a sign -/
def number (negative : Bool) : Unsigned → NumberText
  | figures f power => .finite negative (digitsValue f.digits) (powerValue power - (f.fraction.getD []).length)
  | word w _ _ => w.number negative

end Unsigned

/-- a number as it may be written -/
structure WrittenNumber where
  sign : Option Char
  unsigned : Unsigned
  signs : ∀ c ∈ sign, isSign c = true

namespace WrittenNumber

variable (n : WrittenNumber)

def chars : List Char := n.sign.toList ++ n.unsigned.chars

def text : String := String.ofList n.chars

def number : NumberText := n.unsigned.number (n.sign = some '-')

end WrittenNumber

/-! ## What follows a number -/

/-- nothing at the beginning of a text could belong to a number in front of it -/
structure Detached (rest : List Char) : Prop where
  digits : StopsAt isDecimal rest
  point : StopsAt (· = '.') rest
  power : splitExponent rest = (0, rest)
  ending : splitWord "inity".toList rest = none

theorem detached_cons {c : Char} (hdigit : isDecimal c = false) (hpoint : c ≠ '.') (hpower : ¬ (c = 'e' ∨ c = 'E'))
    (hletter : isLetter 'i' c = false) (rest : List Char) : Detached (c :: rest) where
  digits := Text.stopsAt_cons.2 hdigit
  point := Text.stopsAt_cons.2 (by simpa using hpoint)
  power := by simp only [splitExponent, hpower, if_false]
  ending := by
    change splitWord ('i' :: "nity".toList) (c :: rest) = none
    rw [splitWord, hletter]
    rfl

/-- a name that a number in front of it does not run into -/
def Clear (name : List Char) : Prop := name ≠ ['e'] ∧ name ≠ ['E'] ∧ splitWord "inity".toList name = none

instance (name : List Char) : Decidable (Clear name) := inferInstanceAs (Decidable (_ ∧ _ ∧ _))

/-- both cases of a letter are letters of names -/
def isNameLetter (letter : Char) : Bool := isNameChar letter && isNameChar letter.toUpper

theorem isNameChar_of_isLetter {letter c : Char} (hl : isNameLetter letter = true) (h : isLetter letter c = true) :
    isNameChar c = true := by
  have hlookalikes : isNameChar 'İ' = true ∧ isNameChar 'ı' = true := by decide +kernel
  obtain ⟨hlower, hupper⟩ := Bool.and_eq_true_iff.1 hl
  simp only [isLetter, Bool.or_eq_true, Bool.and_eq_true, decide_eq_true_eq] at h
  rcases h with (rfl | rfl) | ⟨-, rfl | rfl⟩
  · exact hlower
  · exact hupper
  · exact hlookalikes.1
  · exact hlookalikes.2

/-- a word that a name does not begin with does not go on behind the name -/
theorem splitWord_append_eq_none {word name rest : List Char} (hword : ∀ l ∈ word, isNameLetter l = true)
    (hrest : StopsAt isNameChar rest) (h : splitWord word name = none) : splitWord word (name ++ rest) = none := by
  induction word generalizing name with
  | nil => cases h
  | cons l word ih =>
    cases name with
    | nil =>
      cases rest with
      | nil => rfl
      | cons c rest =>
        have hletter : isLetter l c = false := by
          cases hl : isLetter l c with
          | false => rfl
          | true =>
            have hc := isNameChar_of_isLetter (hword l List.mem_cons_self) hl
            rw [Text.stopsAt_cons.1 hrest] at hc
            cases hc
        rw [List.nil_append, splitWord, hletter]
        rfl
    | cons c name =>
      rw [List.cons_append, splitWord]
      rw [splitWord] at h
      split at h
      · next hletter =>
        rw [if_pos hletter, ih (fun l hl => hword l (List.mem_cons_of_mem _ hl)) (Option.map_eq_none_iff.1 h)]
        rfl
      · next hletter => rw [if_neg hletter]

/-- **A clear name is detached from a number in front of it.** -/
theorem detached_of_clear {name rest : List Char} (hne : name ≠ []) (hname : ∀ c ∈ name, isNameChar c = true)
    (hrest : StopsAt isNameChar rest) (h : Clear name) : Detached (name ++ rest) := by
  obtain ⟨hlower, hupper, hending⟩ := h
  obtain ⟨c, cs, rfl⟩ := List.exists_cons_of_ne_nil hne
  have hc := hname c List.mem_cons_self
  refine ⟨Text.stopsAt_cons.2 (Text.isDecimal_of_isNameChar hc), Text.stopsAt_cons.2 ?_, ?_,
    splitWord_append_eq_none (List.all_eq_true.1 (by decide +kernel)) hrest hending⟩
  · have hpoint : isNameChar '.' = false := by decide +kernel
    rw [decide_eq_false_iff_not]
    rintro rfl
    rw [hpoint] at hc
    cases hc
  · -- the letter of a power is followed by a letter of the name, so no digits belong to it
    rw [List.cons_append, splitExponent]
    split
    · next he =>
      obtain ⟨d, ds, rfl⟩ : ∃ d ds, cs = d :: ds := by
        refine List.exists_cons_of_ne_nil ?_
        rintro rfl
        rcases he with rfl | rfl
        · exact hlower rfl
        · exact hupper rfl
      have hd := hname d (List.mem_cons_of_mem c List.mem_cons_self)
      have hsign : isNameChar '-' = false ∧ isNameChar '+' = false := by decide +kernel
      have hsplit : splitSign (d :: (ds ++ rest)) = (false, d :: (ds ++ rest)) := by
        unfold splitSign
        split
        · next heq =>
          cases heq
          rw [hsign.1] at hd
          cases hd
        · next heq =>
          cases heq
          rw [hsign.2] at hd
          cases hd
        · rfl
      rw [List.cons_append, hsplit]
      simp [splitDigits, Text.isDecimal_of_isNameChar hd]
    · rfl

/-! ## Signs -/

theorem splitSign_of_stopsAt {cs : List Char} (h : StopsAt isSign cs) : splitSign cs = (false, cs) := by
  unfold splitSign
  split
  · exact absurd (Text.stopsAt_cons.1 h) (by decide)
  · exact absurd (Text.stopsAt_cons.1 h) (by decide)
  · rfl

theorem splitSign_append {sign : Option Char} (hsign : ∀ c ∈ sign, isSign c = true) {cs : List Char}
    (h : StopsAt isSign cs) : splitSign (sign.toList ++ cs) = (decide (sign = some '-'), cs) := by
  cases sign with
  | none => exact splitSign_of_stopsAt h
  | some c =>
    have hc : c = '+' ∨ c = '-' := by simpa [isSign] using hsign c rfl
    rcases hc with rfl | rfl <;> rfl

theorem exists_sign (cs : List Char) : ∃ sign : Option Char, (∀ c ∈ sign, isSign c = true) ∧
    (splitSign cs).1 = decide (sign = some '-') ∧ cs = sign.toList ++ (splitSign cs).2 := by
  unfold splitSign
  split
  · exact ⟨some '-', by simp [isSign], rfl, rfl⟩
  · exact ⟨some '+', by simp [isSign], rfl, rfl⟩
  · exact ⟨none, by simp, rfl, rfl⟩

theorem stopsAt_isSign {ds : List Char} (hne : ds ≠ []) (hds : ∀ c ∈ ds, isDecimal c = true) (rest : List Char) :
    StopsAt isSign (ds ++ rest) := by
  obtain ⟨d, ds, rfl⟩ := List.exists_cons_of_ne_nil hne
  exact Text.stopsAt_cons.2 (Expression.isSign_of_isDecimal (hds d List.mem_cons_self))

/-! ## Digits and powers of ten -/

theorem splitDigits_append {ds rest : List Char} (hds : ∀ c ∈ ds, isDecimal c = true) (h : StopsAt isDecimal rest) :
    splitDigits (ds ++ rest) = (ds, rest) := by
  rw [splitDigits, Text.takeWhile_run hds h, Text.dropWhile_run hds h]

theorem splitDigits_spec (cs : List Char) :
    cs = (splitDigits cs).1 ++ (splitDigits cs).2 ∧ ∀ c ∈ (splitDigits cs).1, isDecimal c = true :=
  ⟨List.takeWhile_append_dropWhile.symm, fun _ hc => List.mem_takeWhile_imp hc⟩

theorem value_numeral (l : Literal) :
    l.numeral.value = if l.sign = some '-' then -(digitsValue l.digits : Int) else digitsValue l.digits := by
  unfold Literal.numeral
  cases l.sign with
  | none => rfl
  | some c => simp [Expression.Numeral.value]

theorem splitExponent_chars (p : Power) {rest : List Char} (h : StopsAt isDecimal rest) :
    splitExponent (p.chars ++ rest) = (p.amount.numeral.value, rest) := by
  have hsign : splitSign (p.amount.chars ++ rest) =
      (decide (p.amount.sign = some '-'), p.amount.digits ++ rest) := by
    rw [Literal.chars, List.append_assoc]
    exact splitSign_append p.amount.signs (stopsAt_isSign p.amount.nonempty p.amount.decimal rest)
  have hdigits := splitDigits_append p.amount.decimal h
  rw [Power.chars, List.cons_append, splitExponent, if_pos p.letters, hsign]
  simp [hdigits, p.amount.nonempty, value_numeral]

/-- a power of ten is read where one is written, and there is none otherwise -/
theorem splitExponent_powerChars (power : Option Power) {rest : List Char} (h : Detached rest) :
    splitExponent (Unsigned.powerChars power ++ rest) = (Unsigned.powerValue power, rest) := by
  cases power with
  | none => exact h.power
  | some p => exact splitExponent_chars p h.digits

theorem exists_power (cs : List Char) : ∃ power, cs = Unsigned.powerChars power ++ (splitExponent cs).2 ∧
    (splitExponent cs).1 = Unsigned.powerValue power := by
  have hnone : splitExponent cs = (0, cs) → ∃ power, cs = Unsigned.powerChars power ++ (splitExponent cs).2 ∧
      (splitExponent cs).1 = Unsigned.powerValue power := by
    intro hnone
    rw [hnone]
    exact ⟨none, rfl, rfl⟩
  cases cs with
  | nil => exact hnone rfl
  | cons c after =>
    by_cases hc : c = 'e' ∨ c = 'E'
    · obtain ⟨sign, hsign, hnegative, hafter⟩ := exists_sign after
      simp only [splitExponent, if_pos hc] at hnone ⊢
      by_cases hempty : (splitDigits (splitSign after).2).1.isEmpty = true
      · exact hnone (if_pos hempty)
      · rw [if_neg hempty]
        obtain ⟨hdigits, hdecimal⟩ := splitDigits_spec (splitSign after).2
        let amount : Literal := ⟨sign, (splitDigits (splitSign after).2).1, hsign, by simpa using hempty, hdecimal⟩
        refine ⟨some ⟨c, amount, hc⟩, ?_, ?_⟩
        · conv_lhs => rw [hafter, hdigits]
          simp [Unsigned.powerChars, Power.chars, Literal.chars, amount]
        · simp [Unsigned.powerValue, value_numeral, amount, hnegative]
    · exact hnone (by simp only [splitExponent, if_neg hc])

/-! ## Decimals -/

theorem stopsAt_powerChars (power : Option Power) {rest : List Char} (h : Detached rest) :
    StopsAt isDecimal (Unsigned.powerChars power ++ rest) ∧ StopsAt (· = '.') (Unsigned.powerChars power ++ rest) := by
  cases power with
  | none => exact ⟨h.digits, h.point⟩
  | some p =>
    have hletter : isDecimal p.letter = false ∧ p.letter ≠ '.' := by
      rcases p.letters with hp | hp <;> rw [hp] <;> decide
    exact ⟨Text.stopsAt_cons.2 hletter.1, Text.stopsAt_cons.2 (by simpa using hletter.2)⟩

theorem splitDecimal_figures (negative : Bool) (f : Figures) (power : Option Power) {rest : List Char}
    (h : Detached rest) :
    splitDecimal negative ((Unsigned.figures f power).chars ++ rest) =
      some ((Unsigned.figures f power).number negative, rest) := by
  obtain ⟨whole, fraction, hne, hdecimal⟩ := f
  obtain ⟨hdigits, hpoint⟩ := stopsAt_powerChars power h
  have hpower := splitExponent_powerChars power h
  have hwhole : ∀ c ∈ whole, isDecimal c = true := fun c hc => hdecimal c (List.mem_append_left _ hc)
  cases fraction with
  | none =>
    have hempty : whole.isEmpty = false := by simpa using hne
    have hsplit := splitDigits_append hwhole hdigits
    simp only [Unsigned.chars, Figures.chars, Figures.pointed, List.append_nil, List.append_assoc, splitDecimal, hsplit]
    split
    · next heq =>
      rw [heq] at hpoint
      exact absurd (Text.stopsAt_cons.1 hpoint) (by decide)
    · simp [hempty, hpower, Unsigned.number, Figures.digits]
  | some ds =>
    have hpoints : StopsAt isDecimal ('.' :: (ds ++ (Unsigned.powerChars power ++ rest))) :=
      Text.stopsAt_cons.2 (by decide)
    have hsplit := splitDigits_append hwhole hpoints
    have hfraction := splitDigits_append (fun c hc => hdecimal c (List.mem_append_right _ hc)) hdigits
    have hempty : (whole.isEmpty && ds.isEmpty) = false := by
      simpa [List.append_eq_nil_iff] using hne
    simp only [Option.getD_some] at hfraction
    simp only [Unsigned.chars, Figures.chars, Figures.pointed, List.append_assoc, List.cons_append, splitDecimal,
      hsplit]
    simp [hfraction, hempty, hpower, Unsigned.number, Figures.digits]

theorem exists_figures (whole : List Char) (fraction : Option (List Char))
    (hne : (whole.isEmpty && (fraction.getD []).isEmpty) = false)
    (hdecimal : ∀ c ∈ whole ++ fraction.getD [], isDecimal c = true) (negative : Bool) (after : List Char) :
    ∃ u : Unsigned, whole ++ (Figures.pointed fraction ++ after) = u.chars ++ (splitExponent after).2 ∧
      .finite negative (digitsValue (whole ++ fraction.getD [])) ((splitExponent after).1 - (fraction.getD []).length) =
        u.number negative := by
  obtain ⟨power, hafter, hvalue⟩ := exists_power after
  have hnonempty : whole ++ fraction.getD [] ≠ [] := by
    intro hnil
    obtain ⟨hwhole, hfraction⟩ := List.append_eq_nil_iff.1 hnil
    rw [hwhole, hfraction] at hne
    cases hne
  refine ⟨.figures ⟨whole, fraction, hnonempty, hdecimal⟩ power, ?_, ?_⟩
  · rw [Unsigned.chars, Figures.chars, List.append_assoc, List.append_assoc, ← hafter]
  · rw [hvalue]
    rfl

theorem exists_of_splitDecimal {negative : Bool} {cs rest : List Char} {number : NumberText}
    (h : splitDecimal negative cs = some (number, rest)) :
    ∃ u : Unsigned, cs = u.chars ++ rest ∧ number = u.number negative := by
  obtain ⟨hcs, hwhole⟩ := splitDigits_spec cs
  have hplain : ∀ c ∈ (splitDigits cs).1 ++ (none : Option (List Char)).getD [], isDecimal c = true := by
    simpa using hwhole
  simp only [splitDecimal] at h
  split at h
  · next after hafter =>
    obtain ⟨hds, hfraction⟩ := splitDigits_spec after
    split at h
    · next hempty =>
      -- a point without digits on either side is no decimal
      simp only [Bool.and_eq_true] at hempty
      simp [hempty.1] at h
    · next hempty =>
      cases h
      obtain ⟨u, htext, hnumber⟩ := exists_figures (splitDigits cs).1 (some (splitDigits after).1)
        (Bool.eq_false_iff.2 hempty) (fun c hc => (List.mem_append.1 hc).elim (hwhole c) (hfraction c)) negative
        (splitDigits after).2
      refine ⟨u, ?_, hnumber⟩
      rw [← htext, Figures.pointed, List.cons_append, ← hds, ← hafter, ← hcs]
  · split at h
    · cases h
    · next hempty =>
      cases h
      obtain ⟨u, htext, hnumber⟩ := exists_figures (splitDigits cs).1 none (Bool.eq_false_iff.2 hempty) hplain negative
        (splitDigits cs).2
      exact ⟨u, by rw [← htext, Figures.pointed, List.nil_append, ← hcs], hnumber⟩

/-! ## Words -/

theorem splitWord_append {word cs : List Char} (h : List.Forall₂ InCase word cs) (rest : List Char) :
    splitWord word (cs ++ rest) = some (cs, rest) := by
  induction h with
  | nil => rfl
  | @cons letter c word cs hc _ ih =>
    have hletter : isLetter letter c = true := by
      rcases hc with rfl | rfl <;> simp [isLetter]
    rw [List.cons_append, splitWord, if_pos hletter, ih]
    rfl

theorem exists_of_splitWord {word cs written rest : List Char} (h : splitWord word cs = some (written, rest)) :
    cs = written ++ rest ∧ List.Forall₂ (fun letter c => isLetter letter c = true) word written := by
  induction word generalizing cs written with
  | nil =>
    cases h
    exact ⟨rfl, .nil⟩
  | cons letter word ih =>
    cases cs with
    | nil => cases h
    | cons c cs =>
      rw [splitWord] at h
      split at h
      · next hletter =>
        obtain ⟨⟨written', rest'⟩, hsplit, heq⟩ := Option.map_eq_some_iff.1 h
        cases heq
        obtain ⟨rfl, hletters⟩ := ih hsplit
        exact ⟨rfl, .cons hletter hletters⟩
      · cases h

/-- both cases of a letter are letters of ASCII -/
def isAsciiLetter (letter : Char) : Bool := letter.toNat < 128 && letter.toUpper.toNat < 128

theorem ascii_of_inCase {word cs : List Char} (hword : ∀ l ∈ word, isAsciiLetter l = true)
    (h : List.Forall₂ InCase word cs) : cs.all (fun c => c.toNat < 128) = true := by
  induction h with
  | nil => rfl
  | @cons letter c word cs hc _ ih =>
    rw [List.all_cons, ih fun l hl => hword l (List.mem_cons_of_mem _ hl), Bool.and_true]
    obtain ⟨hlower, hupper⟩ := Bool.and_eq_true_iff.1 (hword letter List.mem_cons_self)
    rcases hc with rfl | rfl
    · exact hlower
    · exact hupper

/-- only the two letters that look like an i, which are none of ASCII, pass for a letter without being it -/
theorem inCase_of_isLetter {letter c : Char} (hc : letter ≠ 'i' ∨ c.toNat < 128) (h : isLetter letter c = true) :
    InCase letter c := by
  simp only [isLetter, Bool.or_eq_true, Bool.and_eq_true, decide_eq_true_eq] at h
  rcases h with hcase | ⟨hletter, hlookalike⟩
  · exact hcase
  · have hascii : ¬ c.toNat < 128 := by rcases hlookalike with rfl | rfl <;> decide
    exact absurd hc (not_or.2 ⟨not_not.2 hletter, hascii⟩)

theorem splitDecimal_of_letter {c : Char} (hdigit : isDecimal c = false) (hpoint : c ≠ '.') (negative : Bool)
    (cs : List Char) : splitDecimal negative (c :: cs) = none := by
  simp [splitDecimal, splitDigits, hdigit, hpoint]

/-- a word begins with a letter that no decimal begins with -/
theorem splitDecimal_of_inCase {letter : Char} {word cs : List Char}
    (hletter : letter = 'i' ∨ letter = 'n') (h : List.Forall₂ InCase (letter :: word) cs) (negative : Bool)
    (rest : List Char) : splitDecimal negative (cs ++ rest) = none := by
  obtain ⟨c, cs, hc, -, rfl⟩ := List.forall₂_cons_left_iff.1 h
  have hclass : isDecimal c = false ∧ c ≠ '.' := by
    rcases hletter with rfl | rfl <;> rcases hc with rfl | rfl <;> decide
  exact splitDecimal_of_letter hclass.1 hclass.2 negative _

theorem splitSpecial_chars (negative : Bool) (w : Word) {cs : List Char} (hw : List.Forall₂ InCase w.letters cs)
    {rest : List Char} (h : Detached rest) :
    splitSpecial negative (cs ++ rest) = some (w.number negative, rest) := by
  have hascii : cs.all (fun c => c.toNat < 128) = true :=
    ascii_of_inCase (List.all_eq_true.1 (by cases w <;> decide)) hw
  cases w with
  | inf =>
    have hsplit : splitWord "inf".toList (cs ++ rest) = some (cs, rest) := splitWord_append hw rest
    simp only [splitSpecial, hsplit, h.ending, Option.getD_none, List.append_nil, hascii, if_true,
      Word.number]
  | infinity =>
    obtain ⟨stem, ending, hstem, hending, rfl⟩ : ∃ stem ending, List.Forall₂ InCase "inf".toList stem ∧
        List.Forall₂ InCase "inity".toList ending ∧ cs = stem ++ ending := by
      refine ⟨cs.take 3, cs.drop 3, ?_, ?_, (List.take_append_drop 3 cs).symm⟩
      · exact List.forall₂_take 3 hw
      · exact List.forall₂_drop 3 hw
    rw [List.append_assoc]
    simp only [splitSpecial, splitWord_append hstem, splitWord_append hending, Option.getD_some, hascii, if_true,
      Word.number]
  | nan =>
    have hnone : splitWord "inf".toList (cs ++ rest) = none := by
      obtain ⟨c, cs, hc, -, rfl⟩ := List.forall₂_cons_left_iff.1 hw
      have hletter : isLetter 'i' c = false := by rcases hc with rfl | rfl <;> decide
      change splitWord ('i' :: "nf".toList) (c :: (cs ++ rest)) = none
      rw [splitWord, hletter]
      rfl
    have hsplit : splitWord "nan".toList (cs ++ rest) = some (cs, rest) := splitWord_append hw rest
    simp only [splitSpecial, hnone, hsplit, Option.map_some, Word.number]

theorem inCase_of_written {word written : List Char}
    (h : List.Forall₂ (fun letter c => isLetter letter c = true) word written)
    (hc : ∀ letter ∈ word, ∀ c ∈ written, letter ≠ 'i' ∨ c.toNat < 128) : List.Forall₂ InCase word written := by
  induction h with
  | nil => exact .nil
  | @cons letter c word cs hletter _ ih =>
    refine .cons (inCase_of_isLetter (hc letter List.mem_cons_self c List.mem_cons_self) hletter) (ih ?_)
    exact fun l hl d hd => hc l (List.mem_cons_of_mem _ hl) d (List.mem_cons_of_mem _ hd)

theorem exists_of_splitSpecial {negative : Bool} {cs rest : List Char} {number : NumberText}
    (h : splitSpecial negative cs = some (number, rest)) (hgarbled : number ≠ .garbled) :
    ∃ u : Unsigned, cs = u.chars ++ rest ∧ number = u.number negative := by
  rw [splitSpecial] at h
  split at h
  · next written after hstem =>
    obtain ⟨rfl, hletters⟩ := exists_of_splitWord hstem
    by_cases hascii : (written ++ ((splitWord "inity".toList after).getD ([], after)).1).all (fun c => c.toNat < 128)
    · have hbelow : ∀ c ∈ written ++ ((splitWord "inity".toList after).getD ([], after)).1, c.toNat < 128 :=
        fun c hc => of_decide_eq_true (List.all_eq_true.1 hascii c hc)
      simp only [hascii, if_true] at h
      cases hending : splitWord "inity".toList after with
      | none =>
        rw [hending] at h hbelow
        cases h
        have hcase := inCase_of_written hletters fun _ _ c hc => .inr (hbelow c (List.mem_append_left _ hc))
        exact ⟨.word .inf written hcase, rfl, rfl⟩
      | some found =>
        obtain ⟨more, rest'⟩ := found
        rw [hending] at h hbelow
        cases h
        obtain ⟨rfl, hmore⟩ := exists_of_splitWord hending
        have hcase := inCase_of_written (List.rel_append hletters hmore) fun _ _ c hc => .inr (hbelow c hc)
        exact ⟨.word .infinity (written ++ more) hcase, (List.append_assoc ..).symm, rfl⟩
    · simp only [hascii] at h
      cases h
      exact absurd rfl hgarbled
  · obtain ⟨⟨written, rest'⟩, hsplit, heq⟩ := Option.map_eq_some_iff.1 h
    cases heq
    obtain ⟨rfl, hletters⟩ := exists_of_splitWord hsplit
    have hne : ∀ letter ∈ "nan".toList, letter ≠ 'i' := fun letter hl =>
      bne_iff_ne.1 (List.all_eq_true.1 (show "nan".toList.all (· != 'i') = true by decide) letter hl)
    exact ⟨.word .nan written (inCase_of_written hletters fun letter hl _ _ => .inl (hne letter hl)), rfl, rfl⟩

/-! ## Numbers -/

namespace Unsigned

theorem stopsAt_chars {p : Char → Bool} (hdigit : ∀ c, isDecimal c = true → p c = false) (hpoint : p '.' = false)
    (hword : ∀ c, InCase 'i' c ∨ InCase 'n' c → p c = false) (u : Unsigned) (rest : List Char) :
    StopsAt p (u.chars ++ rest) := by
  cases u with
  | figures f power =>
    obtain ⟨whole, fraction, hne, hdecimal⟩ := f
    cases whole with
    | cons c whole => exact Text.stopsAt_cons.2 (hdigit c (hdecimal c List.mem_cons_self))
    | nil =>
      cases fraction with
      | none => exact absurd rfl hne
      | some ds => exact Text.stopsAt_cons.2 hpoint
  | word w cs hw =>
    cases w with
    | inf | infinity =>
      obtain ⟨c, cs, hc, -, rfl⟩ := List.forall₂_cons_left_iff.1 hw
      exact Text.stopsAt_cons.2 (hword c (.inl hc))
    | nan =>
      obtain ⟨c, cs, hc, -, rfl⟩ := List.forall₂_cons_left_iff.1 hw
      exact Text.stopsAt_cons.2 (hword c (.inr hc))

theorem splits (negative : Bool) (u : Unsigned) {rest : List Char} (h : Detached rest) :
    (splitDecimal negative (u.chars ++ rest) <|> splitSpecial negative (u.chars ++ rest)) =
      some (u.number negative, rest) := by
  cases u with
  | figures f power =>
    rw [splitDecimal_figures negative f power h]
    rfl
  | word w cs hw =>
    have hnone : splitDecimal negative (cs ++ rest) = none := by
      cases w with
      | inf | infinity => exact splitDecimal_of_inCase (.inl rfl) hw negative rest
      | nan => exact splitDecimal_of_inCase (.inr rfl) hw negative rest
    change (splitDecimal negative (cs ++ rest) <|> splitSpecial negative (cs ++ rest)) = _
    rw [hnone, splitSpecial_chars negative w hw h]
    rfl

end Unsigned

/-- **A number is read as it is written** when it is detached from what follows. -/
theorem splitNumber_chars (n : WrittenNumber) {rest : List Char} (h : Detached rest) :
    splitNumber (n.chars ++ rest) = some (n.number, rest) := by
  have hstops : StopsAt isSign (n.unsigned.chars ++ rest) := by
    refine n.unsigned.stopsAt_chars (fun c => Expression.isSign_of_isDecimal) (by decide) ?_ rest
    rintro c ((rfl | rfl) | (rfl | rfl)) <;> decide
  have hsign := splitSign_append n.signs hstops
  rw [WrittenNumber.chars, List.append_assoc]
  simp only [splitNumber, hsign]
  exact n.unsigned.splits _ h

/-- **What is read as a number is written as one.** -/
theorem exists_writtenNumber {cs rest : List Char} {number : NumberText} (h : splitNumber cs = some (number, rest))
    (hgarbled : number ≠ .garbled) : ∃ n : WrittenNumber, cs = n.chars ++ rest ∧ number = n.number := by
  obtain ⟨sign, hsigns, hnegative, hcs⟩ := exists_sign cs
  have hunsigned : ∃ u : Unsigned, (splitSign cs).2 = u.chars ++ rest ∧ number = u.number (splitSign cs).1 := by
    rcases (Option.orElse_eq_some ..).1 h with hdecimal | ⟨-, hspecial⟩
    · exact exists_of_splitDecimal hdecimal
    · exact exists_of_splitSpecial hspecial hgarbled
  obtain ⟨u, htext, hnumber⟩ := hunsigned
  refine ⟨⟨sign, u, hsigns⟩, ?_, ?_⟩
  · rw [WrittenNumber.chars, List.append_assoc, ← htext, ← hcs]
  · rw [hnumber, hnegative]
    rfl

namespace WrittenNumber

variable (n : WrittenNumber)

theorem exists_value {κ : Type} [Numeric κ] : ∃ x : κ, n.number.value = .ok x := by
  unfold number
  cases n.unsigned with
  | figures f power => exact ⟨_, rfl⟩
  | word w cs hw => cases w <;> exact ⟨_, rfl⟩

theorem stopsAt_isBlank (rest : List Char) : StopsAt Text.isBlank (n.chars ++ rest) := by
  rw [chars, List.append_assoc]
  cases hsign : n.sign with
  | none =>
    refine n.unsigned.stopsAt_chars (fun c => Text.isBlank_of_isDecimal) (by decide) ?_ rest
    rintro c ((rfl | rfl) | (rfl | rfl)) <;> decide
  | some c =>
    exact Text.stopsAt_cons.2 (Expression.class_of_isSign (n.signs c hsign)).1

end WrittenNumber

end UnitAlgebra.Decimal

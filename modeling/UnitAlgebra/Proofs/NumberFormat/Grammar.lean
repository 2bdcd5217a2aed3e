/-
Number formats as they are written, part by part. Every part but the fill has characters of its own: the place of a
character tells which part it belongs to, and parts are written in the order of their places. So a reader that takes one
part after the other, each if its character comes next, finds the parts as they were written.

Results:
- `Spec.read?_chars`: a written format is read as the format that its parts make up, whatever the fill is.
- `Spec.mem_chars`: a character without a place stands in a format only as the fill.
- `Spec.exists_spec`: what is read as a format of real numbers is written by the grammar.
-/
import UnitAlgebra.NumberFormat
import UnitAlgebra.Proofs.Decimal.Beginning

namespace UnitAlgebra

/-! ## Characters of the parts -/

namespace Justification

def mark : Justification → Char
  | left => '<'
  | right => '>'
  | centre => '^'
  | afterSign => '='

theorem ofChar?_mark (j : Justification) : ofChar? j.mark = some j := by cases j <;> rfl

end Justification

namespace SignMark

def chars : SignMark → List Char
  | unstated => []
  | minus => ['-']
  | plus => ['+']
  | blank => [' ']

end SignMark

namespace Grouping

def mark : Grouping → Char
  | comma => ','
  | underscore => '_'

end Grouping

namespace NumberFormat

/-- the forms of numbers that need not be whole -/
def formLetters : List Char := "eEfFgGn%".toList

/-- the place of a character among the parts of a format, zero for one that stands in none -/
def place (c : Char) : Nat :=
  if c = '+' ∨ c = '-' ∨ c = ' ' then 1
  else if c = 'z' then 2
  else if c = '#' then 3
  else if Text.isDecimal c then 4
  else if c = ',' ∨ c = '_' then 5
  else if c = '.' then 6
  else if formLetters.contains c then 7
  else 0

theorem place_of_isDecimal {c : Char} (h : Text.isDecimal c = true) : place c = 4 := by
  have hne : ∀ d, Text.isDecimal d = false → c ≠ d := by
    rintro d hd rfl
    rw [h] at hd
    cases hd
  have hsign : ¬ (c = '+' ∨ c = '-' ∨ c = ' ') := by
    rintro (hc | hc | hc)
    · exact hne '+' (by decide) hc
    · exact hne '-' (by decide) hc
    · exact hne ' ' (by decide) hc
  rw [place, if_neg hsign, if_neg (hne 'z' (by decide)), if_neg (hne '#' (by decide)), if_pos h]

theorem place_of_mem_formLetters {c : Char} (h : c ∈ formLetters) : place c = 7 := by
  have hall : formLetters.all (fun c => place c = 7) = true := by decide
  exact of_decide_eq_true (List.all_eq_true.1 hall c h)

theorem place_of_justification {c : Char} {j : Justification} (h : Justification.ofChar? c = some j) : place c = 0 := by
  unfold Justification.ofChar? at h
  split at h
  · decide
  · decide
  · decide
  · decide
  · cases h

/-! ## Written formats -/

/-- a number format by its parts as they are written -/
structure Spec where
  /-- a justification with the fill before it, if there is one -/
  placing : Option (Option Char × Justification)
  sign : SignMark
  unsignedZero : Bool
  alternate : Bool
  zero : Bool
  width : List Char
  grouping : Option Grouping
  precision : Option (List Char)
  form : Option Char
  width_digits : ∀ c ∈ width, Text.isDecimal c = true
  precision_digits : ∀ ds ∈ precision, ds ≠ [] ∧ ∀ c ∈ ds, Text.isDecimal c = true
  form_real : ∀ c ∈ form, c ∈ formLetters

namespace Spec

variable (p : Spec)

def fill : Option Char := p.placing.bind Prod.fst

/-- a mark that is written or left out -/
def marked (b : Bool) (c : Char) : List Char := if b then [c] else []

def placingText : Option (Option Char × Justification) → List Char
  | none => []
  | some (fill, j) => fill.toList ++ [j.mark]

def groupingText (g : Option Grouping) : List Char := g.toList.map Grouping.mark

def precisionText : Option (List Char) → List Char
  | none => []
  | some ds => '.' :: ds

/-- the width, with a zero in front that asks for zeros -/
def widthChars : List Char := marked p.zero '0' ++ p.width

/-- the format from the precision on -/
def fromPrecision : List Char := precisionText p.precision ++ p.form.toList

def fromGrouping : List Char := groupingText p.grouping ++ p.fromPrecision

def fromWidth : List Char := p.widthChars ++ p.fromGrouping

def fromAlternate : List Char := marked p.alternate '#' ++ p.fromWidth

def fromUnsignedZero : List Char := marked p.unsignedZero 'z' ++ p.fromAlternate

/-- the format without its justification -/
def body : List Char := p.sign.chars ++ p.fromUnsignedZero

/-- the format as it is written -/
def chars : List Char := placingText p.placing ++ p.body

/-- what the parts ask for; a fill of one's own stays where zeros are asked for, too -/
def format : NumberFormat where
  fill := p.fill
  justification := p.placing.map Prod.snd
  sign := p.sign
  unsignedZero := p.unsignedZero
  alternate := p.alternate
  zeroFilled := p.fill.isNone && p.widthChars.head? = some '0'
  width := Text.digitsValue p.widthChars
  grouping := p.grouping
  precision := p.precision.map Text.digitsValue
  form := p.form.bind NumberForm.ofChar?

/-! ## The order of the parts -/

/-- a text begins with a character of a later place, if with any -/
def After (k : Nat) (cs : List Char) : Prop := ∀ c ∈ cs.head?, k < place c

variable {p}

theorem After.append {k : Nat} {cs ds : List Char} (hc : After k cs) (hd : After k ds) : After k (cs ++ ds) := by
  cases cs with
  | nil => exact hd
  | cons c cs => exact hc

theorem After.mono {j k : Nat} {cs : List Char} (h : After k cs) (hjk : j ≤ k) : After j cs := fun c hc =>
  Nat.lt_of_le_of_lt hjk (h c hc)

theorem after_marked {k : Nat} (b : Bool) {c : Char} (h : k < place c) : After k (marked b c) := by
  cases b with
  | false => exact nofun
  | true => simpa [After, marked] using h

theorem isDecimal_of_mem_widthChars {c : Char} (h : c ∈ p.widthChars) : Text.isDecimal c = true := by
  rcases List.mem_append.1 h with h | h
  · unfold marked at h
    split at h
    · rw [List.mem_singleton.1 h]
      decide
    · cases h
  · exact p.width_digits c h

theorem after_form : After 6 p.form.toList := by
  intro c hc
  have hform : c ∈ p.form := by
    cases hf : p.form with
    | none => rw [hf] at hc; cases hc
    | some d => rw [hf] at hc; exact hc
  rw [place_of_mem_formLetters (p.form_real c hform)]
  decide

theorem after_precision : After 5 (precisionText p.precision) := by
  unfold precisionText
  split
  · exact nofun
  · intro c hc
    cases hc
    decide

theorem after_grouping : After 4 (groupingText p.grouping) := by
  unfold groupingText
  cases p.grouping with
  | none => exact nofun
  | some g => cases g <;> (intro c hc; cases hc; decide)

theorem after_fromPrecision : After 5 p.fromPrecision := after_precision.append (after_form.mono (by decide))

theorem after_fromGrouping : After 4 p.fromGrouping := after_grouping.append (after_fromPrecision.mono (by decide))

theorem after_width : After 3 p.widthChars := by
  intro c hc
  rw [place_of_isDecimal (isDecimal_of_mem_widthChars (List.mem_of_mem_head? hc))]
  decide

theorem after_fromWidth : After 3 p.fromWidth := after_width.append (after_fromGrouping.mono (by decide))

theorem after_fromAlternate : After 2 p.fromAlternate :=
  (after_marked _ (by decide)).append (after_fromWidth.mono (by decide))

theorem after_fromUnsignedZero : After 1 p.fromUnsignedZero :=
  (after_marked _ (by decide)).append (after_fromAlternate.mono (by decide))

theorem place_pos_of_mem_body {c : Char} (h : c ∈ p.body) : 0 < place c := by
  have hmarked : ∀ {b : Bool} {d : Char}, 0 < place d → c ∈ marked b d → 0 < place c := by
    intro b d hd hc
    unfold marked at hc
    split at hc
    · rw [List.mem_singleton.1 hc]
      exact hd
    · cases hc
  have hdigit : Text.isDecimal c = true → 0 < place c := fun hc => by
    rw [place_of_isDecimal hc]
    decide
  simp only [body, fromUnsignedZero, fromAlternate, fromWidth, fromGrouping, fromPrecision, List.mem_append] at h
  rcases h with hsign | hzero | halternate | hwidth | hgrouping | hprecision | hform
  · revert hsign
    cases p.sign <;> simp only [SignMark.chars, List.mem_singleton, List.not_mem_nil, false_implies] <;>
      (rintro rfl; decide)
  · exact hmarked (by decide) hzero
  · exact hmarked (by decide) halternate
  · exact hdigit (isDecimal_of_mem_widthChars hwidth)
  · obtain ⟨g, -, rfl⟩ := List.mem_map.1 hgrouping
    cases g <;> decide
  · unfold precisionText at hprecision
    split at hprecision
    · cases hprecision
    · next ds hds =>
      rcases List.mem_cons.1 hprecision with rfl | hc
      · decide
      · exact hdigit ((p.precision_digits ds hds).2 c hc)
  · rw [place_of_mem_formLetters (p.form_real c (Option.mem_toList.1 hform))]
    decide

/-! ## Reading part by part -/

/-- before the justification there is nothing to be taken for a fill -/
theorem splitFill_chars : splitFill p.chars = ((p.fill, p.placing.map Prod.snd), p.body) := by
  have hbody : ∀ c ∈ p.body, Justification.ofChar? c = none := by
    intro c hc
    cases hj : Justification.ofChar? c with
    | none => rfl
    | some j => exact absurd (place_pos_of_mem_body hc) (by rw [place_of_justification hj]; decide)
  have hsecond : ∀ {c d : Char} {rest : List Char}, Justification.ofChar? d = none →
      splitFill (c :: d :: rest) = splitFill.alone (c :: d :: rest) := fun hd => by rw [splitFill, hd]
  unfold chars fill
  cases p.placing with
  | none =>
    cases hb : p.body with
    | nil => rfl
    | cons c rest =>
      rw [hb] at hbody
      have halone : splitFill.alone (c :: rest) = ((none, none), c :: rest) := by
        rw [splitFill.alone, hbody c List.mem_cons_self]
      cases rest with
      | nil => exact halone
      | cons d rest => exact (hsecond (hbody d (List.mem_cons_of_mem c List.mem_cons_self))).trans halone
  | some placing =>
    obtain ⟨fill, j⟩ := placing
    cases fill with
    | some c => exact splitFill_fill (Justification.ofChar?_mark j) p.body
    | none =>
      have halone : splitFill.alone (j.mark :: p.body) = ((none, some j), p.body) := by
        rw [splitFill.alone, Justification.ofChar?_mark]
      change splitFill (j.mark :: p.body) = ((none, some j), p.body)
      cases hb : p.body with
      | nil => rw [hb] at halone; exact halone
      | cons d rest => rw [hsecond (hbody d (hb ▸ List.mem_cons_self)), ← hb, halone]

theorem splitSign_chars (s : SignMark) {rest : List Char} (h : After 1 rest) :
    splitSign (s.chars ++ rest) = (s, rest) := by
  have hunstated : splitSign rest = (.unstated, rest) := by
    unfold splitSign
    split
    · exact absurd (h _ rfl) (by decide)
    · exact absurd (h _ rfl) (by decide)
    · exact absurd (h _ rfl) (by decide)
    · rfl
  cases s with
  | unstated => exact hunstated
  | minus => rfl
  | plus => rfl
  | blank => rfl

theorem splitMark_marked (b : Bool) {c : Char} {rest : List Char} (h : After (place c) rest) :
    splitMark c (marked b c ++ rest) = (b, rest) := by
  cases b with
  | true => simp [marked, splitMark]
  | false =>
    cases rest with
    | nil => rfl
    | cons d rest =>
      have hd : d ≠ c := by
        rintro rfl
        exact absurd (h d rfl) (Nat.lt_irrefl _)
      simp [marked, splitMark, hd]

theorem After.stopsAt {rest : List Char} (h : After 4 rest) : Text.StopsAt Text.isDecimal rest := by
  intro c hc
  cases hd : Text.isDecimal c with
  | false => rfl
  | true => exact absurd (h c hc) (by rw [place_of_isDecimal hd]; decide)

/-- a width is read with its zero or without it, which makes no difference to its value -/
theorem splitZero_digits (asked : Bool) {ds rest : List Char} (hds : ∀ c ∈ ds, Text.isDecimal c = true)
    (h : After 4 rest) :
    ∃ digits, (if asked then splitMark '0' (ds ++ rest) else (false, ds ++ rest)) =
        (asked && decide (ds.head? = some '0'), digits ++ rest) ∧
      (∀ c ∈ digits, Text.isDecimal c = true) ∧ Text.digitsValue digits = Text.digitsValue ds := by
  cases asked with
  | false => exact ⟨ds, rfl, hds, rfl⟩
  | true =>
    cases ds with
    | nil =>
      have hzero : splitMark '0' rest = (false, rest) := splitMark_marked false (h.mono (by decide))
      exact ⟨[], by simpa using hzero, nofun, rfl⟩
    | cons d ds =>
      by_cases hd : d = '0'
      · exact ⟨ds, by simp [splitMark, hd], fun c hc => hds c (List.mem_cons_of_mem d hc), by rw [hd]; rfl⟩
      · exact ⟨d :: ds, by simp [splitMark, hd], hds, rfl⟩

theorem splitGrouping_chars (g : Option Grouping) {rest : List Char} (h : After 5 rest) :
    splitGrouping (groupingText g ++ rest) = (g, rest) := by
  cases g with
  | some g => cases g <;> rfl
  | none =>
    change splitGrouping rest = (none, rest)
    unfold splitGrouping
    split
    · exact absurd (h _ rfl) (by decide)
    · exact absurd (h _ rfl) (by decide)
    · rfl

theorem splitPrecision?_chars {rest : List Char} (h : After 6 rest) :
    splitPrecision? (precisionText p.precision ++ rest) = some (p.precision.map Text.digitsValue, rest) := by
  unfold precisionText
  cases hp : p.precision with
  | none =>
    change splitPrecision? rest = some (none, rest)
    unfold splitPrecision?
    split
    · exact absurd (h _ rfl) (by decide)
    · rfl
  | some ds =>
    obtain ⟨hne, hds⟩ := p.precision_digits ds hp
    simp only [List.cons_append, splitPrecision?, Decimal.splitDigits_append hds (h.mono (by decide)).stopsAt]
    simp [hne]

theorem readForm?_chars : readForm? p.form.toList = some (p.form.bind NumberForm.ofChar?) := by
  cases hform : p.form with
  | none => rfl
  | some c =>
    have hall : formLetters.all (fun c => (NumberForm.ofChar? c).isSome) = true := by decide
    obtain ⟨f, hf⟩ := Option.isSome_iff_exists.1 (List.all_eq_true.1 hall c (p.form_real c hform))
    simp [readForm?, hf]

/-- **A written format is read as what its parts ask for.** -/
theorem read?_chars (p : Spec) : read? p.chars = some p.format := by
  have hsign : splitSign p.body = (p.sign, p.fromUnsignedZero) := splitSign_chars _ after_fromUnsignedZero
  have hunsigned : splitMark 'z' p.fromUnsignedZero = (p.unsignedZero, p.fromAlternate) :=
    splitMark_marked _ (after_fromAlternate.mono (by decide))
  have halternate : splitMark '#' p.fromAlternate = (p.alternate, p.fromWidth) :=
    splitMark_marked _ (after_fromWidth.mono (by decide))
  obtain ⟨digits, hzero, hdigits, hvalue⟩ :=
    splitZero_digits p.fill.isNone (fun _ => isDecimal_of_mem_widthChars) p.after_fromGrouping
  have hwidth : Decimal.splitDigits (digits ++ p.fromGrouping) = (digits, p.fromGrouping) :=
    Decimal.splitDigits_append hdigits after_fromGrouping.stopsAt
  have hgrouping : splitGrouping p.fromGrouping = (p.grouping, p.fromPrecision) :=
    splitGrouping_chars _ after_fromPrecision
  have hprecision : splitPrecision? p.fromPrecision = some (p.precision.map Text.digitsValue, p.form.toList) :=
    splitPrecision?_chars after_form
  rw [← fromWidth] at hzero
  simp only [read?, splitFill_chars, hsign, hunsigned, halternate, hzero, hwidth, hgrouping, hprecision, hvalue,
    Option.bind_eq_bind, Option.bind_some, readForm?_chars]
  rfl

theorem isReal_format (p : Spec) : p.format.isReal = true := by
  have hall : formLetters.all (fun c => !(NumberForm.ofChar? c).any NumberForm.isWhole) = true := by decide
  have hform : (p.form.bind NumberForm.ofChar?).any NumberForm.isWhole = false := by
    cases h : p.form with
    | none => rfl
    | some c => simpa using List.all_eq_true.1 hall c (p.form_real c h)
  simp [isReal, format, hform]

theorem mem_chars {c : Char} (hplace : place c = 0) (hmark : Justification.ofChar? c = none) :
    c ∈ p.chars ↔ p.fill = some c := by
  have hbody : c ∉ p.body := fun hc => absurd (place_pos_of_mem_body hc) (by rw [hplace]; decide)
  have hne : ∀ j : Justification, c ≠ j.mark := by
    rintro j rfl
    rw [Justification.ofChar?_mark] at hmark
    cases hmark
  unfold chars fill
  cases p.placing with
  | none => simp [placingText, hbody]
  | some placing =>
    obtain ⟨fill, j⟩ := placing
    cases fill with
    | none => simp [placingText, hbody, hne]
    | some d => simp [placingText, hbody, hne, eq_comm]

/-! ## What is read -/

theorem append_of_splitSign {cs rest : List Char} {sign : SignMark} (h : splitSign cs = (sign, rest)) :
    cs = sign.chars ++ rest := by
  unfold splitSign at h
  split at h <;> (cases h; rfl)

theorem append_of_splitMark {c : Char} {cs rest : List Char} {b : Bool} (h : splitMark c cs = (b, rest)) :
    cs = marked b c ++ rest := by
  unfold splitMark at h
  split at h
  · split at h
    · next hc => cases h; rw [hc]; rfl
    · cases h; rfl
  · cases h; rfl

theorem append_of_splitGrouping {cs rest : List Char} {g : Option Grouping} (h : splitGrouping cs = (g, rest)) :
    cs = groupingText g ++ rest := by
  unfold splitGrouping at h
  split at h <;> (cases h; rfl)

theorem mark_of_ofChar? {c : Char} {j : Justification} (h : Justification.ofChar? c = some j) : j.mark = c := by
  unfold Justification.ofChar? at h
  split at h <;> cases h <;> rfl

theorem append_of_alone {cs rest : List Char} {fill : Option Char} {j : Option Justification}
    (h : splitFill.alone cs = ((fill, j), rest)) : cs = (j.map Justification.mark).toList ++ rest := by
  unfold splitFill.alone at h
  split at h
  · split at h
    · next hj => cases h; simp [mark_of_ofChar? hj]
    · cases h; rfl
  · cases h; rfl

theorem append_of_splitFill {cs rest : List Char} {fill : Option Char} {j : Option Justification}
    (h : splitFill cs = ((fill, j), rest)) : ∃ placing, cs = placingText placing ++ rest := by
  have hplain : splitFill.alone cs = ((fill, j), rest) → ∃ placing, cs = placingText placing ++ rest := by
    intro halone
    obtain rfl := append_of_alone halone
    cases j with
    | none => exact ⟨none, rfl⟩
    | some j => exact ⟨some (none, j), rfl⟩
  unfold splitFill at h
  split at h
  · next c d after =>
    split at h
    · next j' hj =>
      cases h
      exact ⟨some (some c, j'), by simp [placingText, mark_of_ofChar? hj]⟩
    · exact hplain h
  · exact hplain h

theorem append_of_splitPrecision? {cs rest : List Char} {n : Option Nat} (h : splitPrecision? cs = some (n, rest)) :
    ∃ precision, cs = precisionText precision ++ rest ∧
      ∀ ds ∈ precision, ds ≠ [] ∧ ∀ c ∈ ds, Text.isDecimal c = true := by
  unfold splitPrecision? at h
  split at h
  · next after =>
    dsimp only at h
    split at h
    · cases h
    · next hne =>
      cases h
      obtain ⟨hsplit, hdigits⟩ := Decimal.splitDigits_spec after
      refine ⟨some (Decimal.splitDigits after).1, congrArg ('.' :: ·) hsplit, ?_⟩
      rintro ds ⟨⟩
      exact ⟨fun hnil => hne (by rw [hnil]; rfl), hdigits⟩
  · cases h
    exact ⟨none, rfl, nofun⟩

theorem exists_form_of_readForm? {cs : List Char} {form : Option NumberForm} (h : readForm? cs = some form)
    (hreal : form.any NumberForm.isWhole = false) :
    ∃ letter : Option Char, cs = letter.toList ∧ ∀ c ∈ letter, c ∈ formLetters := by
  unfold readForm? at h
  split at h
  · exact ⟨none, rfl, by simp⟩
  · next c =>
    obtain ⟨f, hf, rfl⟩ := Option.map_eq_some_iff.1 h
    refine ⟨some c, rfl, ?_⟩
    rintro _ ⟨⟩
    unfold NumberForm.ofChar? at hf
    split at hf <;> first | decide | (cases hf; cases hreal) | cases hf
  · cases h

/-- **What is read as a format of real numbers is written by the grammar.** -/
theorem exists_spec {cs : List Char} {f : NumberFormat} (h : read? cs = some f) (hreal : f.isReal = true) :
    ∃ p : Spec, p.chars = cs := by
  unfold read? at h
  rcases hfill : splitFill cs with ⟨⟨fill, j⟩, cs₁⟩
  rcases hsign : splitSign cs₁ with ⟨sign, cs₂⟩
  rcases hunsigned : splitMark 'z' cs₂ with ⟨unsignedZero, cs₃⟩
  rcases halternate : splitMark '#' cs₃ with ⟨alternate, cs₄⟩
  rcases hzero : (if fill.isNone then splitMark '0' cs₄ else (false, cs₄)) with ⟨zero, cs₅⟩
  rcases hwidth : Decimal.splitDigits cs₅ with ⟨width, cs₆⟩
  rcases hgrouping : splitGrouping cs₆ with ⟨grouping, cs₇⟩
  simp only [hfill, hsign, hunsigned, halternate, hzero, hwidth, hgrouping, Option.bind_eq_bind] at h
  obtain ⟨⟨n, cs₈⟩, hprecision, h⟩ := Option.bind_eq_some_iff.1 h
  obtain ⟨form, hform, h⟩ := Option.bind_eq_some_iff.1 h
  cases h
  -- what was taken off at every step is put back
  have hdigits : cs₄ = marked zero '0' ++ cs₅ := by
    split at hzero
    · exact append_of_splitMark hzero
    · cases hzero; rfl
  obtain ⟨placing, rfl⟩ := append_of_splitFill hfill
  obtain rfl := append_of_splitSign hsign
  obtain rfl := append_of_splitMark hunsigned
  obtain rfl := append_of_splitMark halternate
  obtain ⟨hwidthText, hwidthDigits⟩ := Decimal.splitDigits_spec cs₅
  rw [hwidth] at hwidthText hwidthDigits
  subst hwidthText
  obtain rfl := append_of_splitGrouping hgrouping
  obtain ⟨precision, rfl, hprecisionDigits⟩ := append_of_splitPrecision? hprecision
  obtain ⟨letter, rfl, hletter⟩ := exists_form_of_readForm? hform (by simpa [isReal] using hreal)
  refine ⟨⟨placing, sign, unsignedZero, alternate, zero, width, grouping, precision, letter, hwidthDigits,
    hprecisionDigits, hletter⟩, ?_⟩
  simp only [chars, body, fromUnsignedZero, fromAlternate, fromWidth, fromGrouping, fromPrecision, widthChars, hdigits,
    List.append_assoc]

end Spec

end NumberFormat

end UnitAlgebra

/-
A JSON value is read back from its text on one line. Numbers are told from whole numbers by a point or a power of ten,
characters beyond ASCII go as one code or two, and no part of a text is nested deeper than the text is long.

Results:
- `readNumber_chars`: a number is read as it is written.
- `readText_texted`: a text is read back from its codes.
- `read?_write`: a value whose objects have distinct keys is read back.
-/
import Mathlib
import UnitAlgebra.Interchange.JsonValue
import UnitAlgebra.Proofs.Decimal.Written
import UnitAlgebra.Proofs.Tensor.Rows

namespace UnitAlgebra.JsonValue

open Decimal (EndsNumber Parted)
open Text (digitsValue StopsAt)

/-! ## Numbers -/

theorem stopsAt_isDigit {rest : List Char} (h : StopsAt Text.isDecimal rest) : StopsAt Char.isDigit rest := by
  intro c hc
  have hdecimal := h c hc
  rw [← Bool.not_eq_true] at hdecimal ⊢
  exact mt Text.isDecimal_of_isDigit hdecimal

theorem splitDigits_run {ds rest : List Char} (hds : ∀ c ∈ ds, c.isDigit = true) (hrest : StopsAt Char.isDigit rest) :
    splitDigits (ds ++ rest) = (ds, rest) := by
  rw [splitDigits, Text.takeWhile_run hds hrest, Text.dropWhile_run hds hrest]

theorem readDigits_run {ds rest : List Char} (hds : ∀ c ∈ ds, c.isDigit = true) (hne : ds ≠ [])
    (hleading : ds = ['0'] ∨ ds.head? ≠ some '0') (hrest : StopsAt Char.isDigit rest) :
    readDigits (ds ++ rest) = some (ds, rest) := by
  rcases hleading with rfl | hhead
  · rfl
  · have hsame : (ds ++ rest).head? = ds.head? := List.head?_append_of_ne_nil _ hne
    unfold readDigits
    split
    · next heq =>
      rw [heq] at hsame
      exact absurd hsame.symm hhead
    · rw [splitDigits_run hds hrest]
      simp [hne]

theorem splitFraction_run {ds rest : List Char} (hds : ∀ c ∈ ds, c.isDigit = true) (hrest : StopsAt Char.isDigit rest)
    (hpoint : '.' ∉ rest.head?) :
    splitFraction ((if ds.isEmpty then [] else '.' :: ds) ++ rest) = (ds, rest) := by
  cases ds with
  | nil =>
    simp only [List.isEmpty_nil, if_true, List.nil_append]
    unfold splitFraction
    split
    · exact absurd rfl hpoint
    · rfl
  | cons d ds =>
    have hrun : splitDigits (d :: (ds ++ rest)) = (d :: ds, rest) := splitDigits_run hds hrest
    simp only [List.isEmpty_cons, Bool.false_eq_true, if_false, List.cons_append, splitFraction, hrun]

theorem splitPower_powerText (power : Option Int) {rest : List Char} (h : EndsNumber rest) :
    splitPower (Parted.powerText power ++ rest) = (power, rest) := by
  cases power with
  | none =>
    cases rest with
    | nil => rfl
    | cons c rest =>
      obtain ⟨-, -, he, hE⟩ := h c rfl
      simp [Parted.powerText, splitPower, he, hE]
  | some e =>
    obtain ⟨ds, htext, hdigit, hne, hvalue⟩ := Decimal.exists_exponentText e
    have hrun := splitDigits_run hdigit (stopsAt_isDigit h.stopsAt)
    have hempty : ds.isEmpty = false := by simp [hne]
    by_cases he : e < 0
    · have hsign : Decimal.splitSign ('-' :: (ds ++ rest)) = (true, ds ++ rest) := rfl
      simp only [Parted.powerText, htext, he, if_true, List.cons_append, splitPower, true_or, hsign, hrun, hempty,
        Bool.false_eq_true, if_false, hvalue]
      congr 2
      omega
    · have hsign : Decimal.splitSign ('+' :: (ds ++ rest)) = (false, ds ++ rest) := rfl
      simp only [Parted.powerText, htext, he, if_true, List.cons_append, splitPower, true_or, hsign, hrun, hempty,
        Bool.false_eq_true, if_false, hvalue]
      congr 2
      omega

/-- A number is read as it is written: as a whole number, if it has neither fraction nor power of ten. -/
theorem readNumber_chars (negative : Bool) {p : Parted} (hp : p.IsPlain) {rest : List Char} (h : EndsNumber rest) :
    readNumber ((if negative then ['-'] else []) ++ (p.chars ++ rest)) =
      if p.isWhole then
        if Decimal.integerDigitLimit < p.whole.length then none
        else some (integer (if negative then -(digitsValue p.whole : Int) else digitsValue p.whole), rest)
      else some (number
        (if negative then -Decimal.toFloat p.digits p.exponent else Decimal.toFloat p.digits p.exponent), rest) := by
  -- the runs of which the number consists
  have hpower := splitPower_powerText p.power h
  have htail : StopsAt Char.isDigit (Parted.powerText p.power ++ rest) ∧
      '.' ∉ (Parted.powerText p.power ++ rest).head? := by
    cases p.power with
    | none => exact ⟨stopsAt_isDigit h.stopsAt, fun hc => (h _ hc).2.1 rfl⟩
    | some e => exact ⟨Text.stopsAt_cons.2 (by decide), by rintro ⟨⟩⟩
  have hfraction := splitFraction_run (fun c hc => hp.digit c (List.mem_append_right _ hc)) htail.1 htail.2
  have hpoint : StopsAt Char.isDigit
      ((if p.fraction.isEmpty then [] else '.' :: p.fraction) ++ (Parted.powerText p.power ++ rest)) := by
    split
    · exact htail.1
    · exact Text.stopsAt_cons.2 (by decide)
  have hwhole := readDigits_run (fun c hc => hp.digit c (List.mem_append_left _ hc)) hp.whole_ne_nil hp.leading hpoint
  have hchars : p.chars ++ rest =
      p.whole ++ ((if p.fraction.isEmpty then [] else '.' :: p.fraction) ++ (Parted.powerText p.power ++ rest)) := by
    rw [Parted.chars, List.append_assoc, List.append_assoc]
  rw [← hchars] at hwhole
  obtain ⟨c, cs, hhead, hdigit⟩ := hp.exists_head
  have hunsigned : ∀ after, p.chars ++ rest ≠ '-' :: after := by
    intro after heq
    rw [hhead] at heq
    exact Text.ne_of_isDigit hdigit rfl (List.cons.inj heq).1
  cases negative with
  | true =>
    simp only [if_true, List.cons_append, List.nil_append]
    unfold readNumber
    simp only [hwhole, Option.bind_eq_bind, Option.bind_some, hfraction, hpower, Option.pure_def, if_true]
    rfl
  | false =>
    simp only [Bool.false_eq_true, if_false, List.nil_append]
    unfold readNumber
    simp only [hwhole, Option.bind_eq_bind, Option.bind_some, hfraction, hpower, Option.pure_def, Bool.false_eq_true,
      if_false]
    rfl

/-! ## Texts that read as values -/

/-- a text begins as a value does: with neither a blank nor a bracket that ends a list -/
def Begins (cs : List Char) : Prop := ∃ c rest, cs = c :: rest ∧ isBlank c = false ∧ c ≠ ']'

/-- a text reads as a value, with anything behind it that cannot belong to a number -/
structure Reads (x : JsonValue) (cs : List Char) : Prop where
  begins : Begins cs
  readValue : ∀ {fuel rest}, cs.length ≤ fuel → EndsNumber rest → readValue fuel (cs ++ rest) = some (x, rest)

theorem Begins.append {cs : List Char} (h : Begins cs) (rest : List Char) : Begins (cs ++ rest) := by
  obtain ⟨c, cs, rfl, hc⟩ := h
  exact ⟨c, cs ++ rest, rfl, hc⟩

theorem Begins.fuel_ne_zero {cs : List Char} (h : Begins cs) {fuel : Nat} (hfuel : cs.length ≤ fuel) : fuel ≠ 0 := by
  obtain ⟨c, cs, rfl, -⟩ := h
  rw [List.length_cons] at hfuel
  omega

theorem Begins.skipBlanks {cs : List Char} (h : Begins cs) : skipBlanks cs = cs := by
  obtain ⟨c, cs, rfl, hc, -⟩ := h
  rw [JsonValue.skipBlanks, List.dropWhile_cons_of_neg (by rw [hc]; exact Bool.false_ne_true)]

theorem begins_digit {c : Char} (h : c.isDigit = true) (rest : List Char) : Begins (c :: rest) := by
  have hne (d : Char) (hd : d.isDigit = false) : c ≠ d := Text.ne_of_isDigit h hd
  refine ⟨c, rest, rfl, ?_, hne ']' rfl⟩
  simp [isBlank, hne ' ' rfl, hne '\t' rfl, hne '\n' rfl, hne '\r' rfl]

theorem begins_chars (negative : Bool) {p : Parted} (hp : p.IsPlain) :
    Begins ((if negative then ['-'] else []) ++ p.chars) := by
  obtain ⟨c, cs, hchars, hdigit⟩ := hp.exists_head
  rw [hchars]
  cases negative with
  | true => exact ⟨'-', c :: cs, rfl, rfl, by decide⟩
  | false => exact begins_digit hdigit cs

/-- what is neither a text nor in brackets is a word or a number -/
theorem readValue_scalar (fuel : Nat) {c : Char} (cs : List Char) (h : c ≠ '"' ∧ c ≠ '[' ∧ c ≠ '\x7b') :
    readValue (fuel + 1) (c :: cs) = (readWord (c :: cs) <|> readNumber (c :: cs)) := by
  obtain ⟨htext, hlist, hobject⟩ := h
  simp [JsonValue.readValue, htext, hlist, hobject]

theorem reads_word {word : String} {x : JsonValue} (h : (word, x) ∈ words) : Reads x word.toList := by
  simp only [words, List.mem_cons, Prod.mk.injEq, List.not_mem_nil, or_false] at h
  rcases h with ⟨rfl, rfl⟩ | ⟨rfl, rfl⟩ | ⟨rfl, rfl⟩ | ⟨rfl, rfl⟩ | ⟨rfl, rfl⟩ | ⟨rfl, rfl⟩
  all_goals
    refine ⟨⟨_, _, rfl, rfl, by decide⟩, fun {fuel rest} hfuel _ => ?_⟩
    cases fuel with
    | zero => cases hfuel
    | succ fuel => rfl

theorem readWord_digit {c : Char} (h : c.isDigit = true) (cs : List Char) :
    readWord (c :: cs) = none ∧ readWord ('-' :: c :: cs) = none := by
  have hne (d : Char) (hd : d.isDigit = false) : d ≠ c := (Text.ne_of_isDigit h hd).symm
  simp [readWord, words, Text.after?, hne 'n' rfl, hne 't' rfl, hne 'f' rfl, hne 'N' rfl, hne 'I' rfl, hne '-' rfl]

theorem readValue_chars (negative : Bool) {p : Parted} (hp : p.IsPlain) {rest : List Char} {fuel : Nat}
    (hfuel : fuel ≠ 0) : readValue fuel ((if negative then ['-'] else []) ++ (p.chars ++ rest)) =
      readNumber ((if negative then ['-'] else []) ++ (p.chars ++ rest)) := by
  obtain ⟨fuel, rfl⟩ := Nat.exists_eq_succ_of_ne_zero hfuel
  obtain ⟨c, cs, hchars, hdigit⟩ := hp.exists_head
  have hne (d : Char) (hd : d.isDigit = false) : c ≠ d := Text.ne_of_isDigit hdigit hd
  rw [hchars]
  cases negative with
  | true =>
    have hword : readWord ('-' :: c :: (cs ++ rest)) = none := (readWord_digit hdigit _).2
    simp only [if_true, List.cons_append, List.nil_append]
    rw [readValue_scalar fuel _ (by decide), hword]
    rfl
  | false =>
    have hword : readWord (c :: (cs ++ rest)) = none := (readWord_digit hdigit _).1
    simp only [Bool.false_eq_true, if_false, List.cons_append, List.nil_append]
    rw [readValue_scalar fuel _ ⟨hne '"' rfl, hne '[' rfl, hne '\x7b' rfl⟩, hword]
    rfl

theorem reads_number {x : Float} {s : String} (h : numberText .plain x = .ok s) : Reads (number x) s.toList := by
  by_cases hnan : x.isNaN = true
  · have htext : numberText .plain x = .ok "NaN" := by
      rw [numberText, Binary64.isFinite_eq, hnan]
      rfl
    rw [htext] at h
    cases h
    rw [Binary64.eq_nan hnan]
    exact reads_word (by simp [words])
  · rw [Bool.not_eq_true] at hnan
    by_cases hinf : x.isInf = true
    · have hvalue := Binary64.eq_infinity hnan hinf
      have htexts : numberText .plain (-Binary64.infinity) = .ok "-Infinity" ∧
          numberText .plain Binary64.infinity = .ok "Infinity" := ⟨rfl, rfl⟩
      cases hneg : Binary64.isNegative x with
      | true =>
        simp only [hneg, if_true] at hvalue
        rw [hvalue, htexts.1] at h
        cases h
        rw [hvalue]
        exact reads_word (by simp [words])
      | false =>
        simp only [hneg, Bool.false_eq_true, if_false] at hvalue
        rw [hvalue, htexts.2] at h
        cases h
        rw [hvalue]
        exact reads_word (by simp [words])
    · rw [Bool.not_eq_true] at hinf
      obtain ⟨p, hplain, hwhole, htext, hvalue⟩ := Decimal.exists_parted hnan hinf
      have hfinite : numberText .plain x = .ok (Decimal.text x) := by
        rw [numberText, Binary64.isFinite_eq, hnan, hinf]
        rfl
      rw [hfinite] at h
      cases h
      rw [htext]
      have hbegins := begins_chars (Binary64.isNegative x) hplain
      refine ⟨hbegins, fun {fuel rest} hfuel hrest => ?_⟩
      rw [List.append_assoc, readValue_chars _ hplain (hbegins.fuel_ne_zero hfuel), readNumber_chars _ hplain hrest,
        hwhole, hvalue]
      rfl

/-- the digits of a natural as a decimal -/
def wholeParted (n : Nat) : Parted := ⟨Nat.toDigits 10 n, [], none⟩

theorem isPlain_wholeParted (n : Nat) : (wholeParted n).IsPlain where
  digit c hc := by
    rw [wholeParted, List.append_nil] at hc
    exact Exponent.isDigit_of_mem_toDigits hc
  whole_ne_nil := Nat.toDigits_ne_nil
  leading := by
    by_cases hn : n = 0
    · rw [hn]
      exact .inl rfl
    · exact .inr (Text.head?_toDigits hn)

theorem reads_integer {n : Int} {s : String} (h : integerText n = .ok s) : Reads (integer n) s.toList := by
  have hchars : (Exponent.decimal n).toList =
      (if decide (n < 0) then ['-'] else []) ++ (wholeParted n.natAbs).chars := by
    rw [Exponent.decimal, String.toList_ofList, Exponent.decimalDigits]
    by_cases hn : n < 0 <;> simp [hn, wholeParted, Parted.chars, Parted.powerText]
  simp only [integerText] at h
  by_cases hlimit : Decimal.integerDigitLimit + (if n < 0 then 1 else 0) < (Exponent.decimal n).length
  · rw [if_pos hlimit] at h
    cases h
  · rw [if_neg hlimit] at h
    cases h
    have hplain := isPlain_wholeParted n.natAbs
    have hbegins := begins_chars (decide (n < 0)) hplain
    have hshort : ¬Decimal.integerDigitLimit < (wholeParted n.natAbs).whole.length := by
      rw [← String.length_toList, hchars, List.length_append] at hlimit
      have hwhole : (wholeParted n.natAbs).chars = (wholeParted n.natAbs).whole := by
        simp [wholeParted, Parted.chars, Parted.powerText]
      rw [hwhole] at hlimit
      by_cases hn : n < 0 <;> simp only [hn, decide_true, decide_false, Bool.false_eq_true, if_true, if_false,
        List.length_singleton, List.length_nil] at hlimit <;> omega
    have hvalue : digitsValue (wholeParted n.natAbs).whole = n.natAbs := Text.digitsValue_toDigits _
    have hsigned : (if decide (n < 0) then -(n.natAbs : Int) else n.natAbs) = n := by
      by_cases hn : n < 0 <;> simp only [hn, decide_true, decide_false, Bool.false_eq_true, if_true, if_false] <;> omega
    rw [hchars]
    refine ⟨hbegins, fun {fuel rest} hfuel hrest => ?_⟩
    rw [List.append_assoc, readValue_chars _ hplain (hbegins.fuel_ne_zero hfuel), readNumber_chars _ hplain hrest,
      if_neg hshort, hvalue, hsigned]
    rfl

/-! ## Codes of characters -/

theorem hexDigit?_digitChar {k : Nat} (h : k < 16) : hexDigit? (Nat.digitChar k) = some k := by
  have all : ∀ k < 16, hexDigit? (Nat.digitChar k) = some k := by decide
  exact all k h

theorem hexValue?_append (as bs : List Char) :
    hexValue? (as ++ bs) = (hexValue? as).bind fun n => bs.foldlM (fun n c => (hexDigit? c).map (16 * n + ·)) n :=
  List.foldlM_append

theorem hexValue?_toDigits (n : Nat) : hexValue? (Nat.toDigits 16 n) = some n := by
  induction n using Nat.strongRecOn with
  | _ n ih =>
    by_cases hn : n < 16
    · rw [Nat.toDigits_of_lt_base hn, hexValue?, List.foldlM_cons, hexDigit?_digitChar hn]
      simp
    · have hlast := hexDigit?_digitChar (Nat.mod_lt n (by decide : 16 > 0))
      rw [Nat.toDigits_of_base_le (by decide) (Nat.not_lt.1 hn), hexValue?_append, ih (n / 16) (by omega),
        Option.bind_some, List.foldlM_cons, hlast]
      simp only [Option.map_some, Option.bind_eq_bind, Option.bind_some, List.foldlM_nil, Option.pure_def]
      congr 1
      omega

theorem hexValue?_hexPadded (width n : Nat) : hexValue? (Text.hexPadded width n) = some n := by
  have hzeros : ∀ k, hexValue? (List.replicate k '0') = some 0 := by
    intro k
    induction k with
    | zero => rfl
    | succ k ih =>
      rw [List.replicate_succ', hexValue?_append, ih]
      rfl
  rw [Text.hexPadded, hexValue?_append, hzeros, Option.bind_some]
  exact hexValue?_toDigits n

theorem exists_four_of_length {l : List Char} (h : l.length = 4) : ∃ a b c d, l = [a, b, c, d] := by
  obtain _ | ⟨a, _ | ⟨b, _ | ⟨c, _ | ⟨d, _ | ⟨e, l⟩⟩⟩⟩⟩ := l
  case cons.cons.cons.cons.nil => exact ⟨a, b, c, d, rfl⟩
  all_goals simp at h

/-- a code of four hexadecimal digits is read -/
theorem readUnits_codeText {n : Nat} (h : n < 0x10000) (cs : List Char) :
    readUnits (codeText n ++ cs) = (readUnits cs).map fun r => (n :: r.1, r.2) := by
  have hlength : (Text.hexPadded 4 n).length = 4 := by
    have hle : (Nat.toDigits 16 n).length ≤ 4 := (Nat.length_toDigits_le_iff (by decide) (by decide)).2 h
    rw [Text.hexPadded, List.length_append, List.length_replicate]
    omega
  have hvalue := hexValue?_hexPadded 4 n
  obtain ⟨a, b, c, d, hdigits⟩ := exists_four_of_length hlength
  rw [hdigits] at hvalue
  simp only [codeText, hdigits, List.cons_append, List.nil_append, readUnits, hvalue]
  cases readUnits cs <;> rfl

theorem readUnits_letter {letter e : Char} (h : escapes.find? (·.1 = letter) = some (letter, e)) (hu : letter ≠ 'u')
    (cs : List Char) : readUnits ('\\' :: letter :: cs) = (readUnits cs).map fun r => (e.toNat :: r.1, r.2) := by
  have hother : ∀ a b c d rest, letter = 'u' → cs = a :: b :: c :: d :: rest → False := fun _ _ _ _ _ heq _ => hu heq
  rw [readUnits.eq_3 letter cs hother, h]
  cases readUnits cs <;> rfl

theorem readUnits_plain {c : Char} (hquote : c ≠ '"') (hslash : c ≠ '\\') (hcode : 32 ≤ c.toNat) (cs : List Char) :
    readUnits (c :: cs) = (readUnits cs).map fun r => (c.toNat :: r.1, r.2) := by
  have hcode' : ¬c.toNat < 32 := Nat.not_lt.2 hcode
  rw [readUnits.eq_4 c cs hquote (fun _ _ _ _ _ heq _ => hslash heq) (fun _ _ heq _ => hslash heq), if_neg hcode']
  cases readUnits cs <;> rfl

/-- the codes of a character: two beyond sixteen bits -/
def units (c : Char) : List Nat :=
  if c.toNat < 0x10000 then [c.toNat]
  else [0xD800 + (c.toNat - 0x10000) / 0x400, 0xDC00 + (c.toNat - 0x10000) % 0x400]

/-- characters are not halves of characters -/
theorem toNat_bounds (c : Char) : c.toNat < 0x110000 ∧ (c.toNat < 0xD800 ∨ 0xE000 ≤ c.toNat) := by
  have hvalid : c.toNat < 0xD800 ∨ 0xDFFF < c.toNat ∧ c.toNat < 0x110000 := c.valid
  omega

theorem readUnits_charText (c : Char) (cs : List Char) :
    readUnits (charText true c ++ cs) = (readUnits cs).map fun r => (units c ++ r.1, r.2) := by
  unfold charText
  split
  · next letter e hfound =>
    have hc : e = c := by simpa using List.find?_some hfound
    subst hc
    have hmem := List.mem_of_find?_eq_some hfound
    simp only [escapes, List.mem_filter, List.mem_cons, Prod.mk.injEq, List.not_mem_nil, or_false] at hmem
    rcases hmem with ⟨h | h | h | h | h | h | h | h, hslash⟩
    all_goals
      obtain ⟨rfl, rfl⟩ := h
      first
        | exact absurd hslash (by decide)
        | exact readUnits_letter (by decide) (by decide) cs
  · next hfound =>
    have hne (d letter : Char) (hd : (letter, d) ∈ escapes.filter (·.1 ≠ '/')) : c ≠ d := by
      rintro rfl
      exact absurd (List.find?_eq_none.1 hfound _ hd) (by simp)
    have hquote : c ≠ '"' := hne '"' '"' (by decide)
    have hslash : c ≠ '\\' := hne '\\' '\\' (by decide)
    obtain ⟨hlt, hhalf⟩ := toNat_bounds c
    simp only [true_and]
    split
    · split
      · next hshort =>
        rw [readUnits_codeText hshort, units, if_pos hshort]
        rfl
      · next hlong =>
        rw [List.append_assoc, readUnits_codeText (by omega), readUnits_codeText (by omega), units, if_neg hlong,
          Option.map_map]
        rfl
    · next hplain =>
      have hshort : c.toNat < 0x10000 := by omega
      rw [units, if_pos hshort]
      exact readUnits_plain hquote hslash (by omega) cs

/-- a code that is no half of a character stands for itself -/
theorem joined_code {n : Nat} (h : n < 0xD800 ∨ 0xDC00 ≤ n) (codes : List Nat) :
    joined (n :: codes) = charOf n :: joined codes := by
  cases codes with
  | nil => rfl
  | cons m codes =>
    have hno : ¬(0xD800 ≤ n ∧ n < 0xDC00 ∧ 0xDC00 ≤ m ∧ m < 0xE000) := by omega
    rw [joined, if_neg hno]

theorem joined_units (cs : List Char) : joined (cs.flatMap units) = cs := by
  induction cs with
  | nil => rfl
  | cons c cs ih =>
    obtain ⟨hlt, hhalf⟩ := toNat_bounds c
    rw [List.flatMap_cons, units]
    split
    · next hshort =>
      have hchar : charOf c.toNat = c := by
        have hvalid : c.toNat.isValidChar := c.valid
        rw [charOf, if_pos hvalid, Char.ofNat_toNat]
      rw [List.singleton_append, joined_code (by omega), hchar, ih]
    · next hlong =>
      have hhalves : 0xD800 ≤ 0xD800 + (c.toNat - 0x10000) / 0x400 ∧ 0xD800 + (c.toNat - 0x10000) / 0x400 < 0xDC00 ∧
          0xDC00 ≤ 0xDC00 + (c.toNat - 0x10000) % 0x400 ∧ 0xDC00 + (c.toNat - 0x10000) % 0x400 < 0xE000 := by omega
      have hcode : 0x10000 + (0xD800 + (c.toNat - 0x10000) / 0x400 - 0xD800) * 0x400 +
          (0xDC00 + (c.toNat - 0x10000) % 0x400 - 0xDC00) = c.toNat := by omega
      rw [List.cons_append, List.singleton_append, joined, if_pos hhalves, hcode, Char.ofNat_toNat, ih]

theorem readText_texted (s : String) (rest : List Char) :
    readText (s.toList.flatMap (charText true) ++ '"' :: rest) = some (s, rest) := by
  have hunits : ∀ cs : List Char,
      readUnits (cs.flatMap (charText true) ++ '"' :: rest) = some (cs.flatMap units, rest) := by
    intro cs
    induction cs with
    | nil => rfl
    | cons c cs ih =>
      rw [List.flatMap_cons, List.append_assoc, readUnits_charText, ih]
      rfl
  rw [readText, hunits]
  simp only [Option.map_some, joined_units, String.ofList_toList]

theorem toList_textText (s : String) :
    (textText .plain s).toList = '"' :: (s.toList.flatMap (charText true) ++ ['"']) := by
  rw [textText, String.toList_ofList]
  rfl

theorem reads_text (s : String) : Reads (text s) (textText .plain s).toList := by
  rw [toList_textText]
  refine ⟨⟨_, _, rfl, rfl, by decide⟩, fun {fuel rest} hfuel _ => ?_⟩
  cases fuel with
  | zero => cases hfuel
  | succ fuel =>
    have hread := readText_texted s rest
    simp only [List.cons_append, List.append_assoc, List.nil_append, JsonValue.readValue, hread, Option.map_some]

/-! ## Lists -/

/-- a text reads as the elements of a list, with the bracket behind it that ends the list -/
structure ReadsAll (xs : List JsonValue) (cs : List Char) : Prop where
  begins : Begins cs
  readElements : ∀ {fuel rest}, cs.length < fuel → readElements fuel (cs ++ ']' :: rest) = some (xs, rest)

theorem endsNumber_mark (rest : List Char) :
    EndsNumber (',' :: rest) ∧ EndsNumber (']' :: rest) ∧ EndsNumber ('\x7d' :: rest) :=
  ⟨Decimal.endsNumber_cons rest (by decide), Decimal.endsNumber_cons rest (by decide +kernel),
    Decimal.endsNumber_cons rest (by decide)⟩

variable {x : JsonValue} {xs : List JsonValue} {cs ds : List Char}

theorem Reads.single (h : Reads x cs) : ReadsAll [x] cs where
  begins := h.begins
  readElements {fuel rest} hfuel := by
    obtain ⟨fuel, rfl⟩ : ∃ k, fuel = k + 1 := ⟨fuel - 1, by omega⟩
    have hread := h.readValue (show cs.length ≤ fuel by omega) (endsNumber_mark rest).2.1
    rw [JsonValue.readElements, hread]
    rfl

theorem Reads.cons (h : Reads x cs) (hs : ReadsAll xs ds) : ReadsAll (x :: xs) (cs ++ ',' :: ' ' :: ds) where
  begins := h.begins.append _
  readElements {fuel rest} hfuel := by
    rw [List.length_append, List.length_cons, List.length_cons] at hfuel
    obtain ⟨fuel, rfl⟩ : ∃ k, fuel = k + 1 := ⟨fuel - 1, by omega⟩
    have hread := h.readValue (show cs.length ≤ fuel by omega) (endsNumber_mark (' ' :: (ds ++ ']' :: rest))).1
    have hskip : skipBlanks (' ' :: (ds ++ ']' :: rest)) = ds ++ ']' :: rest := by
      rw [skipBlanks_blank rfl, (hs.begins.append _).skipBlanks]
    have helements : JsonValue.readElements fuel (ds ++ ']' :: rest) = some (xs, rest) := hs.readElements (by omega)
    rw [JsonValue.readElements, List.append_assoc, List.cons_append, List.cons_append, hread]
    change (JsonValue.readElements fuel (skipBlanks (' ' :: (ds ++ ']' :: rest)))).bind
      (fun r => some (x :: r.1, r.2)) = _
    rw [hskip, helements]
    rfl

theorem reads_nil : Reads (list []) ['[', ']'] where
  begins := ⟨_, _, rfl, rfl, by decide⟩
  readValue {fuel rest} hfuel _ := by
    cases fuel with
    | zero => cases hfuel
    | succ fuel => rfl

theorem ReadsAll.reads (h : ReadsAll xs cs) : Reads (list xs) ('[' :: (cs ++ [']'])) where
  begins := ⟨_, _, rfl, rfl, by decide⟩
  readValue {fuel rest} hfuel _ := by
    rw [List.length_cons, List.length_append, List.length_singleton] at hfuel
    obtain ⟨fuel, rfl⟩ : ∃ k, fuel = k + 1 := ⟨fuel - 1, by omega⟩
    have helements : JsonValue.readElements fuel (cs ++ ']' :: rest) = some (xs, rest) := h.readElements (by omega)
    have hskip := (h.begins.append (']' :: rest)).skipBlanks
    obtain ⟨c, cs', hcs, hblank, hbracket⟩ := h.begins.append (']' :: rest)
    rw [List.cons_append, List.append_assoc, List.singleton_append, JsonValue.readValue, hskip]
    split
    · next heq =>
      rw [hcs] at heq
      exact absurd (List.cons.inj heq).1 hbracket
    · rw [helements]
      rfl

/-! ## Objects -/

/-- a key with its value behind it -/
def entryText (key : String) (cs : List Char) : List Char := (textText .plain key).toList ++ ':' :: ' ' :: cs

/-- a text reads as the entries of an object, with the brace behind it that ends the object -/
structure ReadsEntries (entries : List (String × JsonValue)) (cs : List Char) : Prop where
  begins : Begins cs
  isKey : cs.head? = some '"'
  readEntries : ∀ {fuel rest}, cs.length < fuel → readEntries fuel (cs ++ '\x7d' :: rest) = some (entries, rest)

variable {entries : List (String × JsonValue)}

theorem begins_entryText (key : String) (cs : List Char) :
    Begins (entryText key cs) ∧ (entryText key cs).head? = some '"' := by
  rw [entryText, toList_textText]
  exact ⟨⟨_, _, rfl, rfl, by decide⟩, rfl⟩

theorem readEntries_entry (h : Reads x cs) (key : String) {fuel : Nat} (hfuel : cs.length ≤ fuel) (rest : List Char) :
    readEntries (fuel + 1) (entryText key cs ++ '\x7d' :: rest) = some ([(key, x)], rest) ∧
    readEntries (fuel + 1) (entryText key cs ++ ',' :: rest) =
      (readEntries fuel (skipBlanks rest)).map fun r => ((key, x) :: r.1, r.2) := by
  have hkey (tail : List Char) := readText_texted key (':' :: ' ' :: (cs ++ tail))
  have hblank (tail : List Char) : skipBlanks (' ' :: (cs ++ tail)) = cs ++ tail := by
    rw [skipBlanks_blank rfl, (h.begins.append tail).skipBlanks]
  have hcolon (tail : List Char) : skipBlanks (':' :: tail) = ':' :: tail := rfl
  obtain ⟨hcomma, -, hbrace⟩ := endsNumber_mark rest
  have hlast := h.readValue hfuel hbrace
  have hmore := h.readValue hfuel hcomma
  constructor
  · simp only [entryText, toList_textText, List.cons_append, List.append_assoc, List.nil_append,
      JsonValue.readEntries, hkey, Option.bind_eq_bind, Option.bind_some, hcolon, hblank, hlast]
    rfl
  · simp only [entryText, toList_textText, List.cons_append, List.append_assoc, List.nil_append,
      JsonValue.readEntries, hkey, Option.bind_eq_bind, Option.bind_some, hcolon, hblank, hmore]
    change (JsonValue.readEntries fuel (skipBlanks rest)).bind (fun r => some ((key, x) :: r.1, r.2)) = _
    cases JsonValue.readEntries fuel (skipBlanks rest) <;> rfl

theorem Reads.entry (h : Reads x cs) (key : String) : ReadsEntries [(key, x)] (entryText key cs) where
  begins := (begins_entryText key cs).1
  isKey := (begins_entryText key cs).2
  readEntries {fuel rest} hfuel := by
    rw [entryText, List.length_append, List.length_cons, List.length_cons] at hfuel
    obtain ⟨fuel, rfl⟩ : ∃ k, fuel = k + 1 := ⟨fuel - 1, by omega⟩
    exact (readEntries_entry h key (by omega) rest).1

theorem Reads.moreEntries (h : Reads x cs) (key : String) (hs : ReadsEntries entries ds) :
    ReadsEntries ((key, x) :: entries) (entryText key cs ++ ',' :: ' ' :: ds) where
  begins := (begins_entryText key cs).1.append _
  isKey := by
    rw [List.head?_append_of_ne_nil _ (by rw [entryText]; simp)]
    exact (begins_entryText key cs).2
  readEntries {fuel rest} hfuel := by
    have hlength : (entryText key cs).length = (textText .plain key).toList.length + (cs.length + 2) := by
      rw [entryText, List.length_append, List.length_cons, List.length_cons]
    rw [List.length_append, List.length_cons, List.length_cons, hlength] at hfuel
    obtain ⟨fuel, rfl⟩ : ∃ k, fuel = k + 1 := ⟨fuel - 1, by omega⟩
    have hskip : skipBlanks (' ' :: (ds ++ '\x7d' :: rest)) = ds ++ '\x7d' :: rest := by
      rw [skipBlanks_blank rfl, (hs.begins.append _).skipBlanks]
    have hmore : JsonValue.readEntries fuel (ds ++ '\x7d' :: rest) = some (entries, rest) := hs.readEntries (by omega)
    rw [List.append_assoc, List.cons_append, List.cons_append,
      (readEntries_entry h key (show cs.length ≤ fuel by omega) _).2, hskip, hmore]
    rfl

/-- entries under keys that differ stay as they are -/
theorem merged_of_nodup (h : (entries.map Prod.fst).Nodup) : merged entries = entries := by
  have hput : ∀ (es d : List (String × JsonValue)), ((d ++ es).map Prod.fst).Nodup →
      es.foldl (fun d e => Directory.put d e.1 e.2) d = d ++ es := by
    intro es
    induction es with
    | nil => intro d _; exact (List.append_nil d).symm
    | cons e es ih =>
      intro d hd
      have hnone : Directory.find? d e.1 = none := by
        rw [List.map_append, List.nodup_append] at hd
        rw [Directory.find?, Option.map_eq_none_iff, List.find?_eq_none]
        intro e' he'
        rw [decide_eq_true_eq]
        exact hd.2.2 _ (List.mem_map_of_mem he') _ List.mem_cons_self
      have hnew : Directory.put d e.1 e.2 = d ++ [e] := by
        rw [Directory.put, hnone]
        rfl
      rw [List.foldl_cons, hnew, ih]
      · rw [List.append_assoc, List.singleton_append]
      · rwa [List.append_assoc, List.singleton_append]
  exact hput entries [] h

theorem reads_empty : Reads (object []) ['\x7b', '\x7d'] where
  begins := ⟨_, _, rfl, rfl, by decide⟩
  readValue {fuel rest} hfuel _ := by
    cases fuel with
    | zero => cases hfuel
    | succ fuel => rfl

theorem ReadsEntries.reads (h : ReadsEntries entries cs) (hkeys : (entries.map Prod.fst).Nodup) :
    Reads (object entries) ('\x7b' :: (cs ++ ['\x7d'])) where
  begins := ⟨_, _, rfl, rfl, by decide⟩
  readValue {fuel rest} hfuel _ := by
    rw [List.length_cons, List.length_append, List.length_singleton] at hfuel
    obtain ⟨fuel, rfl⟩ : ∃ k, fuel = k + 1 := ⟨fuel - 1, by omega⟩
    have hentries : JsonValue.readEntries fuel (cs ++ '\x7d' :: rest) = some (entries, rest) :=
      h.readEntries (by omega)
    have hskip := (h.begins.append ('\x7d' :: rest)).skipBlanks
    have hkey := h.isKey
    obtain ⟨c, cs', rfl, -⟩ := h.begins
    rw [List.cons_append, List.append_assoc, List.singleton_append, JsonValue.readValue, hskip]
    split
    · next heq =>
      rw [List.cons_append] at heq
      rw [List.head?_cons, (List.cons.inj heq).1] at hkey
      cases hkey
    · simp only [hentries, Option.map_some, merged_of_nodup hkeys]

/-! ## Values -/

mutual

/-- all objects in a value have distinct keys -/
def Keyed : JsonValue → Prop
  | list xs => KeyedAll xs
  | object entries => (entries.map Prod.fst).Nodup ∧ KeyedEntries entries
  | _ => True

def KeyedAll : List JsonValue → Prop
  | [] => True
  | x :: xs => Keyed x ∧ KeyedAll xs

def KeyedEntries : List (String × JsonValue) → Prop
  | [] => True
  | (_, x) :: entries => Keyed x ∧ KeyedEntries entries

end

theorem bracketed_plain (level : Nat) (opening closing : String) (parts : List String) :
    (bracketed .plain level opening closing parts).toList =
      opening.toList ++ ((", ".intercalate parts).toList ++ closing.toList) := by
  cases parts with
  | nil => simp [bracketed]
  | cons p parts => simp [bracketed, Style.plain]

theorem toList_intercalate (p q : String) (parts : List String) : (", ".intercalate (p :: q :: parts)).toList =
    p.toList ++ ',' :: ' ' :: (", ".intercalate (q :: parts)).toList := by
  rw [String.intercalate_cons_cons, String.toList_append, String.toList_append, List.append_assoc]
  rfl

mutual

theorem reads_write {x : JsonValue} {level : Nat} {s : String} (hkeyed : x.Keyed)
    (h : write .plain level x = .ok s) : Reads x s.toList := by
  cases x with
  | null =>
    cases h
    exact reads_word (by simp [words])
  | flag b =>
    cases h
    cases b <;> exact reads_word (by simp [words])
  | integer n => exact reads_integer h
  | number x => exact reads_number h
  | text s' =>
    cases h
    exact reads_text s'
  | list xs =>
    rw [Keyed] at hkeyed
    rw [write] at h
    obtain ⟨parts, hparts, h⟩ := Outcome.bind_eq_ok_iff.1 h
    cases h
    rw [bracketed_plain]
    cases xs with
    | nil =>
      cases hparts
      exact reads_nil
    | cons x xs => exact (readsAll_write hkeyed hparts (List.cons_ne_nil _ _)).reads
  | object entries =>
    rw [Keyed] at hkeyed
    rw [write] at h
    obtain ⟨parts, hparts, h⟩ := Outcome.bind_eq_ok_iff.1 h
    cases h
    rw [bracketed_plain]
    cases entries with
    | nil =>
      cases hparts
      exact reads_empty
    | cons e entries => exact (readsEntries_write hkeyed.2 hparts (List.cons_ne_nil _ _)).reads hkeyed.1

theorem readsAll_write {xs : List JsonValue} {level : Nat} {parts : List String} (hkeyed : KeyedAll xs)
    (h : writeAll .plain level xs = .ok parts) (hne : xs ≠ []) : ReadsAll xs (", ".intercalate parts).toList := by
  cases xs with
  | nil => exact absurd rfl hne
  | cons x xs =>
    rw [KeyedAll] at hkeyed
    rw [writeAll] at h
    obtain ⟨s, hx, h⟩ := Outcome.bind_eq_ok_iff.1 h
    obtain ⟨rest, hxs, h⟩ := Outcome.bind_eq_ok_iff.1 h
    cases h
    have hread := reads_write hkeyed.1 hx
    cases xs with
    | nil =>
      cases hxs
      rw [String.intercalate_singleton]
      exact hread.single
    | cons y xs =>
      have hall := readsAll_write hkeyed.2 hxs (List.cons_ne_nil _ _)
      cases rest with
      | nil =>
        obtain ⟨_, _, hnil, -⟩ := hall.begins
        cases hnil
      | cons q rest =>
        rw [toList_intercalate]
        exact hread.cons hall

theorem readsEntries_write {entries : List (String × JsonValue)} {level : Nat} {parts : List (String × String)}
    (hkeyed : KeyedEntries entries) (h : writeEntries .plain level entries = .ok parts) (hne : entries ≠ []) :
    ReadsEntries entries
      (", ".intercalate (parts.map fun e => textText .plain e.1 ++ Style.plain.keySeparator ++ e.2)).toList := by
  cases entries with
  | nil => exact absurd rfl hne
  | cons e entries =>
    obtain ⟨key, x⟩ := e
    rw [KeyedEntries] at hkeyed
    rw [writeEntries] at h
    obtain ⟨s, hx, h⟩ := Outcome.bind_eq_ok_iff.1 h
    obtain ⟨rest, hxs, h⟩ := Outcome.bind_eq_ok_iff.1 h
    cases h
    have hread := reads_write hkeyed.1 hx
    have hentry : (textText .plain key ++ Style.plain.keySeparator ++ s).toList = entryText key s.toList := by
      rw [String.toList_append, String.toList_append, List.append_assoc]
      rfl
    cases entries with
    | nil =>
      cases hxs
      rw [List.map_singleton, String.intercalate_singleton, hentry]
      exact hread.entry key
    | cons e entries =>
      have hall := readsEntries_write hkeyed.2 hxs (List.cons_ne_nil _ _)
      cases rest with
      | nil =>
        obtain ⟨_, _, hnil, -⟩ := hall.begins
        cases hnil
      | cons q rest =>
        rw [List.map_cons, List.map_cons, toList_intercalate, hentry]
        exact hread.moreEntries key hall

end

/-- **JSON texts.** A value whose objects have distinct keys is read back from its text. -/
theorem read?_write {x : JsonValue} {s : String} (hkeyed : x.Keyed) (h : write .plain 0 x = .ok s) :
    read? s = some x := by
  have hread := reads_write hkeyed h
  have hlength : s.toList.length ≤ 2 * s.length + 2 := by
    rw [String.length_toList]
    omega
  have hvalue := hread.readValue hlength (show EndsNumber [] by rintro _ ⟨⟩)
  rw [List.append_nil] at hvalue
  rw [read?, hread.begins.skipBlanks, hvalue]
  rfl

end UnitAlgebra.JsonValue

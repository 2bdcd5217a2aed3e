/-
Character classes of unit texts: words, decimal digits, blanks, printable characters, and the two case maps.
Every class covers all of Unicode: a unit may be spelled in any script and a number in any run of decimal digits.

Results:
- `isBlank_of_isWhitespace`: what the core library takes for a blank is one here.
- `after?_eq_some_iff`: what follows a beginning is the rest of the text.
- `digit?_asciiDigit`: the digits 0 to 9 have their own values.
-/
import UnitAlgebra.Text.CharTables

namespace UnitAlgebra.Text

/-! ## Classes -/

/-- membership in sorted ranges, decided at the first range that does not lie below -/
def inRanges : List (Nat × Nat) → Nat → Bool
  | [], _ => false
  | (first, last) :: rest, n => if n < first then false else n ≤ last || inRanges rest n

/-- a letter, a number of any kind or the underscore -/
def isWord (c : Char) : Bool := inRanges wordRanges c.toNat

/-- the value of a decimal digit, given the zeros of all runs in increasing order -/
def digitAmong : List Nat → Nat → Option Nat
  | [], _ => none
  | start :: rest, n => if n < start then none else if n < start + 10 then some (n - start) else digitAmong rest n

/-- the value of a decimal digit of any script -/
def digit? (c : Char) : Option Nat := digitAmong decimalZeros c.toNat

/-- the value of a run of digits -/
def digitsValue (cs : List Char) : Nat := cs.foldl (fun n c => 10 * n + (digit? c).getD 0) 0

/-- a decimal digit of any script -/
def isDecimal (c : Char) : Bool := (digit? c).isSome

/-- a blank, a line end or a separator -/
def isBlank (c : Char) : Bool := inRanges blankRanges c.toNat

/-- a character that shows as itself in a quoted text -/
def isPrintable (c : Char) : Bool := !inRanges unprintableRanges c.toNat

/-- a character that an identifier is made of -/
def isNameChar (c : Char) : Bool := isWord c && !isDecimal c

/-! ## Case -/

/-- the image under a table of runs; characters outside every run stay -/
def mapRuns : List (Nat × Nat × Nat × Int) → Char → Char
  | [], c => c
  | (first, last, step, distance) :: rest, c =>
    if first ≤ c.toNat ∧ c.toNat ≤ last ∧ (c.toNat - first) % step = 0 then
      Char.ofNat (c.toNat + distance).toNat
    else mapRuns rest c

/-- the capital of a letter that has a one-character one -/
def upperChar (c : Char) : Char := mapRuns upperRuns c

/-- a character that decides whether a sigma ends a word: `none` is looked through -/
def sigmaNeighbour (c : Char) : Option Bool :=
  if inRanges caseIgnorableRanges c.toNat then none else some (inRanges casedRanges c.toNat)

/-- the first character that is not looked through has case -/
def casedNext (cs : List Char) : Bool := (cs.findSome? sigmaNeighbour).getD false

/-- small letters; `before` holds what precedes, last character first, and decides the form of a sigma -/
def lowerFrom (before : List Char) : List Char → List Char
  | [] => []
  | c :: rest =>
    let small :=
      if c = 'Σ' then [if casedNext before && !casedNext rest then 'ς' else 'σ']
      else if c = 'İ' then ['i', '\u0307']
      else [mapRuns lowerRuns c]
    small ++ lowerFrom (c :: before) rest

/-- the text in small letters -/
def lower (s : String) : String := String.ofList (lowerFrom [] s.toList)

/-! ## Trimming -/

/-- the characters without the blanks at either end -/
def trim (cs : List Char) : List Char :=
  ((cs.dropWhile isBlank).reverse.dropWhile isBlank).reverse

/-- the text without the blanks at either end -/
def trimmed (s : String) : String := String.ofList (trim s.toList)

/-- what follows the given beginning -/
def after? : List Char → List Char → Option (List Char)
  | [], rest => some rest
  | _ :: _, [] => none
  | a :: start, c :: rest => if a = c then after? start rest else none

/-- What follows a beginning is the rest of the text. -/
theorem after?_eq_some_iff {start text rest : List Char} : after? start text = some rest ↔ text = start ++ rest := by
  induction start generalizing text with
  | nil => simp [after?]
  | cons a start ih =>
    cases text with
    | nil => simp [after?]
    | cons c text =>
      by_cases h : a = c
      · simp [after?, h, ih]
      · simp [after?, h, Ne.symm h]

/-! ## Agreement with the core library on ASCII -/

/-- What the core library takes for a blank is one here. -/
theorem isBlank_of_isWhitespace {c : Char} (h : c.isWhitespace) : isBlank c := by
  simp only [Char.isWhitespace, Bool.or_eq_true, decide_eq_true_eq] at h
  rcases h with ((h | h) | h) | h <;> subst h <;> decide

/-- The digits 0 to 9 have their own values. -/
theorem digit?_asciiDigit : "0123456789".toList.map digit? = (List.range 10).map some := by decide

end UnitAlgebra.Text

/-
Decimal digits of binary numbers: the fewest that read back as the same number, and a given count of places or of
significant digits. All of it is exact arithmetic on naturals.

Results:
- `readsBack_of_hitAt`: a hit on a grid reads back as the number.
-/
import UnitAlgebra.Decimal.Binary64

namespace UnitAlgebra.Decimal

open Binary64 (ofQuotient)

/-! ## Reading -/

/-- a power of ten -/
def tens (n : Nat) : Nat := Nat.pow 10 n

/-- the number of decimal digits -/
def digitCount (n : Nat) : Nat := (Nat.toDigits 10 n).length

/-- the number nearest to `digits · 10^exponent`; beyond the range of 64 bits without computing the power -/
def toFloat (digits : Nat) (exponent : Int) : Float :=
  let magnitude := (digitCount digits : Int) + exponent
  if digits = 0 ∨ magnitude < -330 then Float.ofBits 0
  else if 310 < magnitude then ofQuotient (1 <<< 1024) 1
  else if 0 ≤ exponent then ofQuotient (digits * tens exponent.toNat) 1
  else ofQuotient digits (tens (-exponent).toNat)

/-! ## Grids -/

/-- the quotient times `10^shift` -/
def shifted (num den : Nat) (shift : Int) : Nat × Nat :=
  if 0 ≤ shift then (num * tens shift.toNat, den) else (num, den * tens (-shift).toNat)

/-- the power of ten at most the positive quotient -/
def leadingPower (num den : Nat) : Int :=
  let guess := (Binary64.leadingBit num den * 30103) / 100000
  let atLeast (k : Int) : Bool := let (a, b) := shifted num den (-k); b ≤ a
  if atLeast (guess + 1) then guess + 1 else if atLeast guess then guess else guess - 1

/-- `digits · 10^exponent` reads back as the given magnitude -/
def readsBack (num den : Nat) (digits : Nat) (exponent : Int) : Bool :=
  (toFloat digits exponent).toBits == (ofQuotient num den).toBits

/-- the grid points next to the quotient, the nearer one first and the even one of two equally near -/
def gridNeighbours (num den : Nat) : List Nat :=
  let q := num / den
  let nearest := Binary64.roundHalfEven num den
  [nearest, if nearest = q then q + 1 else q]

/-- the nearest hit on the grid of `count` digits -/
def hitAt (num den count : Nat) : Option (Nat × Int) :=
  let shift : Int := (count : Int) - 1 - leadingPower num den
  let (a, b) := shifted num den shift
  (gridNeighbours a b).findSome? fun d => if readsBack num den d (-shift) then some (d, -shift) else none

/-- the fewest digits that read back, with their power of ten -/
def shortestDigits (num den : Nat) : Nat × Int :=
  ((List.range 17).findSome? fun n => hitAt num den (n + 1)).getD (0, 0)

/-- A hit reads back as the number. -/
theorem readsBack_of_hitAt {num den count d : Nat} {e : Int} (h : hitAt num den count = some (d, e)) :
    readsBack num den d e := by
  obtain ⟨c, _, hc⟩ := List.exists_of_findSome?_eq_some h
  split at hc
  · simp only [Option.some.injEq, Prod.mk.injEq] at hc
    obtain ⟨rfl, rfl⟩ := hc
    assumption
  · simp at hc

/-! ## Digit texts -/

/-- decimal digits with the place of the point: `0.d₁d₂… · 10^point` -/
structure Digits where
  digits : List Char
  point : Int
deriving DecidableEq, Repr

/-- the digits of `n · 10^exponent` -/
def Digits.ofNat (n : Nat) (exponent : Int) : Digits :=
  let ds := Nat.toDigits 10 n
  ⟨ds, if n = 0 then 1 else ds.length + exponent⟩

/-- without the zeros at the end, but with one digit at least -/
def Digits.stripped (d : Digits) : Digits :=
  match (d.digits.reverse.dropWhile (· = '0')).reverse with
  | [] => ⟨['0'], d.point⟩
  | ds => ⟨ds, d.point⟩

/-- the shortest digits of the magnitude of a finite number -/
def shortest (x : Float) : Digits :=
  let (num, den) := Binary64.quotient x
  if num = 0 then ⟨['0'], 1⟩
  else
    let (d, e) := shortestDigits num den
    (Digits.ofNat d e).stripped

/-- the magnitude of a finite number in units of `10^-places`, a half to the even neighbour -/
def inPlaces (x : Float) (places : Nat) : Nat :=
  let (num, den) := Binary64.quotient x
  let (a, b) := shifted num den places
  Binary64.roundHalfEven a b

/-- the magnitude of a finite number in `count` significant digits, with their power of ten -/
def significant (x : Float) (count : Nat) : Nat × Int :=
  let (num, den) := Binary64.quotient x
  if num = 0 then (0, 0)
  else
    let shift : Int := (count : Int) - 1 - leadingPower num den
    let (a, b) := shifted num den shift
    let d := Binary64.roundHalfEven a b
    if d = tens count then (tens (count - 1), 1 - shift) else (d, -shift)

/-- a number rounded to `count` significant digits -/
def roundSignificant (count : Nat) (x : Float) : Float :=
  if x.isFinite then
    let (d, e) := significant x count
    if Binary64.isNegative x then -toFloat d e else toFloat d e
  else x

/-! ## The written form of a number -/

/-- where positional writing ends, and what is written for numbers that are not finite -/
structure NumberStyle where
  /-- the point may stand this far to the left of the first digit -/
  lowest : Int
  /-- and this far to the right of it -/
  highest : Int
  infinity : String
  notANumber : String

/-- Positional from a ten thousandth up to below ten to the sixteenth. -/
def NumberStyle.plain : NumberStyle := ⟨-4, 16, "inf", "nan"⟩

/-- a power of ten with its sign and two digits at least -/
def exponentText (e : Int) : List Char :=
  let ds := Nat.toDigits 10 e.natAbs
  (if e < 0 then '-' else '+') :: (if ds.length < 2 then '0' :: ds else ds)

/-- digits before and after the point -/
def Digits.positional (d : Digits) : List Char × List Char :=
  if d.point ≤ 0 then (['0'], List.replicate (-d.point).toNat '0' ++ d.digits)
  else
    let n := d.point.toNat
    (d.digits.take n ++ List.replicate (n - d.digits.length) '0', d.digits.drop n)

/-- the written form of a magnitude -/
def Digits.text (style : NumberStyle) (d : Digits) : List Char :=
  if style.lowest < d.point ∧ d.point ≤ style.highest then
    let (whole, fraction) := d.positional
    whole ++ '.' :: (if fraction.isEmpty then ['0'] else fraction)
  else
    let fraction := d.digits.drop 1
    d.digits.take 1 ++ (if fraction.isEmpty then [] else '.' :: fraction) ++ 'e' :: exponentText (d.point - 1)

/-- a number in the fewest digits that read back -/
def text (x : Float) : String :=
  let style := NumberStyle.plain
  if x.isNaN then style.notANumber
  else
    let sign := if Binary64.isNegative x then "-" else ""
    if x.isInf then sign ++ style.infinity else sign ++ String.ofList ((shortest x).text style)

end UnitAlgebra.Decimal

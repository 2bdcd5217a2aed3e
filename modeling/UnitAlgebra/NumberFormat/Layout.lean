/-
How numbers are written by a format: the digits of a magnitude before and after the point and its power of ten, the
groups that the digits are divided into, and the field that all of it stands in.

Results:
- `length_justified`: a field is as wide as asked for, if what stands in it leaves room.
-/
import UnitAlgebra.NumberFormat
import UnitAlgebra.Decimal.Functions

namespace UnitAlgebra.NumberFormat

open Decimal

/-! ## Digits of a magnitude -/

/-- digits before and after the point, and the power of ten if one is written -/
structure Layout where
  whole : List Char
  fraction : List Char
  power : Option Int
deriving DecidableEq, Repr

namespace Layout

/-- zeros at the end, up to a number of digits -/
def padded (d : Digits) (count : Nat) : Digits :=
  ⟨d.digits ++ List.replicate (count - d.digits.length) '0', d.point⟩

def positional (d : Digits) : Layout :=
  let (whole, fraction) := d.positional
  ⟨whole, fraction, none⟩

/-- one digit before the point -/
def scientific (d : Digits) : Layout := ⟨d.digits.take 1, d.digits.drop 1, some (d.point - 1)⟩

/-- one digit after the point at least, where no power is written -/
def pointed (l : Layout) : Layout :=
  if l.power.isNone && l.fraction.isEmpty then { l with fraction := ['0'] } else l

/-- with a power from a place of the point on, and below a ten thousandth -/
def upTo (highest : Int) (d : Digits) : Layout :=
  if d.point ≤ NumberStyle.plain.lowest ∨ highest < d.point then scientific d else positional d

/-- a number of places after the point -/
def fixed (x : Float) (places : Nat) : Layout :=
  let d := Digits.ofNat (inPlaces x places) (-places)
  positional (padded d (d.point + places).toNat)

/-- a power, and a number of places after the point -/
def exponent (x : Float) (places : Nat) : Layout :=
  let (n, e) := significant x (places + 1)
  scientific (padded (Digits.ofNat n e) (places + 1))

/-- a number of significant digits, positional if the point is among them -/
def general (x : Float) (count : Nat) (keepsZeros : Bool) (highest : Int) : Layout :=
  let (n, e) := significant x count
  let d := Digits.ofNat n e
  upTo highest (if keepsZeros then padded d count else d.stripped)

/-- the fewest digits that read back -/
def shortest (x : Float) : Layout := pointed (upTo NumberStyle.plain.highest (Decimal.shortest x))

/-- nothing but zeros -/
def isZero (l : Layout) : Bool := (l.whole ++ l.fraction).all (· = '0')

end Layout

/-- the places after the point, unless others are asked for -/
def defaultPlaces : Nat := 6

/-- the digits of a finite magnitude in the form asked for -/
def layout (f : NumberFormat) (x : Float) : Layout :=
  let places := f.precision.getD defaultPlaces
  let count := max places 1
  match f.form, f.precision with
  | some (.exponent _), _ => .exponent x places
  | some (.fixed _), _ | some .percent, _ => .fixed x places
  | some _, _ => .general x count f.alternate count
  | none, some _ => (Layout.general x count f.alternate (count - 1)).pointed
  | none, none => .shortest x

/-! ## Pieces of a written number -/

/-- a written number before it is put into its field -/
structure Pieces where
  negative : Bool
  /-- what stands between the sign and the digits -/
  mark : List Char
  /-- the digits that may be grouped -/
  digits : List Char
  /-- everything after them -/
  rest : List Char
deriving DecidableEq, Repr

def isCapital (f : NumberFormat) : Bool :=
  match f.form with
  | some (.exponent c) | some (.fixed c) | some (.general c) | some (.whole _ c) => c
  | _ => false

/-- the pieces of a number -/
def pieces (f : NumberFormat) (x : Float) : Pieces :=
  let isPercent := f.form = some .percent
  let x := if isPercent then x * 100.0 else x
  let sign := if isPercent then ['%'] else []
  let word (s : String) : List Char := if f.isCapital then s.toList.map Char.toUpper else s.toList
  if x.isNaN then ⟨false, [], [], word NumberStyle.plain.notANumber ++ sign⟩
  else if x.isInf then ⟨x < 0.0, [], [], word NumberStyle.plain.infinity ++ sign⟩
  else
    let l := f.layout x
    let power := match l.power with
      | some e => word "e" ++ exponentText e
      | none => []
    let fraction := if l.fraction.isEmpty && !f.alternate then [] else '.' :: l.fraction
    ⟨Binary64.isNegative x && !(f.unsignedZero && l.isZero), [], l.whole, fraction ++ power ++ sign⟩

/-- the pieces of a whole number in a base -/
def wholePieces (f : NumberFormat) (base : Nat) (n : Int) : Pieces :=
  let cased (cs : List Char) : List Char := if f.isCapital then cs.map Char.toUpper else cs
  let mark := match f.alternate, base with
    | true, 2 => ['0', 'b']
    | true, 8 => ['0', 'o']
    | true, 16 => ['0', 'x']
    | _, _ => []
  ⟨n < 0, cased mark, cased (Nat.toDigits base n.natAbs), []⟩

/-! ## Groups -/

/-- groups of digits from the right, with zeros in front as long as there is room for them -/
def groups (size : Nat) (reversed : List Char) (room : Nat) : List (List Char) :=
  let taken := max 1 (min size (max reversed.length room))
  let group := reversed.take taken ++ List.replicate (taken - reversed.length) '0'
  let rest := reversed.drop taken
  if _h : rest.length + (room - taken) = 0 then [group] else group :: groups size rest (room - taken - 1)
termination_by reversed.length + room
decreasing_by
  simp only [List.length_drop]
  simp only [rest, List.length_drop] at _h
  omega

/-- digits in groups, filled up with zeros to a width -/
def grouped (separator : Option (Char × Nat)) (digits : List Char) (width : Nat) : List Char :=
  match separator with
  | none => List.replicate (width - digits.length) '0' ++ digits
  | some (c, size) => (List.intercalate [c] (groups size digits.reverse width)).reverse

/-- the separator with the size of the groups; bases other than ten are grouped by four -/
def separator (f : NumberFormat) : Option (Char × Nat) :=
  match f.grouping, f.form with
  | none, _ => none
  | some .comma, _ => some (',', 3)
  | some .underscore, some (.whole base _) => some ('_', if base = 10 then 3 else 4)
  | some .underscore, _ => some ('_', 3)

/-! ## The field -/

def signText (f : NumberFormat) (negative : Bool) : List Char :=
  if negative then ['-'] else match f.sign with
    | .unstated | .minus => []
    | .plus => ['+']
    | .blank => [' ']

/-- a beginning and the rest of a text in a field of a width -/
def justified (j : Justification) (fill : Char) (width : Nat) (start text : List Char) : List Char :=
  let missing := width - (start.length + text.length)
  let padding (n : Nat) : List Char := List.replicate n fill
  match j with
  | .left => start ++ text ++ padding missing
  | .right => padding missing ++ start ++ text
  | .centre => padding (missing / 2) ++ start ++ text ++ padding (missing - missing / 2)
  | .afterSign => start ++ padding missing ++ text

/-- A field is as wide as asked for, if what stands in it leaves room. -/
theorem length_justified (j : Justification) (fill : Char) (width : Nat) (start text : List Char) :
    (justified j fill width start text).length = max width (start.length + text.length) := by
  cases j <;> simp only [justified, List.length_append, List.length_replicate] <;> omega

/-- pieces in their field -/
def placed (f : NumberFormat) (p : Pieces) : List Char :=
  let fill := f.fill.getD (if f.zeroFilled then '0' else ' ')
  let j := f.justification.getD (if f.zeroFilled then .afterSign else .right)
  let start := f.signText p.negative ++ p.mark
  let room := if fill = '0' ∧ j = .afterSign then f.width - (start.length + p.rest.length) else 0
  let digits := if p.digits.isEmpty then [] else grouped f.separator p.digits room
  justified j fill f.width start (digits ++ p.rest)

/-! ## Numbers in a format -/

/-- the widest field, and the most places, that can be asked for -/
def isTooWide (f : NumberFormat) : Bool := 1 <<< 63 ≤ f.width || f.precision.any fun p => 1 <<< 31 ≤ p

/-- the digits of the form are not grouped in the way asked for -/
def isMisgrouped (f : NumberFormat) : Bool :=
  match f.grouping, f.form with
  | none, _ => false
  | some _, some .localized | some _, some .character => true
  | some .comma, some (.whole base _) => base ≠ 10
  | _, _ => false

/-- a number in a format -/
def write (f : NumberFormat) (x : Float) : Outcome String :=
  if f.isTooWide || f.isMisgrouped || !f.isReal then .error (.badValue none)
  else .ok (String.ofList (f.placed (f.pieces x)))

/-- a whole number in a format for whole numbers, or else as any number -/
def writeWhole (f : NumberFormat) (n : Int) : Outcome String :=
  let isPlain := f.precision.isNone && !f.unsignedZero && !f.isTooWide && !f.isMisgrouped
  let inBase (base : Nat) : Outcome String :=
    let p := f.wholePieces base n
    if !isPlain || (base = 10 && integerDigitLimit < p.digits.length) then .error (.badValue none)
    else .ok (String.ofList (f.placed p))
  match f.form with
  | none | some .localized => inBase 10
  | some (.whole base _) => inBase base
  | some .character =>
    if !isPlain || f.sign ≠ .unstated || f.alternate then .error (.badValue none)
    else if n < 0 ∨ 0x10FFFF < n then .error .tooLarge
    else .ok (String.ofList (f.placed ⟨false, [], [], [Char.ofNat n.toNat]⟩))
  | some _ => do f.write (← Numeric.ofInt n)

end UnitAlgebra.NumberFormat

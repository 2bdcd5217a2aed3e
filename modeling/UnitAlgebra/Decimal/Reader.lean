/-
Number texts: signed decimals with an optional fraction and exponent, infinity and nan, in digits of any script. A
number may stand at the beginning of a text or be the whole of it.
-/
import UnitAlgebra.Numeric
import UnitAlgebra.Text.CharClass

namespace UnitAlgebra.Decimal

/-! ## Number texts -/

/-- what a number text says -/
inductive NumberText where
  | finite (negative : Bool) (digits : Nat) (exponent : Int)
  | infinity (negative : Bool)
  | notANumber
  /-- written with letters that only look like those of infinity -/
  | garbled
deriving DecidableEq, Repr

namespace NumberText

variable {κ : Type} [Numeric κ]

/-- the number itself -/
def value : NumberText → Outcome κ
  | finite negative digits exponent =>
    .ok (let x := Numeric.ofDecimal digits exponent; if negative then Numeric.neg x else x)
  | infinity negative => .ok (if negative then Numeric.neg Numeric.infinity else Numeric.infinity)
  | notANumber => .ok Numeric.nan
  | garbled => .error (.badValue none)

end NumberText

/-! ## A number at the beginning -/

/-- a sign, if there is one, with what follows it -/
def splitSign : List Char → Bool × List Char
  | '-' :: rest => (true, rest)
  | '+' :: rest => (false, rest)
  | cs => (false, cs)

/-- a run of digits with what follows it -/
def splitDigits (cs : List Char) : List Char × List Char :=
  (cs.takeWhile Text.isDecimal, cs.dropWhile Text.isDecimal)

/-- an exponent, if a complete one follows -/
def splitExponent (cs : List Char) : Int × List Char :=
  match cs with
  | c :: rest =>
    if c = 'e' ∨ c = 'E' then
      let (negative, rest) := splitSign rest
      let (digits, rest) := splitDigits rest
      if digits.isEmpty then (0, cs)
      else (if negative then -(Text.digitsValue digits : Int) else Text.digitsValue digits, rest)
    else (0, cs)
  | [] => (0, cs)

/-- a decimal without its sign; either side of the point may be empty, not both -/
def splitDecimal (negative : Bool) (cs : List Char) : Option (NumberText × List Char) :=
  let (whole, rest) := splitDigits cs
  let (fraction, rest) :=
    match rest with
    | '.' :: after =>
      let (fraction, after) := splitDigits after
      if whole.isEmpty && fraction.isEmpty then ([], rest) else (fraction, after)
    | _ => ([], rest)
  if whole.isEmpty && fraction.isEmpty then none
  else
    let (exponent, rest) := splitExponent rest
    some (.finite negative (Text.digitsValue (whole ++ fraction)) (exponent - fraction.length), rest)

/-- a letter in either case; the dotted capital and the dotless small i pass for i -/
def isLetter (letter c : Char) : Bool :=
  c = letter || c = letter.toUpper || (letter = 'i' && (c = 'İ' || c = 'ı'))

/-- a word in letters of either case, as written, with what follows it -/
def splitWord : List Char → List Char → Option (List Char × List Char)
  | [], rest => some ([], rest)
  | _ :: _, [] => none
  | letter :: word, c :: rest =>
    if isLetter letter c then (splitWord word rest).map fun (written, after) => (c :: written, after) else none

/-- infinity or nan, without a sign -/
def splitSpecial (negative : Bool) (cs : List Char) : Option (NumberText × List Char) :=
  match splitWord "inf".toList cs with
  | some (written, rest) =>
    let (more, rest) := (splitWord "inity".toList rest).getD ([], rest)
    some (if (written ++ more).all fun c => c.toNat < 128 then .infinity negative else .garbled, rest)
  | none => (splitWord "nan".toList cs).map fun (_, rest) => (.notANumber, rest)

/-- the number at the beginning of a text, with what follows it -/
def splitNumber (cs : List Char) : Option (NumberText × List Char) :=
  let (negative, rest) := splitSign cs
  splitDecimal negative rest <|> splitSpecial negative rest

/-! ## A number as a whole text -/

/-- without the underscores that stand between two digits -/
def withoutSeparators : List Char → List Char
  | a :: '_' :: b :: rest =>
    if Text.isDecimal a && Text.isDecimal b then a :: withoutSeparators (b :: rest)
    else a :: '_' :: withoutSeparators (b :: rest)
  | a :: rest => a :: withoutSeparators rest
  | [] => []

/-- the number that a text is, but for blanks around it -/
def readNumber? (s : String) : Option NumberText :=
  match splitNumber (withoutSeparators (Text.trim s.toList)) with
  | some (n, []) => if n = .garbled then none else some n
  | _ => none

/-- the number of digits that a whole number may be written with -/
def integerDigitLimit : Nat := 4300

/-- the whole number that a text is, but for blanks around it -/
def readInteger? (s : String) : Option Int :=
  let (negative, rest) := splitSign (withoutSeparators (Text.trim s.toList))
  let (digits, after) := splitDigits rest
  if digits.isEmpty || !after.isEmpty || integerDigitLimit < digits.length then none
  else some (if negative then -(Text.digitsValue digits : Int) else Text.digitsValue digits)

end UnitAlgebra.Decimal

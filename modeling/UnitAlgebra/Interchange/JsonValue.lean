/-
JSON texts. Besides the standard, the words `NaN`, `Infinity` and `-Infinity` stand for numbers. A number without a
fraction and without an exponent is a whole number, however large. Of equal keys in an object the last one counts, in
the place of the first.

Results:
- `skipBlanks_blank`: a blank before a text changes nothing.
-/
import UnitAlgebra.Registry.Build
import UnitAlgebra.Decimal.Functions
import UnitAlgebra.Decimal.Reader
import UnitAlgebra.Text.Quoted

namespace UnitAlgebra

inductive JsonValue where
  | null
  | flag (b : Bool)
  | integer (n : Int)
  | number (x : Float)
  | text (s : String)
  | list (xs : List JsonValue)
  | object (entries : List (String × JsonValue))

namespace JsonValue

/-! ## Blanks and words -/

def isBlank (c : Char) : Bool := c = ' ' || c = '\t' || c = '\n' || c = '\r'

def skipBlanks (cs : List Char) : List Char := cs.dropWhile isBlank

/-- the words that stand for values -/
def words : List (String × JsonValue) := [
  ("null", null), ("true", flag true), ("false", flag false), ("NaN", number Binary64.nan),
  ("Infinity", number Binary64.infinity), ("-Infinity", number (-Binary64.infinity))]

def readWord (cs : List Char) : Option (JsonValue × List Char) :=
  words.findSome? fun (word, value) => (Text.after? word.toList cs).map fun rest => (value, rest)

/-- A blank before a text changes nothing. -/
theorem skipBlanks_blank {c : Char} (h : isBlank c) (cs : List Char) : skipBlanks (c :: cs) = skipBlanks cs := by
  simp [skipBlanks, h]

/-! ## Numbers -/

/-- a run of the digits 0 to 9 with what follows it -/
def splitDigits (cs : List Char) : List Char × List Char := (cs.takeWhile Char.isDigit, cs.dropWhile Char.isDigit)

/-- a whole number without zeros in front -/
def readDigits : List Char → Option (List Char × List Char)
  | '0' :: rest => some (['0'], rest)
  | cs =>
    let (digits, rest) := splitDigits cs
    if digits.isEmpty then none else some (digits, rest)

/-- a point with digits after it, if there is one -/
def splitFraction (cs : List Char) : List Char × List Char :=
  match cs with
  | '.' :: rest =>
    let (digits, after) := splitDigits rest
    if digits.isEmpty then ([], cs) else (digits, after)
  | _ => ([], cs)

/-- an exponent, if a complete one follows -/
def splitPower (cs : List Char) : Option Int × List Char :=
  match cs with
  | c :: rest =>
    if c = 'e' ∨ c = 'E' then
      let (negative, rest) := Decimal.splitSign rest
      let (digits, after) := splitDigits rest
      if digits.isEmpty then (none, cs)
      else
        let n : Int := Text.digitsValue digits
        (some (if negative then -n else n), after)
    else (none, cs)
  | [] => (none, cs)

def readNumber (cs : List Char) : Option (JsonValue × List Char) := do
  let (negative, cs) := match cs with
    | '-' :: rest => (true, rest)
    | cs => (false, cs)
  let (whole, cs) ← readDigits cs
  let (fraction, cs) := splitFraction cs
  let (power, cs) := splitPower cs
  if fraction.isEmpty && power.isNone then
    if Decimal.integerDigitLimit < whole.length then none
    else
      let n : Int := Text.digitsValue whole
      return (integer (if negative then -n else n), cs)
  else
    let x := Decimal.toFloat (Text.digitsValue (whole ++ fraction)) (power.getD 0 - fraction.length)
    return (number (if negative then -x else x), cs)

/-! ## Texts -/

/-- the character that a letter after a backslash stands for -/
def escapes : List (Char × Char) := [
  ('"', '"'), ('\\', '\\'), ('/', '/'), ('b', '\x08'), ('f', '\x0c'), ('n', '\n'), ('r', '\r'), ('t', '\t')]

def hexDigit? (c : Char) : Option Nat :=
  let n := c.toNat
  if '0' ≤ c ∧ c ≤ '9' then some (n - 48)
  else if 'a' ≤ c ∧ c ≤ 'f' then some (n - 87)
  else if 'A' ≤ c ∧ c ≤ 'F' then some (n - 55)
  else none

def hexValue? (cs : List Char) : Option Nat := cs.foldlM (fun n c => (hexDigit? c).map (16 * n + ·)) 0

/-- the codes of a text up to its closing quote, and what follows that -/
def readUnits : List Char → Option (List Nat × List Char)
  | '"' :: rest => some ([], rest)
  | '\\' :: 'u' :: a :: b :: c :: d :: rest => do
    let n ← hexValue? [a, b, c, d]
    let (codes, rest) ← readUnits rest
    return (n :: codes, rest)
  | '\\' :: c :: rest => do
    let e ← (escapes.find? (·.1 = c)).map Prod.snd
    let (codes, rest) ← readUnits rest
    return (e.toNat :: codes, rest)
  | c :: rest => do
    if c.toNat < 32 then none
    let (codes, rest) ← readUnits rest
    return (c.toNat :: codes, rest)
  | [] => none

/-- the character of a code; half a character is shown as one that is missing -/
def charOf (n : Nat) : Char := if n.isValidChar then Char.ofNat n else '\ufffd'

/-- codes as characters; two halves of one character are joined -/
def joined : List Nat → List Char
  | [] => []
  | [n] => [charOf n]
  | m :: n :: rest =>
    if 0xD800 ≤ m ∧ m < 0xDC00 ∧ 0xDC00 ≤ n ∧ n < 0xE000 then
      Char.ofNat (0x10000 + (m - 0xD800) * 0x400 + (n - 0xDC00)) :: joined rest
    else charOf m :: joined (n :: rest)

/-- a text after its opening quote -/
def readText (cs : List Char) : Option (String × List Char) :=
  (readUnits cs).map fun (codes, rest) => (String.ofList (joined codes), rest)

/-! ## Values -/

/-- entries under keys that differ -/
def merged (entries : List (String × JsonValue)) : List (String × JsonValue) :=
  entries.foldl (fun d (k, x) => Directory.put d k x) []

mutual

def readValue : Nat → List Char → Option (JsonValue × List Char)
  | 0, _ => none
  | fuel + 1, cs =>
    match cs with
    | '"' :: rest => (readText rest).map fun (s, rest) => (text s, rest)
    | '[' :: rest =>
      match skipBlanks rest with
      | ']' :: rest => some (list [], rest)
      | rest => (readElements fuel rest).map fun (xs, rest) => (list xs, rest)
    | '\x7b' :: rest =>
      match skipBlanks rest with
      | '\x7d' :: rest => some (object [], rest)
      | rest => (readEntries fuel rest).map fun (entries, rest) => (object (merged entries), rest)
    | cs => readWord cs <|> readNumber cs

def readElements : Nat → List Char → Option (List JsonValue × List Char)
  | 0, _ => none
  | fuel + 1, cs => do
    let (x, rest) ← readValue fuel cs
    match skipBlanks rest with
    | ',' :: rest => do
      let (xs, rest) ← readElements fuel (skipBlanks rest)
      return (x :: xs, rest)
    | ']' :: rest => return ([x], rest)
    | _ => none

def readEntries : Nat → List Char → Option (List (String × JsonValue) × List Char)
  | 0, _ => none
  | fuel + 1, cs =>
    match cs with
    | '"' :: rest => do
      let (key, rest) ← readText rest
      match skipBlanks rest with
      | ':' :: rest => do
        let (x, rest) ← readValue fuel (skipBlanks rest)
        match skipBlanks rest with
        | ',' :: rest => do
          let (entries, rest) ← readEntries fuel (skipBlanks rest)
          return ((key, x) :: entries, rest)
        | '\x7d' :: rest => return ([(key, x)], rest)
        | _ => none
      | _ => none
    | _ => none

end

/-- the value that a text is; no value is nested deeper than twice the length of its text -/
def read? (s : String) : Option JsonValue :=
  match readValue (2 * s.length + 2) (skipBlanks s.toList) with
  | some (x, rest) => if (skipBlanks rest).isEmpty then some x else none
  | none => none

/-! ## Writing -/

structure Style where
  /-- what a level is indented by; on one line without it -/
  indent : Option String
  itemSeparator : String
  keySeparator : String
  /-- characters beyond ASCII are written by their codes -/
  onlyAscii : Bool
  sortsKeys : Bool
  /-- infinity and nan are written -/
  allowsSpecial : Bool

/-- On one line, with a blank after commas and colons. -/
def Style.plain : Style := ⟨none, ", ", ": ", true, false, true⟩

/-- a code unit of four hexadecimal digits -/
def codeText (n : Nat) : List Char := '\\' :: 'u' :: Text.hexPadded 4 n

/-- a character between quotes -/
def charText (onlyAscii : Bool) (c : Char) : List Char :=
  match (escapes.filter (·.1 ≠ '/')).find? (·.2 = c) with
  | some (letter, _) => ['\\', letter]
  | none =>
    let n := c.toNat
    if n < 32 ∨ (onlyAscii ∧ 126 < n) then
      if n < 0x10000 then codeText n
      else codeText (0xD800 + (n - 0x10000) / 0x400) ++ codeText (0xDC00 + (n - 0x10000) % 0x400)
    else [c]

def textText (style : Style) (s : String) : String :=
  String.ofList ('"' :: s.toList.flatMap (charText style.onlyAscii) ++ ['"'])

def numberText (style : Style) (x : Float) : Outcome String :=
  if x.isFinite then .ok (Decimal.text x)
  else if !style.allowsSpecial then .error (.badValue none)
  else .ok (if x.isNaN then "NaN" else if x < 0.0 then "-Infinity" else "Infinity")

def integerText (n : Int) : Outcome String :=
  let digits := Exponent.decimal n
  if Decimal.integerDigitLimit + (if n < 0 then 1 else 0) < digits.length then .error (.badValue none) else .ok digits

/-- parts between brackets, each on a line of its own if levels are indented -/
def bracketed (style : Style) (level : Nat) (opening closing : String) (parts : List String) : String :=
  let line (level : Nat) : String :=
    match style.indent with
    | some indent => "\n" ++ String.join (List.replicate level indent)
    | none => ""
  if parts.isEmpty then opening ++ closing
  else opening ++ line (level + 1) ++ (style.itemSeparator ++ line (level + 1)).intercalate parts ++ line level ++
    closing

/-- entries in the order in which they are written -/
def ordered {α : Type} (style : Style) (entries : List (String × α)) : List (String × α) :=
  if style.sortsKeys then entries.mergeSort (fun a b => decide (a.1 ≤ b.1)) else entries

mutual

def write (style : Style) (level : Nat) : JsonValue → Outcome String
  | null => .ok "null"
  | flag b => .ok (if b then "true" else "false")
  | integer n => integerText n
  | number x => numberText style x
  | text s => .ok (textText style s)
  | list xs => do return bracketed style level "[" "]" (← writeAll style (level + 1) xs)
  | object entries => do
    let parts := ordered style (← writeEntries style (level + 1) entries)
    return bracketed style level "\x7b" "\x7d"
      (parts.map fun (key, value) => textText style key ++ style.keySeparator ++ value)

def writeAll (style : Style) (level : Nat) : List JsonValue → Outcome (List String)
  | [] => .ok []
  | x :: xs => do return (← write style level x) :: (← writeAll style level xs)

/-- the values of entries in their written form -/
def writeEntries (style : Style) (level : Nat) : List (String × JsonValue) → Outcome (List (String × String))
  | [] => .ok []
  | (key, x) :: entries => do return (key, ← write style level x) :: (← writeEntries style level entries)

end

end JsonValue

end UnitAlgebra

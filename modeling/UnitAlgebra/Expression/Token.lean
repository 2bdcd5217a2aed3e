/-
Tokens of unit expressions. A run of name characters is a name, and signed digits right behind it are its exponent:
`s2` is read as `s`, `^`, `2`. Blanks separate and are dropped. Digits may be of any script.

Results:
- `lexeme_shorter`: a token takes at least one character.
- `scan_blank`: blanks before a text move its tokens and change nothing else.
-/
import UnitAlgebra.Fault
import UnitAlgebra.Text.CharClass

namespace UnitAlgebra.Expression

/-! ## Tokens -/

/-- what a token is to the grammar -/
inductive Symbol where
  | opening | closing | times | slash | caret
  | integer (signed : Bool) (value : Int) (digits : Nat)
  | name
deriving DecidableEq, Repr

structure Token where
  symbol : Symbol
  text : String
  /-- the number of characters before it -/
  position : Nat
deriving DecidableEq, Repr

def isSign (c : Char) : Bool := c = '+' || c = '-'

/-- a run of digits with what follows it -/
def digitRun (cs : List Char) : List Char × List Char := (cs.takeWhile Text.isDecimal, cs.dropWhile Text.isDecimal)

/-- the token of an integer whose sign, if any, has been taken off -/
def integerToken (position : Nat) (sign : Option Char) (digits : List Char) : Token :=
  let n : Int := Text.digitsValue digits
  ⟨.integer sign.isSome (if sign = some '-' then -n else n) digits.length,
    String.ofList (sign.toList ++ digits), position⟩

/-- an integer from its digits on -/
def digitsAt (position : Nat) (sign : Option Char) (cs : List Char) : Option (Token × List Char) :=
  let (digits, after) := digitRun cs
  if digits.isEmpty then none else some (integerToken position sign digits, after)

/-- an integer at the beginning, with its sign if it has one -/
def integerAt (position : Nat) : List Char → Option (Token × List Char)
  | [] => none
  | c :: rest => if isSign c then digitsAt position (some c) rest else digitsAt position none (c :: rest)

/-- the signed digits behind a name, as its exponent -/
def suffixAt (position : Nat) (cs : List Char) : List Token × List Char :=
  match integerAt position cs with
  | some (exponent, after) => ([⟨.caret, "^", position⟩, exponent], after)
  | none => ([], cs)

/-- the tokens that begin with a character, and what follows them -/
def lexeme (position : Nat) (c : Char) (rest : List Char) : Option (List Token × List Char) :=
  let single (s : Symbol) := some ([⟨s, c.toString, position⟩], rest)
  if Text.isBlank c then some ([], rest)
  else if c = '(' then single .opening
  else if c = ')' then single .closing
  else if c = '*' ∨ c = '.' ∨ c = '·' then single .times
  else if c = '/' then single .slash
  else if c = '^' then single .caret
  else match integerAt position (c :: rest) with
    | some (token, after) => some ([token], after)
    | none =>
      if Text.isNameChar c then
        let name := c :: rest.takeWhile Text.isNameChar
        let (suffix, after) := suffixAt (position + name.length) (rest.dropWhile Text.isNameChar)
        some (⟨.name, String.ofList name, position⟩ :: suffix, after)
      else none

/-! ## Every token takes a character -/

theorem digitsAt_shorter {position : Nat} {sign : Option Char} {cs after : List Char} {t : Token}
    (h : digitsAt position sign cs = some (t, after)) : after.length < cs.length := by
  simp only [digitsAt, digitRun] at h
  by_cases hne : (cs.takeWhile Text.isDecimal).isEmpty
  · simp [hne] at h
  · simp only [hne, if_false, Option.some.injEq, Prod.mk.injEq, Bool.false_eq_true] at h
    obtain ⟨_, rfl⟩ := h
    have hlen : (cs.takeWhile Text.isDecimal).length + (cs.dropWhile Text.isDecimal).length = cs.length := by
      rw [← List.length_append, List.takeWhile_append_dropWhile]
    have hpos : 0 < (cs.takeWhile Text.isDecimal).length :=
      List.length_pos_iff.2 (by simpa [List.isEmpty_iff] using hne)
    omega

theorem integerAt_shorter {position : Nat} {cs after : List Char} {t : Token}
    (h : integerAt position cs = some (t, after)) : after.length < cs.length := by
  cases cs with
  | nil => simp [integerAt] at h
  | cons c rest =>
    simp only [integerAt] at h
    split at h
    · have := digitsAt_shorter h
      simp only [List.length_cons]
      omega
    · exact digitsAt_shorter h

/-- A token takes at least one character. -/
theorem lexeme_shorter {position : Nat} {c : Char} {rest after : List Char} {ts : List Token}
    (h : lexeme position c rest = some (ts, after)) : after.length ≤ rest.length := by
  have hdrop : (rest.dropWhile Text.isNameChar).length ≤ rest.length :=
    List.Sublist.length_le (List.dropWhile_sublist _)
  unfold lexeme at h
  simp only at h
  repeat' split at h
  all_goals simp only [Option.some.injEq, Prod.mk.injEq, reduceCtorEq] at h
  all_goals first
    | (obtain ⟨_, rfl⟩ := h; exact Nat.le_refl _)
    | skip
  · next t a heq =>
    obtain ⟨_, rfl⟩ := h
    have := integerAt_shorter heq
    simp only [List.length_cons] at this
    omega
  · obtain ⟨_, rfl⟩ := h
    unfold suffixAt
    split
    · next heq =>
      have := integerAt_shorter heq
      simp only
      omega
    · exact hdrop

/-! ## Scanning -/

/-- the tokens of a text that begins at a position, or the first character that begins none -/
def scan (position : Nat) : List Char → Except (Char × Nat) (List Token)
  | [] => .ok []
  | c :: rest =>
    match _h : lexeme position c rest with
    | none => .error (c, position)
    | some (ts, after) => do
      let others ← scan (position + (rest.length + 1 - after.length)) after
      return ts ++ others
termination_by cs => cs.length
decreasing_by
  have := lexeme_shorter _h
  simp only [List.length_cons]
  omega

/-- the tokens of a text -/
def tokens (text : String) : Outcome (List Token) :=
  match scan 0 text.toList with
  | .ok ts => .ok ts
  | .error (c, position) => .error (.format (.unexpectedCharacter c position text))

/-- Blanks before a text move its tokens and change nothing else. -/
theorem scan_blank {position : Nat} {c : Char} {rest : List Char} (h : Text.isBlank c) :
    scan position (c :: rest) = scan (position + 1) rest := by
  rw [scan]
  have hl : lexeme position c rest = some ([], rest) := by simp [lexeme, h]
  split
  · next heq => rw [hl] at heq; cases heq
  · next ts after heq =>
    rw [hl] at heq
    cases heq
    have : position + (rest.length + 1 - rest.length) = position + 1 := by omega
    rw [this]
    cases scan (position + 1) rest <;> rfl

end UnitAlgebra.Expression

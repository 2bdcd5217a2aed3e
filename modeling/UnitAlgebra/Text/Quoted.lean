/-
Quoted texts in messages: single quotes, or double ones around a text that holds single quotes only. What has no
glyph of its own is written by its code point.

Results:
- `quoted_plain`: a text of plain characters is written between single quotes as it is.
-/
import UnitAlgebra.Text.CharClass

namespace UnitAlgebra.Text

/-- the hexadecimal digits of a number, padded with zeros to a width -/
def hexPadded (width n : Nat) : List Char :=
  let digits := Nat.toDigits 16 n
  List.replicate (width - digits.length) '0' ++ digits

/-- a character as it stands between the given quotes -/
def escaped (mark c : Char) : List Char :=
  if c = mark ∨ c = '\\' then ['\\', c]
  else if c = '\n' then ['\\', 'n']
  else if c = '\r' then ['\\', 'r']
  else if c = '\t' then ['\\', 't']
  else if isPrintable c then [c]
  else if c.toNat < 0x100 then '\\' :: 'x' :: hexPadded 2 c.toNat
  else if c.toNat < 0x10000 then '\\' :: 'u' :: hexPadded 4 c.toNat
  else '\\' :: 'U' :: hexPadded 8 c.toNat

/-- the quotes that a text is written between -/
def quoteMark (cs : List Char) : Char :=
  if cs.contains '\x27' && !cs.contains '"' then '"' else '\x27'

/-- the text between quotes -/
def quoted (s : String) : String :=
  let mark := quoteMark s.toList
  String.ofList (mark :: s.toList.flatMap (escaped mark) ++ [mark])

/-- A text of plain characters is written between single quotes as it is. -/
theorem quoted_plain {s : String} (h : ∀ c ∈ s.toList, isPrintable c ∧ c ≠ '\x27' ∧ c ≠ '\\' ∧ c ≠ '\n' ∧ c ≠ '\r' ∧
    c ≠ '\t') : quoted s = "\x27" ++ s ++ "\x27" := by
  have hm : quoteMark s.toList = '\x27' := by
    have : '\x27' ∉ s.toList := fun hc => (h _ hc).2.1 rfl
    simp [quoteMark, this]
  have he : s.toList.flatMap (escaped '\x27') = s.toList := by
    have : ∀ cs : List Char, (∀ c ∈ cs, c ∈ s.toList) → cs.flatMap (escaped '\x27') = cs := by
      intro cs
      induction cs with
      | nil => intro _; rfl
      | cons c r ih =>
        intro hc
        have hcs := h c (hc c (by simp))
        simp [escaped, hcs, ih (fun d hd => hc d (by simp [hd]))]
    exact this _ (fun _ hc => hc)
  apply String.toList_injective
  simp [quoted, hm, he]

end UnitAlgebra.Text

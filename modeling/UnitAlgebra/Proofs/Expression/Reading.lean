/-
How a text is read as terminals of the grammar, told without a scanner. A text is cut into lexemes one after another:
blanks, which say nothing; marks; literals, which take all digits that follow; names, which take all letters that
follow; and names with a literal right behind, which stand for a power. The scanner finds the only reading there is.

Results:
- `lexeme_iff`: one step of the scanner takes one lexeme.
- `reads_iff_scan`: the scanner finds a reading exactly when there is one.
- `Reads.unique`: a text has at most one reading.
- `Reads.append`: readings of two texts join where the second begins with a mark, a blank or nothing.
- `Reads.digits_le`: a literal of a reading is a run of digits of the text.
-/
import Mathlib.Data.List.Forall2
import Mathlib.Tactic.Tauto
import UnitAlgebra.Expression.Token
import UnitAlgebra.Proofs.Text.Classes

namespace UnitAlgebra.Expression

open Text

/-! ## Terminals -/

/-- an integer as the grammar sees it: its value, whether it has a sign, and how many digits it is written with -/
inductive Numeral where
  | unsigned (value digits : Nat)
  | signed (value : Int) (digits : Nat)
deriving DecidableEq, Repr

namespace Numeral

def value : Numeral → Int
  | unsigned value _ => value
  | signed value _ => value

def digits : Numeral → Nat
  | unsigned _ digits => digits
  | signed _ digits => digits

def isSigned : Numeral → Bool
  | unsigned _ _ => false
  | signed _ _ => true

end Numeral

/-- the letters of the grammar's alphabet -/
inductive Terminal where
  | opening | closing | times | slash | caret
  | integer (n : Numeral)
  | name (text : String)
deriving DecidableEq, Repr

def Terminal.symbol : Terminal → Symbol
  | opening => .opening
  | closing => .closing
  | times => .times
  | slash => .slash
  | caret => .caret
  | integer n => .integer n.isSigned n.value n.digits
  | name _ => .name

/-- a token is one for a terminal: a name by its text, anything else by its symbol -/
def Token.Shows (token : Token) (t : Terminal) : Prop :=
  token.symbol = t.symbol ∧ ∀ text, t = .name text → token.text = text

theorem Numeral.eq_of_parts {m n : Numeral} (hs : m.isSigned = n.isSigned) (hv : m.value = n.value)
    (hd : m.digits = n.digits) : m = n := by
  cases m with
  | unsigned v d =>
    cases n with
    | unsigned v' d' => rw [Int.ofNat.inj hv, show d = d' from hd]
    | signed v' d' => cases hs
  | signed v d =>
    cases n with
    | unsigned v' d' => cases hs
    | signed v' d' => rw [show v = v' from hv, show d = d' from hd]

theorem Token.rightUnique_shows : Relator.RightUnique Token.Shows := by
  intro token t u ht hu
  obtain ⟨hts, htn⟩ := ht
  obtain ⟨hus, hun⟩ := hu
  have h : t.symbol = u.symbol := hts.symm.trans hus
  cases t with
  | integer m =>
    cases u with
    | integer n =>
      simp only [Terminal.symbol, Symbol.integer.injEq] at h
      rw [Numeral.eq_of_parts h.1 h.2.1 h.2.2]
    | _ => simp [Terminal.symbol] at h
  | name s =>
    cases u with
    | name s' => rw [← htn s rfl, ← hun s' rfl]
    | _ => simp [Terminal.symbol] at h
  | _ => cases u <;> simp_all [Terminal.symbol]

/-! ## Spellings -/

/-- the terminal that a character is on its own -/
def mark? (c : Char) : Option Terminal :=
  if c = '(' then some .opening
  else if c = ')' then some .closing
  else if c = '*' ∨ c = '.' ∨ c = '·' then some .times
  else if c = '/' then some .slash
  else if c = '^' then some .caret
  else none

/-- a name: characters of words without decimal digits -/
structure Name where
  chars : List Char
  nonempty : chars ≠ []
  letters : ∀ c ∈ chars, isNameChar c = true

def Name.terminal (n : Name) : Terminal := .name (String.ofList n.chars)

/-- an integer: digits of any script, with a sign or without -/
structure Literal where
  sign : Option Char
  digits : List Char
  signs : ∀ c ∈ sign, isSign c = true
  nonempty : digits ≠ []
  decimal : ∀ c ∈ digits, isDecimal c = true

namespace Literal

def chars (l : Literal) : List Char := l.sign.toList ++ l.digits

def numeral (l : Literal) : Numeral :=
  match l.sign with
  | none => .unsigned (digitsValue l.digits) l.digits.length
  | some sign => .signed (if sign = '-' then -digitsValue l.digits else digitsValue l.digits) l.digits.length

def terminal (l : Literal) : Terminal := .integer l.numeral

theorem digits_numeral (l : Literal) : l.numeral.digits = l.digits.length := by
  unfold numeral
  cases l.sign <;> rfl

theorem shows (l : Literal) (position : Nat) : (integerToken position l.sign l.digits).Shows l.terminal := by
  refine ⟨?_, fun text h => by simp [terminal] at h⟩
  unfold terminal numeral integerToken
  cases l.sign with
  | none => simp [Terminal.symbol, Numeral.isSigned, Numeral.value, Numeral.digits]
  | some sign => simp [Terminal.symbol, Numeral.isSigned, Numeral.value, Numeral.digits]

end Literal

/-! ## Lexemes and readings -/

/-- a text begins with a lexeme that says some terminals, and goes on with a rest -/
inductive Lexeme : List Char → List Terminal → List Char → Prop where
  | blank {c : Char} {rest : List Char} (h : isBlank c = true) : Lexeme (c :: rest) [] rest
  | mark {c : Char} {rest : List Char} {t : Terminal} (h : mark? c = some t) : Lexeme (c :: rest) [t] rest
  | literal {rest : List Char} (l : Literal) (h : StopsAt isDecimal rest) : Lexeme (l.chars ++ rest) [l.terminal] rest
  | name {rest : List Char} (n : Name) (h : StopsAt isNameChar rest) (hl : ∀ l : Literal, ¬ l.chars <+: rest) :
      Lexeme (n.chars ++ rest) [n.terminal] rest
  | raised {rest : List Char} (n : Name) (l : Literal) (h : StopsAt isDecimal rest) :
      Lexeme (n.chars ++ (l.chars ++ rest)) [n.terminal, .caret, l.terminal] rest

/-- the lexemes of a whole text say some terminals -/
inductive Reads : List Char → List Terminal → Prop where
  | nil : Reads [] []
  | cons {cs rest : List Char} {ts us : List Terminal} (h : Lexeme cs ts rest) (hr : Reads rest us) :
      Reads cs (ts ++ us)

/-! ## Characters of the spellings -/

/-- no name, no literal and no blank goes on with the character -/
structure IsMark (c : Char) : Prop where
  blank : isBlank c = false
  decimal : isDecimal c = false
  sign : isSign c = false
  letter : isNameChar c = false

/-- what the marks have in common is looked up once -/
theorem isMark_of_mark? {c : Char} {t : Terminal} (h : mark? c = some t) : IsMark c := by
  have all : ['(', ')', '*', '.', '·', '/', '^'].all
      (fun d => !isBlank d && !isDecimal d && !isSign d && !isNameChar d) = true := by decide +kernel
  have hc : c ∈ ['(', ')', '*', '.', '·', '/', '^'] := by
    unfold mark? at h
    split_ifs at h with h₁ h₂ h₃ h₄ h₅
    · simp [h₁]
    · simp [h₂]
    · rcases h₃ with h₃ | h₃ | h₃ <;> simp [h₃]
    · simp [h₄]
    · simp [h₅]
  have hclasses := List.all_eq_true.1 all c hc
  simp only [Bool.and_eq_true, Bool.not_eq_true'] at hclasses
  obtain ⟨⟨⟨hb, hd⟩, hs⟩, hn⟩ := hclasses
  exact ⟨hb, hd, hs, hn⟩

theorem class_of_isSign {c : Char} (h : isSign c = true) :
    isBlank c = false ∧ isDecimal c = false ∧ isNameChar c = false ∧ mark? c = none := by
  have hc : c = '+' ∨ c = '-' := by simpa [isSign] using h
  rcases hc with rfl | rfl <;> decide

theorem isSign_of_isDecimal {c : Char} (h : isDecimal c = true) : isSign c = false := by
  cases hs : isSign c with
  | false => rfl
  | true => rw [(class_of_isSign hs).2.1] at h; cases h

theorem mark?_of_isDecimal {c : Char} (h : isDecimal c = true) : mark? c = none := by
  cases hm : mark? c with
  | none => rfl
  | some t => rw [(isMark_of_mark? hm).decimal] at h; cases h

theorem mark?_of_isNameChar {c : Char} (h : isNameChar c = true) : mark? c = none := by
  cases hm : mark? c with
  | none => rfl
  | some t => rw [(isMark_of_mark? hm).letter] at h; cases h

theorem Literal.class_of_mem {l : Literal} {c : Char} (h : c ∈ l.chars) : isSign c = true ∨ isDecimal c = true := by
  rcases List.mem_append.1 h with h | h
  · exact Or.inl (l.signs c (by simpa using h))
  · exact Or.inr (l.decimal c h)

/-- a literal begins with a character that is neither a blank nor a mark nor a letter -/
theorem Literal.exists_head (l : Literal) : ∃ c rest, l.chars = c :: rest ∧
    isBlank c = false ∧ mark? c = none ∧ isNameChar c = false := by
  cases h : l.chars with
  | nil =>
    unfold Literal.chars at h
    exact absurd (List.append_eq_nil_iff.1 h).2 l.nonempty
  | cons c rest =>
    refine ⟨c, rest, rfl, ?_⟩
    rcases l.class_of_mem (h ▸ List.mem_cons_self) with hc | hc
    · obtain ⟨hb, _, hn, hm⟩ := class_of_isSign hc
      exact ⟨hb, hm, hn⟩
    · refine ⟨isBlank_of_isDecimal hc, mark?_of_isDecimal hc, ?_⟩
      cases hn : isNameChar c with
      | false => rfl
      | true => rw [isDecimal_of_isNameChar hn] at hc; cases hc

/-! ## Literals at the beginning of a text -/

theorem digitsAt_run {digits rest : List Char} (position : Nat) (sign : Option Char) (hne : digits ≠ [])
    (hd : ∀ c ∈ digits, isDecimal c = true) (hr : StopsAt isDecimal rest) :
    digitsAt position sign (digits ++ rest) = some (integerToken position sign digits, rest) := by
  simp only [digitsAt, digitRun, takeWhile_run hd hr, dropWhile_run hd hr]
  rw [if_neg (by simpa using hne)]

theorem integerAt_literal (l : Literal) {rest : List Char} (h : StopsAt isDecimal rest) (position : Nat) :
    integerAt position (l.chars ++ rest) = some (integerToken position l.sign l.digits, rest) := by
  obtain ⟨sign, digits, signs, nonempty, decimal⟩ := l
  simp only [Literal.chars]
  have hrun := fun s => digitsAt_run position s nonempty decimal h
  cases sign with
  | some sign =>
    have hs : isSign sign = true := signs sign rfl
    simp only [Option.toList_some, List.cons_append, List.nil_append, integerAt, hs, if_true, hrun]
  | none =>
    cases digits with
    | nil => exact absurd rfl nonempty
    | cons d ds =>
      have hs : isSign d = false := isSign_of_isDecimal (decimal d List.mem_cons_self)
      have hrun := hrun none
      simp only [List.cons_append] at hrun
      simp [integerAt, hs, hrun]

theorem exists_literal_of_integerAt {position : Nat} {cs rest : List Char} {token : Token}
    (h : integerAt position cs = some (token, rest)) :
    ∃ l : Literal, cs = l.chars ++ rest ∧ StopsAt isDecimal rest ∧ token = integerToken position l.sign l.digits := by
  have sound : ∀ (sign : Option Char) (ds : List Char), (∀ c ∈ sign, isSign c = true) →
      digitsAt position sign ds = some (token, rest) → ∃ l : Literal, sign.toList ++ ds = l.chars ++ rest ∧
        StopsAt isDecimal rest ∧ token = integerToken position l.sign l.digits := by
    intro sign ds hs hd
    simp only [digitsAt, digitRun] at hd
    by_cases hne : (ds.takeWhile isDecimal).isEmpty
    · simp [hne] at hd
    · simp only [hne, if_false, Option.some.injEq, Prod.mk.injEq, Bool.false_eq_true] at hd
      obtain ⟨rfl, rfl⟩ := hd
      refine ⟨⟨sign, ds.takeWhile isDecimal, hs, by simpa using hne, fun c hc => List.mem_takeWhile_imp hc⟩, ?_,
        stopsAt_dropWhile _ _, rfl⟩
      simp [Literal.chars]
  cases cs with
  | nil => cases h
  | cons c rest' =>
    simp only [integerAt] at h
    split at h
    · next hs => exact sound (some c) rest' (by simpa using hs) h
    · exact sound none (c :: rest') (by simp) h

/-- A text that begins with a literal has an integer there: the literal with all the digits that follow it. -/
theorem not_literal_of_integerAt {position : Nat} {cs : List Char} (h : integerAt position cs = none) (l : Literal) :
    ¬ l.chars <+: cs := by
  rintro ⟨tail, rfl⟩
  have hlong : ∀ c ∈ l.digits ++ tail.takeWhile isDecimal, isDecimal c = true := by
    intro c hc
    rcases List.mem_append.1 hc with hc | hc
    · exact l.decimal c hc
    · exact List.mem_takeWhile_imp hc
  let long : Literal := ⟨l.sign, l.digits ++ tail.takeWhile isDecimal, l.signs, by simp [l.nonempty], hlong⟩
  have hsplit : l.chars ++ tail = long.chars ++ tail.dropWhile isDecimal := by
    simp [long, Literal.chars, List.append_assoc]
  rw [hsplit, integerAt_literal long (stopsAt_dropWhile _ _)] at h
  cases h

/-! ## One step of the scanner -/

theorem lexeme_of_isBlank {c : Char} (h : isBlank c = true) (position : Nat) (rest : List Char) :
    lexeme position c rest = some ([], rest) := by simp [lexeme, h]

theorem lexeme_of_mark? {c : Char} {t : Terminal} (h : mark? c = some t) (position : Nat) (rest : List Char) :
    lexeme position c rest = some ([⟨t.symbol, c.toString, position⟩], rest) := by
  have hb := (isMark_of_mark? h).blank
  unfold mark? at h
  unfold lexeme
  simp only [hb, Bool.false_eq_true, if_false]
  split_ifs at h ⊢ <;> (cases h; rfl)

theorem shows_of_mark? {c : Char} {t : Terminal} (h : mark? c = some t) (position : Nat) :
    Token.Shows ⟨t.symbol, c.toString, position⟩ t := by
  refine ⟨rfl, ?_⟩
  rintro text rfl
  unfold mark? at h
  split_ifs at h <;> cases h

theorem lexeme_of_literal {c : Char} (hb : isBlank c = false) (hm : mark? c = none) (position : Nat)
    (rest : List Char) {token : Token} {after : List Char}
    (h : integerAt position (c :: rest) = some (token, after)) :
    lexeme position c rest = some ([token], after) := by
  unfold mark? at hm
  unfold lexeme
  split_ifs at hm
  simp only [Bool.false_eq_true, if_false, *]

theorem lexeme_of_unmarked {c : Char} (hb : isBlank c = false) (hm : mark? c = none) (position : Nat)
    (rest : List Char) (h : integerAt position (c :: rest) = none) :
    lexeme position c rest = if isNameChar c then
      some (⟨.name, String.ofList (c :: rest.takeWhile isNameChar), position⟩ ::
          (suffixAt (position + (c :: rest.takeWhile isNameChar).length) (rest.dropWhile isNameChar)).1,
        (suffixAt (position + (c :: rest.takeWhile isNameChar).length) (rest.dropWhile isNameChar)).2)
    else none := by
  unfold mark? at hm
  unfold lexeme
  split_ifs at hm
  simp only [Bool.false_eq_true, if_false, *]

theorem suffixAt_literal (l : Literal) {rest : List Char} (h : StopsAt isDecimal rest) (position : Nat) :
    suffixAt position (l.chars ++ rest) =
      ([⟨.caret, "^", position⟩, integerToken position l.sign l.digits], rest) := by
  simp only [suffixAt, integerAt_literal l h]

theorem suffixAt_of_not_literal {cs : List Char} (h : ∀ l : Literal, ¬ l.chars <+: cs) (position : Nat) :
    suffixAt position cs = ([], cs) := by
  unfold suffixAt
  split
  · next token after hi =>
    obtain ⟨l, rfl, _, _⟩ := exists_literal_of_integerAt hi
    exact absurd (List.prefix_append _ _) (h l)
  · rfl

/-- What the scanner takes is a lexeme. -/
theorem exists_lexeme {position : Nat} {c : Char} {rest after : List Char} {tokens : List Token}
    (h : lexeme position c rest = some (tokens, after)) :
    ∃ ts, Lexeme (c :: rest) ts after ∧ List.Forall₂ Token.Shows tokens ts := by
  cases hb : isBlank c with
  | true =>
    rw [lexeme_of_isBlank hb] at h
    cases h
    exact ⟨[], .blank hb, .nil⟩
  | false =>
  cases hm : mark? c with
  | some t =>
    rw [lexeme_of_mark? hm] at h
    cases h
    exact ⟨[t], .mark hm, .cons (shows_of_mark? hm _) .nil⟩
  | none =>
  cases hi : integerAt position (c :: rest) with
  | some found =>
    obtain ⟨token, tail⟩ := found
    rw [lexeme_of_literal hb hm position rest hi] at h
    cases h
    obtain ⟨l, hsplit, hstop, rfl⟩ := exists_literal_of_integerAt hi
    rw [hsplit]
    exact ⟨[l.terminal], .literal l hstop, .cons (l.shows _) .nil⟩
  | none =>
    rw [lexeme_of_unmarked hb hm position rest hi] at h
    split at h
    · next hn =>
      let n : Name := ⟨c :: rest.takeWhile isNameChar, by simp, by
        intro d hd
        rcases List.mem_cons.1 hd with rfl | hd
        · exact hn
        · exact List.mem_takeWhile_imp hd⟩
      have hsplit : c :: rest = n.chars ++ rest.dropWhile isNameChar := by simp [n]
      have hname : ∀ p, (⟨.name, String.ofList n.chars, p⟩ : Token).Shows n.terminal := fun p =>
        ⟨rfl, fun text ht => by simpa [Name.terminal] using ht⟩
      rw [hsplit]
      cases hs : integerAt (position + n.chars.length) (rest.dropWhile isNameChar) with
      | none =>
        have hl := not_literal_of_integerAt hs
        rw [suffixAt_of_not_literal hl] at h
        cases h
        exact ⟨[n.terminal], .name n (stopsAt_dropWhile _ _) hl, .cons (hname _) .nil⟩
      | some found =>
        obtain ⟨token, tail⟩ := found
        obtain ⟨l, hrest, hstop, _⟩ := exists_literal_of_integerAt hs
        rw [hrest] at h ⊢
        rw [suffixAt_literal l hstop] at h
        cases h
        exact ⟨[n.terminal, .caret, l.terminal], .raised n l hstop,
          .cons (hname _) (.cons ⟨rfl, fun _ ht => by cases ht⟩ (.cons (l.shows _) .nil))⟩
    · cases h

/-- The scanner takes every lexeme. -/
theorem lexeme_of_lexeme {cs after : List Char} {ts : List Terminal} (h : Lexeme cs ts after) (position : Nat) :
    ∃ c rest tokens, cs = c :: rest ∧ lexeme position c rest = some (tokens, after) ∧
      List.Forall₂ Token.Shows tokens ts := by
  -- a name goes on as long as its letters do, whatever stands behind it
  have named : ∀ (n : Name) (tail : List Char), StopsAt isNameChar tail → ∃ c rest, n.chars ++ tail = c :: rest ∧
      lexeme position c rest = some
        (⟨.name, String.ofList n.chars, position⟩ :: (suffixAt (position + n.chars.length) tail).1,
          (suffixAt (position + n.chars.length) tail).2) := by
    intro n tail hstop
    obtain ⟨chars, nonempty, letters⟩ := n
    cases chars with
    | nil => exact absurd rfl nonempty
    | cons c chars =>
      have hc : isNameChar c = true := letters c List.mem_cons_self
      have hrest : ∀ d ∈ chars, isNameChar d = true := fun d hd => letters d (List.mem_cons_of_mem c hd)
      have hi : integerAt position (c :: (chars ++ tail)) = none := by
        cases hi : integerAt position (c :: (chars ++ tail)) with
        | none => rfl
        | some found =>
          obtain ⟨l, hsplit, _, _⟩ := exists_literal_of_integerAt hi
          obtain ⟨d, ds, hl, _, _, hd⟩ := l.exists_head
          rw [hl, List.cons_append] at hsplit
          rw [← (List.cons.inj hsplit).1, hc] at hd
          cases hd
      refine ⟨c, chars ++ tail, rfl, ?_⟩
      rw [lexeme_of_unmarked (isBlank_of_isNameChar hc) (mark?_of_isNameChar hc) position _ hi, if_pos hc]
      simp only [takeWhile_run hrest hstop, dropWhile_run hrest hstop]
  cases h with
  | blank hb => exact ⟨_, _, [], rfl, lexeme_of_isBlank hb position _, .nil⟩
  | @mark c rest t hm =>
    exact ⟨c, after, _, rfl, lexeme_of_mark? hm position after, .cons (shows_of_mark? hm _) .nil⟩
  | literal l hstop =>
    obtain ⟨c, rest, hl, hb, hm, _⟩ := l.exists_head
    have hi := integerAt_literal l hstop position
    rw [hl, List.cons_append] at hi
    refine ⟨c, rest ++ after, _, by rw [hl, List.cons_append], lexeme_of_literal hb hm position _ hi, ?_⟩
    exact .cons (l.shows position) .nil
  | name n hstop hl =>
    obtain ⟨c, rest, hsplit, hlex⟩ := named n after hstop
    rw [suffixAt_of_not_literal hl] at hlex
    exact ⟨c, rest, _, hsplit, hlex, .cons ⟨rfl, fun text ht => by simpa [Name.terminal] using ht⟩ .nil⟩
  | raised n l hstop =>
    have hletters : StopsAt isNameChar (l.chars ++ after) := by
      obtain ⟨c, rest, hl, _, _, hn⟩ := l.exists_head
      rw [hl, List.cons_append]
      exact stopsAt_cons.2 hn
    obtain ⟨c, rest, hsplit, hlex⟩ := named n (l.chars ++ after) hletters
    rw [suffixAt_literal l hstop] at hlex
    refine ⟨c, rest, _, hsplit, hlex, .cons ⟨rfl, fun text ht => by simpa [Name.terminal] using ht⟩ ?_⟩
    exact .cons ⟨rfl, fun _ ht => by cases ht⟩ (.cons (l.shows _) .nil)

/-! ## The scanner -/

theorem scan_step {position : Nat} {c : Char} {rest after : List Char} {tokens : List Token}
    (h : lexeme position c rest = some (tokens, after)) :
    scan position (c :: rest) =
      (scan (position + (rest.length + 1 - after.length)) after).map (tokens ++ ·) := by
  rw [scan]
  split
  · next heq => rw [h] at heq; cases heq
  · next ts tail heq =>
    rw [h] at heq
    cases heq
    cases scan (position + (rest.length + 1 - after.length)) after <;> rfl

theorem exists_reads_of_scan {position : Nat} {cs : List Char} {tokens : List Token}
    (h : scan position cs = .ok tokens) : ∃ ts, Reads cs ts ∧ List.Forall₂ Token.Shows tokens ts := by
  fun_induction scan position cs generalizing tokens with
  | case1 position =>
    cases h
    exact ⟨[], .nil, .nil⟩
  | case2 position c rest hlex => cases h
  | case3 position c rest first after hlex ih =>
    cases hs : scan (position + (rest.length + 1 - after.length)) after with
    | error refused =>
      rw [hs] at h
      cases h
    | ok others =>
      rw [hs] at h
      cases h
      obtain ⟨ts, hts, hfirst⟩ := exists_lexeme hlex
      obtain ⟨us, hus, hothers⟩ := ih hs
      exact ⟨ts ++ us, .cons hts hus, List.rel_append hfirst hothers⟩

theorem Reads.exists_scan {cs : List Char} {ts : List Terminal} (h : Reads cs ts) (position : Nat) :
    ∃ tokens, scan position cs = .ok tokens ∧ List.Forall₂ Token.Shows tokens ts := by
  induction h generalizing position with
  | nil => exact ⟨[], by rw [scan], .nil⟩
  | cons hlex _ ih =>
    obtain ⟨c, rest, first, rfl, hstep, hfirst⟩ := lexeme_of_lexeme hlex position
    obtain ⟨others, hscan, hothers⟩ := ih (position + (rest.length + 1 - _))
    refine ⟨first ++ others, ?_, List.rel_append hfirst hothers⟩
    rw [scan_step hstep, hscan]
    rfl


/-- **The scanner reads.** It finds tokens for a text exactly when the text has a reading, and they show it. -/
theorem reads_iff_scan {cs : List Char} {ts : List Terminal} (position : Nat) :
    Reads cs ts ↔ ∃ tokens, scan position cs = .ok tokens ∧ List.Forall₂ Token.Shows tokens ts := by
  constructor
  · intro h
    exact h.exists_scan position
  · rintro ⟨tokens, hscan, hshow⟩
    obtain ⟨us, hreads, hshow'⟩ := exists_reads_of_scan hscan
    rwa [Token.rightUnique_shows.forall₂ hshow hshow']

/-- A text has at most one reading. -/
theorem Reads.unique {cs : List Char} {ts us : List Terminal} (ht : Reads cs ts) (hu : Reads cs us) : ts = us := by
  obtain ⟨tokens, hscan, hts⟩ := ht.exists_scan 0
  obtain ⟨tokens', hscan', hus⟩ := hu.exists_scan 0
  rw [hscan] at hscan'
  cases hscan'
  exact Token.rightUnique_shows.forall₂ hts hus

/-! ## Readings of joined texts -/

/-- nothing that ends a text can be continued by the text -/
def Apart (cs : List Char) : Prop := ∀ c ∈ cs.head?, IsMark c ∨ isBlank c = true

theorem apart_mark {c : Char} {t : Terminal} (h : mark? c = some t) (cs : List Char) : Apart (c :: cs) := by
  intro d hd
  cases hd
  exact Or.inl (isMark_of_mark? h)

theorem apart_blank {cs : List Char} (h : ∀ c ∈ cs, isBlank c = true) : Apart cs := fun c hc =>
  Or.inr (h c (List.mem_of_mem_head? hc))

/-- the character behind is no part of a literal and no letter of a name -/
theorem Apart.head {c : Char} {cs : List Char} (h : Apart (c :: cs)) :
    isDecimal c = false ∧ isSign c = false ∧ isNameChar c = false := by
  rcases h c rfl with hm | hb
  · exact ⟨hm.decimal, hm.sign, hm.letter⟩
  · obtain ⟨hn, hd⟩ := isBlank_disjoint hb
    refine ⟨hd, ?_, hn⟩
    cases hs : isSign c with
    | false => rfl
    | true => rw [(class_of_isSign hs).1] at hb; cases hb

theorem stopsAt_append {p : Char → Bool} {cs ds : List Char} (hc : StopsAt p cs) (hd : StopsAt p ds) :
    StopsAt p (cs ++ ds) := by
  cases cs with
  | nil => exact hd
  | cons c cs => exact stopsAt_cons.2 (stopsAt_cons.1 hc)

theorem Apart.stopsAt_decimal {ds : List Char} (h : Apart ds) : StopsAt isDecimal ds := by
  cases ds with
  | nil => exact stopsAt_nil _
  | cons d ds => exact stopsAt_cons.2 h.head.1

theorem Apart.stopsAt_letter {ds : List Char} (h : Apart ds) : StopsAt isNameChar ds := by
  cases ds with
  | nil => exact stopsAt_nil _
  | cons d ds => exact stopsAt_cons.2 h.head.2.2

/-- A literal at the beginning of joined texts ends before the second begins. -/
theorem Literal.prefix_of_apart {l : Literal} {rest ds : List Char} (hd : Apart ds) (h : l.chars <+: rest ++ ds) :
    l.chars <+: rest := by
  obtain ⟨more, h⟩ := h
  rcases List.append_eq_append_iff.1 h with ⟨inner, hrest, _⟩ | ⟨tail, htail, rfl⟩
  · exact hrest ▸ List.prefix_append _ _
  · cases tail with
    | nil =>
      have hsame : l.chars = rest := htail.trans (List.append_nil rest)
      exact hsame ▸ List.prefix_refl _
    | cons c tail =>
      obtain ⟨hdec, hsign, _⟩ := Apart.head hd
      have hc : c ∈ l.chars := htail ▸ List.mem_append_right _ List.mem_cons_self
      rcases l.class_of_mem hc with hc | hc
      · rw [hsign] at hc; cases hc
      · rw [hdec] at hc; cases hc

theorem Lexeme.append {cs rest ds : List Char} {ts : List Terminal} (h : Lexeme cs ts rest) (hd : Apart ds) :
    Lexeme (cs ++ ds) ts (rest ++ ds) := by
  cases h with
  | blank hb => exact .blank hb
  | mark hm => exact .mark hm
  | literal l hs =>
    rw [List.append_assoc]
    exact .literal l (stopsAt_append hs hd.stopsAt_decimal)
  | name n hs hl =>
    rw [List.append_assoc]
    exact .name n (stopsAt_append hs hd.stopsAt_letter) fun l hp => hl l (l.prefix_of_apart hd hp)
  | raised n l hs =>
    rw [List.append_assoc, List.append_assoc]
    exact .raised n l (stopsAt_append hs hd.stopsAt_decimal)

/-- **Readings join.** The reading of two texts one after the other is the two readings one after the other, where the
second text begins with a mark, a blank or nothing. -/
theorem Reads.append {cs ds : List Char} {ts us : List Terminal} (ht : Reads cs ts) (hu : Reads ds us)
    (hd : Apart ds) : Reads (cs ++ ds) (ts ++ us) := by
  induction ht with
  | nil => exact hu
  | cons hlex _ ih =>
    rw [List.append_assoc]
    exact .cons (hlex.append hd) ih

theorem Reads.mark {c : Char} {t : Terminal} {cs : List Char} {ts : List Terminal} (hm : mark? c = some t)
    (h : Reads cs ts) : Reads (c :: cs) (t :: ts) := .cons (.mark hm) h

theorem reads_blank {cs : List Char} (h : ∀ c ∈ cs, isBlank c = true) : Reads cs [] := by
  induction cs with
  | nil => exact .nil
  | cons c cs ih =>
    exact .cons (.blank (h c List.mem_cons_self)) (ih fun d hd => h d (List.mem_cons_of_mem c hd))

/-- A text is read like its trimmed form. -/
theorem Reads.of_trim {cs : List Char} {ts : List Terminal} (h : Reads (trim cs) ts) : Reads cs ts := by
  obtain ⟨front, back, hsplit, hfront, hback⟩ := exists_trim cs
  have hinner : Reads (trim cs ++ back) (ts ++ []) := h.append (reads_blank hback) (apart_blank hback)
  rw [List.append_nil] at hinner
  rw [hsplit, List.append_assoc]
  clear hsplit
  induction front with
  | nil => exact hinner
  | cons c front ih =>
    exact .cons (.blank (hfront c List.mem_cons_self)) (ih fun d hd => hfront d (List.mem_cons_of_mem c hd))

/-! ## Literals of a reading -/

/-- no run of digits of a text is longer than a bound -/
def DigitsBelow (bound : Nat) (cs : List Char) : Prop :=
  ∀ run, run <:+: cs → (∀ c ∈ run, isDecimal c = true) → run.length ≤ bound

theorem DigitsBelow.mono {bound : Nat} {cs ds : List Char} (h : DigitsBelow bound cs) (hi : ds <:+: cs) :
    DigitsBelow bound ds := fun run hr hd => h run (hr.trans hi) hd

theorem Lexeme.suffix {cs rest : List Char} {ts : List Terminal} (h : Lexeme cs ts rest) : rest <:+ cs := by
  cases h with
  | blank _ => exact List.suffix_cons _ _
  | mark _ => exact List.suffix_cons _ _
  | literal l _ => exact List.suffix_append _ _
  | name n _ _ => exact List.suffix_append _ _
  | raised n l _ => exact (List.suffix_append _ _).trans (List.suffix_append _ _)

theorem Lexeme.digits_le {bound : Nat} {cs rest : List Char} {ts : List Terminal} (h : Lexeme cs ts rest)
    (hb : DigitsBelow bound cs) : ∀ n, .integer n ∈ ts → n.digits ≤ bound := by
  have short : ∀ l : Literal, l.chars <:+: cs → l.numeral.digits ≤ bound := by
    intro l hl
    rw [l.digits_numeral]
    exact hb l.digits ((List.suffix_append _ _).isInfix.trans hl) l.decimal
  intro n hn
  cases h with
  | blank _ => cases hn
  | mark hm =>
    cases List.mem_singleton.1 hn
    unfold mark? at hm
    split_ifs at hm <;> cases hm
  | literal l _ =>
    cases List.mem_singleton.1 hn
    exact short l (List.prefix_append _ _).isInfix
  | name _ _ _ => cases List.mem_singleton.1 hn
  | raised m l _ =>
    simp only [Name.terminal, Literal.terminal, List.mem_cons, reduceCtorEq, Terminal.integer.injEq,
      List.not_mem_nil, or_false, false_or] at hn
    rw [hn]
    exact short l ((List.prefix_append _ _).isInfix.trans (List.suffix_append _ _).isInfix)

/-- A literal of a reading is a run of digits of the text. -/
theorem Reads.digits_le {bound : Nat} {cs : List Char} {ts : List Terminal} (h : Reads cs ts)
    (hb : DigitsBelow bound cs) : ∀ n, .integer n ∈ ts → n.digits ≤ bound := by
  induction h with
  | nil => intro n hn; cases hn
  | cons hlex _ ih =>
    intro n hn
    rcases List.mem_append.1 hn with hn | hn
    · exact hlex.digits_le hb n hn
    · exact ih (hb.mono hlex.suffix.isInfix) n hn

end UnitAlgebra.Expression

/-
Exponents of dimensions and scales: integers of absolute value at most 32767. Arithmetic on them is partial and says so.

Results:
- `ofInt?_eq_some_iff`: an integer is an exponent exactly when it is in range.
- `add?_eq_some_iff`, `mul?_eq_some_iff`: sums and multiples are those of the integers, when in range.
- `map_lowered_raised`, `superscript_injective`: an integer can be read off its superscript, so no two are written
  alike.
-/

namespace UnitAlgebra

/-- the largest absolute value of an exponent, which fits into 16 bits -/
def exponentLimit : Nat := 32767

/-- an integer in the range of exponents -/
structure Exponent where
  val : Int
  bounded : val.natAbs ≤ exponentLimit
deriving DecidableEq, Repr

namespace Exponent

@[ext] theorem ext {a b : Exponent} (h : a.val = b.val) : a = b := by
  cases a; cases b; simp_all

/-! ## Arithmetic -/

def ofInt? (n : Int) : Option Exponent :=
  if h : n.natAbs ≤ exponentLimit then some ⟨n, h⟩ else none

/-- the exponent next to an integer -/
def saturated (n : Int) : Exponent :=
  if h : n.natAbs ≤ exponentLimit then ⟨n, h⟩
  else if 0 ≤ n then ⟨exponentLimit, by decide⟩ else ⟨-exponentLimit, by decide⟩

instance (n : Nat) : OfNat Exponent n := ⟨saturated n⟩

instance : Inhabited Exponent := ⟨0⟩

def neg (a : Exponent) : Exponent := ⟨-a.val, by simpa using a.bounded⟩

instance : Neg Exponent := ⟨neg⟩

def add? (a b : Exponent) : Option Exponent := ofInt? (a.val + b.val)

def mul? (a : Exponent) (n : Int) : Option Exponent := ofInt? (a.val * n)

/-- the smaller of two exponents -/
def least (a b : Exponent) : Exponent := if b.val < a.val then b else a

/-- the larger of two exponents -/
def greatest (a b : Exponent) : Exponent := if a.val < b.val then b else a

/-- An integer is an exponent exactly when it is in range. -/
theorem ofInt?_eq_some_iff {n : Int} {a : Exponent} : ofInt? n = some a ↔ a.val = n := by
  unfold ofInt?
  constructor
  · intro h
    split at h
    · simp only [Option.some.injEq] at h; subst h; rfl
    · simp at h
  · rintro rfl
    simp [a.bounded]

theorem ofInt?_eq_none_iff {n : Int} : ofInt? n = none ↔ exponentLimit < n.natAbs := by
  unfold ofInt?; split <;> simp <;> omega

/-- A sum of exponents is the sum of the integers, when in range. -/
theorem add?_eq_some_iff {a b c : Exponent} : a.add? b = some c ↔ c.val = a.val + b.val := ofInt?_eq_some_iff

/-- A multiple of an exponent is the multiple of the integer, when in range. -/
theorem mul?_eq_some_iff {a c : Exponent} {n : Int} : a.mul? n = some c ↔ c.val = a.val * n := ofInt?_eq_some_iff

@[simp] theorem val_neg (a : Exponent) : (-a).val = -a.val := rfl

@[simp] theorem val_zero : (0 : Exponent).val = 0 := rfl

@[simp] theorem val_one : (1 : Exponent).val = 1 := rfl

/-! ## Written form -/

/-- a digit or sign as a superscript -/
def raised (c : Char) : Char :=
  match c with
  | '-' => '⁻' | '0' => '⁰' | '1' => '¹' | '2' => '²' | '3' => '³' | '4' => '⁴'
  | '5' => '⁵' | '6' => '⁶' | '7' => '⁷' | '8' => '⁸' | '9' => '⁹' | c => c

/-- the decimal digits of an integer, with a minus sign in front of a negative one -/
def decimalDigits (n : Int) : List Char :=
  if n < 0 then '-' :: Nat.toDigits 10 n.natAbs else Nat.toDigits 10 n.natAbs

/-- an integer as decimal text -/
def decimal (n : Int) : String := String.ofList (decimalDigits n)

/-- an integer in superscripts -/
def superscript (n : Int) : String := String.ofList ((decimalDigits n).map raised)

/-- a base with its exponent; the exponent one is not written -/
def power (base : String) (a : Exponent) : String := if a.val = 1 then base else base ++ superscript a.val

theorem isDigit_of_mem_toDigits {n : Nat} {c : Char} (h : c ∈ Nat.toDigits 10 n) : c.isDigit :=
  Nat.isDigit_of_mem_toDigits (by decide) (by decide) h

theorem decimalDigits_injective {m n : Int} (h : decimalDigits m = decimalDigits n) : m = n := by
  have hd : ∀ {a b : Nat}, Nat.toDigits 10 a = Nat.toDigits 10 b → a = b := fun {a b} hab => by
    rw [← Nat.ofDigitChars_toDigits (b := 10) (n := a) (by decide) (by decide), hab,
      Nat.ofDigitChars_toDigits (by decide) (by decide)]
  have hs : ∀ {a b : Nat}, '-' :: Nat.toDigits 10 a ≠ Nat.toDigits 10 b := fun {a b} hab => by
    have : '-' ∈ Nat.toDigits 10 b := hab ▸ List.mem_cons_self
    exact absurd (isDigit_of_mem_toDigits this) (by decide)
  unfold decimalDigits at h
  split at h <;> split at h
  · have := hd (List.cons.inj h).2; omega
  · exact absurd h hs
  · exact absurd h.symm hs
  · have := hd h; omega

/-- the digit or sign of a superscript -/
def lowered (c : Char) : Char :=
  match c with
  | '⁻' => '-' | '⁰' => '0' | '¹' => '1' | '²' => '2' | '³' => '3' | '⁴' => '4'
  | '⁵' => '5' | '⁶' => '6' | '⁷' => '7' | '⁸' => '8' | '⁹' => '9' | c => c

/-- A digit can be read off its superscript. -/
theorem lowered_raised_of_isDigit {c : Char} (h : c.isDigit) : lowered (raised c) = c := by
  have hc : c.toNat < 58 ∧ 48 ≤ c.toNat := by
    simp only [Char.isDigit, Bool.and_eq_true, decide_eq_true_eq, UInt32.le_iff_toNat_le] at h
    exact ⟨Nat.lt_succ_of_le h.2, h.1⟩
  have hall : ∀ v < 58, 48 ≤ v → lowered (raised (Char.ofNat v)) = Char.ofNat v := by decide
  simpa [Char.ofNat_toNat] using hall c.toNat hc.1 hc.2

/-- An integer can be read off its superscript. -/
theorem map_lowered_raised (n : Int) : ((decimalDigits n).map raised).map lowered = decimalDigits n := by
  have hdigits : ∀ k : Nat, ((Nat.toDigits 10 k).map raised).map lowered = Nat.toDigits 10 k := fun k => by
    rw [List.map_map]
    have hid : ∀ c ∈ Nat.toDigits 10 k, (lowered ∘ raised) c = id c := fun c hc =>
      lowered_raised_of_isDigit (isDigit_of_mem_toDigits hc)
    rw [List.map_congr_left hid, List.map_id]
  unfold decimalDigits
  split
  · rw [List.map_cons, List.map_cons, hdigits]
    rfl
  · exact hdigits _

/-- No two integers are written alike. -/
theorem superscript_injective {m n : Int} (h : superscript m = superscript n) : m = n := by
  apply decimalDigits_injective
  rw [← map_lowered_raised m, ← map_lowered_raised n]
  have hl : (decimalDigits m).map raised = (decimalDigits n).map raised := by
    simpa [superscript] using congrArg String.toList h
  rw [hl]

end Exponent

end UnitAlgebra

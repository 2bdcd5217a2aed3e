/-
Binary floating point numbers of 64 bits as exact quantities `± m · 2^q`, and the number nearest to a quotient of two
naturals: halves go to the even neighbour, what is too large becomes infinity.

Results:
- `roundHalfEven_error`: a rounded quotient is within half a unit of the quotient.
- `roundHalfEven_exact`: a quotient without remainder is kept.
-/

namespace UnitAlgebra.Binary64

/-! ## Rounded quotients -/

/-- the quotient rounded to the nearest natural, a half to the even one -/
def roundHalfEven (num den : Nat) : Nat :=
  let q := num / den
  let r := num % den
  if 2 * r < den then q else if den < 2 * r then q + 1 else if q % 2 = 0 then q else q + 1

/-- A rounded quotient is within half a unit of the quotient. -/
theorem roundHalfEven_error (num : Nat) {den : Nat} (h0 : 0 < den) :
    2 * num ≤ (2 * roundHalfEven num den + 1) * den ∧ 2 * roundHalfEven num den * den ≤ 2 * num + den := by
  have h := Nat.div_add_mod num den
  have hc : num / den * den = den * (num / den) := Nat.mul_comm _ _
  unfold roundHalfEven
  simp only
  have e1 : ∀ q : Nat, (2 * q + 1) * den = 2 * (q * den) + den := fun q => by
    rw [Nat.add_mul, Nat.mul_assoc, Nat.one_mul]
  have e2 : ∀ q : Nat, 2 * q * den = 2 * (q * den) := fun q => Nat.mul_assoc _ _ _
  have e3 : (num / den + 1) * den = num / den * den + den := Nat.succ_mul _ _
  simp only [e1, e2]
  have hr : num % den < den := Nat.mod_lt _ h0
  split
  · omega
  · split
    · omega
    · split <;> omega

/-- A quotient without remainder is kept. -/
theorem roundHalfEven_exact (q : Nat) {den : Nat} (h : 0 < den) : roundHalfEven (q * den) den = q := by
  simp [roundHalfEven, Nat.mul_div_cancel _ h, h]

/-! ## Encoding -/

/-- the exponent of the leading bit of a positive quotient -/
def leadingBit (num den : Nat) : Int :=
  let e : Int := (Nat.log2 num : Int) - Nat.log2 den
  let reached := if 0 ≤ e then den <<< e.toNat ≤ num else den ≤ num <<< (-e).toNat
  if reached then e else e - 1

/-- the bits of the number nearest to a quotient: 53 of them, fewer below 2^-1022 -/
def quotientBits (num den : Nat) : Nat :=
  if num = 0 then 0
  else
    let q : Int := max (leadingBit num den - 52) (-1074)
    let m := if 0 ≤ q then roundHalfEven num (den <<< q.toNat) else roundHalfEven (num <<< (-q).toNat) den
    let bits := (q + 1074).toNat <<< 52 + m
    min bits (0x7FF <<< 52)

/-- the number nearest to `num / den` -/
def ofQuotient (num den : Nat) : Float := Float.ofBits (quotientBits num den).toUInt64

/-- the number nearest to `± num / den` -/
def ofSignedQuotient (negative : Bool) (num den : Nat) : Float :=
  if negative then -ofQuotient num den else ofQuotient num den

/-- the number nearest to an integer -/
def ofInt (n : Int) : Float := ofSignedQuotient (n < 0) n.natAbs 1

/-! ## Decoding -/

/-- a finite number as sign, mantissa and power of two -/
structure Parts where
  negative : Bool
  mantissa : Nat
  power : Int
deriving DecidableEq, Repr

/-- the sign bit, set on negative zero too -/
def isNegative (x : Float) : Bool := x.toBits.toNat >>> 63 = 1

/-- the parts of a finite number -/
def parts (x : Float) : Parts :=
  let bits := x.toBits.toNat
  let biased := (bits >>> 52) % 0x800
  let fraction := bits % (1 <<< 52)
  if biased = 0 then ⟨isNegative x, fraction, -1074⟩ else ⟨isNegative x, fraction + 1 <<< 52, (biased : Int) - 1075⟩

/-- the magnitude as a quotient of naturals -/
def Parts.quotient (p : Parts) : Nat × Nat :=
  if 0 ≤ p.power then (p.mantissa <<< p.power.toNat, 1) else (p.mantissa, 1 <<< (-p.power).toNat)

/-- the magnitude of a finite number as a quotient of naturals -/
def quotient (x : Float) : Nat × Nat := (parts x).quotient

/-! ## Integer neighbours -/

/-- a finite number without its fraction -/
def truncated (x : Float) : Int :=
  let (num, den) := quotient x
  let n : Int := (num / den : Nat)
  if isNegative x then -n else n

/-- the remainder of the magnitudes of two finite numbers, with the sign of the first; exact -/
def remainderToZero (x y : Float) : Float :=
  let (a, b) := quotient x
  let (c, d) := quotient y
  ofSignedQuotient (isNegative x) ((a * d) % (c * b)) (b * d)

end UnitAlgebra.Binary64

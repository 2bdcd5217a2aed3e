/-
Scales: exact factors `2^two · 3^three · 5^five · pi^pi`. They are composed by their exponents and become numbers only
when a value has to be moved from one scale to another.

Results:
- `get_ofFn`, `ext_get`: a scale is its exponents.
- `get_add?`, `get_mul?`: products and powers are taken on every base.
-/
import UnitAlgebra.Exponent

namespace UnitAlgebra

/-! ## Bases -/

/-- what a scale is a product of powers of -/
inductive Base where
  | two | three | five | pi
deriving DecidableEq, Repr

namespace Base

/-- all bases, in the order that exponents are listed in -/
def all : List Base := [two, three, five, pi]

theorem mem_all (b : Base) : b ∈ all := by cases b <;> decide

def name : Base → String
  | two => "two"
  | three => "three"
  | five => "five"
  | pi => "pi"

def symbol : Base → String
  | two => "2"
  | three => "3"
  | five => "5"
  | pi => "π"

/-- how the base is written in a unit expression -/
def factor : Base → String
  | two => "2"
  | three => "3"
  | five => "5"
  | pi => "pi"

end Base

/-! ## Scales -/

structure Scale where
  two : Exponent := 0
  three : Exponent := 0
  five : Exponent := 0
  pi : Exponent := 0
deriving DecidableEq, Repr

namespace Scale

/-- the factor one -/
def one : Scale := {}

instance : Inhabited Scale := ⟨one⟩

/-- a power of ten -/
def ten (e : Exponent) : Scale := { two := e, five := e }

def get (s : Scale) : Base → Exponent
  | .two => s.two
  | .three => s.three
  | .five => s.five
  | .pi => s.pi

def ofFn (f : Base → Exponent) : Scale := ⟨f .two, f .three, f .five, f .pi⟩

def ofFn? (f : Base → Option Exponent) : Option Scale := do
  return ⟨← f .two, ← f .three, ← f .five, ← f .pi⟩

def toList (s : Scale) : List Exponent := Base.all.map s.get

@[simp] theorem get_ofFn (f : Base → Exponent) (b : Base) : (ofFn f).get b = f b := by cases b <;> rfl

/-- A scale is its exponents. -/
theorem ext_get {s t : Scale} (h : ∀ b, s.get b = t.get b) : s = t := by
  cases s; cases t
  simp only [Scale.mk.injEq]
  exact ⟨h .two, h .three, h .five, h .pi⟩

theorem ofFn?_eq_some_iff {f : Base → Option Exponent} {s : Scale} :
    ofFn? f = some s ↔ ∀ b, f b = some (s.get b) := by
  constructor
  · intro h
    simp only [ofFn?, bind, Option.bind_eq_some_iff, pure, Option.some.injEq] at h
    obtain ⟨m, hm, l, hl, t, ht, i, hi, rfl⟩ := h
    intro b
    cases b <;> assumption
  · intro h
    simp only [ofFn?, h]
    rfl

/-! ## Arithmetic -/

def add? (s t : Scale) : Option Scale := ofFn? fun b => (s.get b).add? (t.get b)

def neg (s : Scale) : Scale := ofFn fun b => -s.get b

def mul? (s : Scale) (n : Int) : Option Scale := ofFn? fun b => (s.get b).mul? n

/-- the smaller exponent of every base -/
def least (s t : Scale) : Scale := ofFn fun b => (s.get b).least (t.get b)

/-- the larger exponent of every base -/
def greatest (s t : Scale) : Scale := ofFn fun b => (s.get b).greatest (t.get b)

def isOne (s : Scale) : Bool := s = one

/-- the power of ten, of a scale that is one -/
def log10? (s : Scale) : Option Int :=
  if s.two = s.five ∧ s.three = 0 ∧ s.pi = 0 then some s.two.val else none

/-- a product is taken on every base -/
theorem get_add? {s t u : Scale} (h : s.add? t = some u) (b : Base) :
    (u.get b).val = (s.get b).val + (t.get b).val :=
  Exponent.add?_eq_some_iff.1 (ofFn?_eq_some_iff.1 h b)

/-- a power is taken on every base -/
theorem get_mul? {s u : Scale} {n : Int} (h : s.mul? n = some u) (b : Base) :
    (u.get b).val = (s.get b).val * n :=
  Exponent.mul?_eq_some_iff.1 (ofFn?_eq_some_iff.1 h b)

@[simp] theorem get_neg (s : Scale) (b : Base) : s.neg.get b = -s.get b := get_ofFn _ b

/-! ## The rational part -/

/-- the numerator of the part without pi, in lowest terms -/
def numerator (s : Scale) : Nat :=
  Nat.pow 2 s.two.val.toNat * Nat.pow 3 s.three.val.toNat * Nat.pow 5 s.five.val.toNat

/-- the denominator of the part without pi, in lowest terms -/
def denominator (s : Scale) : Nat := s.neg.numerator

/-- the part without pi -/
def rational (s : Scale) : Rat := (s.numerator : Rat) / s.denominator

/-! ## Written form -/

/-- a power of ten, or the bases with their exponents, joined by dots; the factor one is written 1 -/
def text (s : Scale) : String :=
  if s.isOne then "1"
  else match s.log10? with
    | some n => "10" ++ Exponent.superscript n
    | none =>
      "·".intercalate ((Base.all.filter fun b => (s.get b).val ≠ 0).map fun b => Exponent.power b.symbol (s.get b))

end Scale

end UnitAlgebra

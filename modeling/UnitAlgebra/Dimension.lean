/-
Dimensions: one exponent for each of eight physical axes. A product of units adds them, a quotient subtracts them, a
power multiplies them; out of the range of exponents there is no result.

Results:
- `get_ofFn`, `ext_get`: a dimension is its exponents.
- `get_add?`, `get_mul?`: sums and multiples are taken on every axis.
- `get_root`: a root that exists divides every exponent without remainder.
-/
import UnitAlgebra.Exponent

namespace UnitAlgebra

/-! ## Axes -/

inductive Axis where
  | mass | length | time | current | temperature | amount | luminosity | angle
deriving DecidableEq, Repr

namespace Axis

/-- all axes, in the order that exponents are listed in -/
def all : List Axis := [mass, length, time, current, temperature, amount, luminosity, angle]

theorem mem_all (a : Axis) : a ∈ all := by cases a <;> decide

def name : Axis → String
  | mass => "mass"
  | length => "length"
  | time => "time"
  | current => "current"
  | temperature => "temperature"
  | amount => "amount"
  | luminosity => "luminosity"
  | angle => "angle"

def symbol : Axis → String
  | mass => "M"
  | length => "L"
  | time => "T"
  | current => "I"
  | temperature => "θ"
  | amount => "N"
  | luminosity => "Cd"
  | angle => "A"

def ofName? (s : String) : Option Axis := all.find? (·.name = s)

end Axis

/-! ## Dimensions -/

structure Dimension where
  mass : Exponent := 0
  length : Exponent := 0
  time : Exponent := 0
  current : Exponent := 0
  temperature : Exponent := 0
  amount : Exponent := 0
  luminosity : Exponent := 0
  angle : Exponent := 0
deriving DecidableEq, Repr

namespace Dimension

/-- the dimension of a bare number -/
def one : Dimension := {}

instance : Inhabited Dimension := ⟨one⟩

def get (d : Dimension) : Axis → Exponent
  | .mass => d.mass
  | .length => d.length
  | .time => d.time
  | .current => d.current
  | .temperature => d.temperature
  | .amount => d.amount
  | .luminosity => d.luminosity
  | .angle => d.angle

def ofFn (f : Axis → Exponent) : Dimension :=
  ⟨f .mass, f .length, f .time, f .current, f .temperature, f .amount, f .luminosity, f .angle⟩

def ofFn? (f : Axis → Option Exponent) : Option Dimension := do
  return ⟨← f .mass, ← f .length, ← f .time, ← f .current, ← f .temperature, ← f .amount, ← f .luminosity, ← f .angle⟩

def toList (d : Dimension) : List Exponent := Axis.all.map d.get

@[simp] theorem get_ofFn (f : Axis → Exponent) (a : Axis) : (ofFn f).get a = f a := by cases a <;> rfl

/-- A dimension is its exponents. -/
theorem ext_get {d e : Dimension} (h : ∀ a, d.get a = e.get a) : d = e := by
  cases d; cases e
  simp only [Dimension.mk.injEq]
  exact ⟨h .mass, h .length, h .time, h .current, h .temperature, h .amount, h .luminosity, h .angle⟩

theorem ofFn?_eq_some_iff {f : Axis → Option Exponent} {d : Dimension} :
    ofFn? f = some d ↔ ∀ a, f a = some (d.get a) := by
  constructor
  · intro h
    simp only [ofFn?, bind, Option.bind_eq_some_iff, pure, Option.some.injEq] at h
    obtain ⟨m, hm, l, hl, t, ht, i, hi, θ, hθ, n, hn, c, hc, g, hg, rfl⟩ := h
    intro a
    cases a <;> assumption
  · intro h
    simp only [ofFn?, h]
    rfl

/-! ## Arithmetic -/

def add? (d e : Dimension) : Option Dimension := ofFn? fun a => (d.get a).add? (e.get a)

def neg (d : Dimension) : Dimension := ofFn fun a => -d.get a

def mul? (d : Dimension) (n : Int) : Option Dimension := ofFn? fun a => (d.get a).mul? n

/-- every exponent is a multiple of `n` -/
def divisible (d : Dimension) (n : Int) : Bool := Axis.all.all fun a => (d.get a).val % n = 0

/-- every exponent divided by `n` -/
def root (d : Dimension) (n : Int) : Dimension :=
  ofFn fun a => ⟨(d.get a).val / n, Nat.le_trans (Int.natAbs_ediv_le_natAbs _ _) (d.get a).bounded⟩

def isOne (d : Dimension) : Bool := d = one

/-- a nonzero dimension of which only the angle counts -/
def isAngle (d : Dimension) : Bool := d ≠ one && { d with angle := 0 } = one

def withoutAngle (d : Dimension) : Dimension := { d with angle := 0 }

/-- values of these dimensions may be taken as bare numbers -/
def isErasable (d : Dimension) : Bool := d.isOne || d.isAngle

/-- a sum is taken on every axis -/
theorem get_add? {d e s : Dimension} (h : d.add? e = some s) (a : Axis) :
    (s.get a).val = (d.get a).val + (e.get a).val :=
  Exponent.add?_eq_some_iff.1 (ofFn?_eq_some_iff.1 h a)

/-- a multiple is taken on every axis -/
theorem get_mul? {d m : Dimension} {n : Int} (h : d.mul? n = some m) (a : Axis) :
    (m.get a).val = (d.get a).val * n :=
  Exponent.mul?_eq_some_iff.1 (ofFn?_eq_some_iff.1 h a)

@[simp] theorem get_neg (d : Dimension) (a : Axis) : d.neg.get a = -d.get a := get_ofFn _ a

/-- A root that exists divides every exponent without remainder. -/
theorem get_root {d : Dimension} {n : Int} (h : d.divisible n) (a : Axis) :
    ((d.root n).get a).val * n = (d.get a).val := by
  have ha : (d.get a).val % n = 0 := by
    simpa using List.all_eq_true.1 h a a.mem_all
  simp only [root, get_ofFn]
  exact Int.ediv_mul_cancel (Int.dvd_of_emod_eq_zero ha)

/-! ## Written form -/

/-- the axes with their exponents, joined by dots; the dimension of a bare number is written 1 -/
def text (d : Dimension) : String :=
  if d.isOne then "1"
  else "·".intercalate ((Axis.all.filter fun a => (d.get a).val ≠ 0).map fun a => Exponent.power a.symbol (d.get a))

end Dimension

end UnitAlgebra

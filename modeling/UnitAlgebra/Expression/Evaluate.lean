/-
What unit expressions denote in a registry. A name is a unit by its symbol, or by its name, or an SI prefix before a
prefixable unit, or else pi. An integer is an exact scale and must be a product of twos, threes and fives.

Results:
- `factorOut_spec`: taking a prime out of a number leaves its power and a factor without it.
-/
import UnitAlgebra.Expression.Parser
import UnitAlgebra.Registry.Suggest

namespace UnitAlgebra.Expression

/-! ## Integers -/

/-- how often a prime divides a number, with what is left -/
def factorOut (p n : Nat) : Nat × Nat :=
  if _h : 1 < p ∧ 0 < n ∧ n % p = 0 then
    let (k, m) := factorOut p (n / p)
    (k + 1, m)
  else (0, n)
termination_by n
decreasing_by exact Nat.div_lt_self _h.2.1 _h.1

/-- Taking a prime out of a number leaves its power and a factor without it. -/
theorem factorOut_spec {p : Nat} (hp : 1 < p) (n : Nat) :
    Nat.pow p (factorOut p n).1 * (factorOut p n).2 = n ∧ (0 < n → (factorOut p n).2 % p ≠ 0) := by
  fun_induction factorOut p n with
  | case1 n h k m hkm ih =>
    simp only [hkm] at ih
    have hdiv : n / p * p = n := Nat.div_mul_cancel (Nat.dvd_of_mod_eq_zero h.2.2)
    refine ⟨?_, fun _ => ih.2 (Nat.div_pos (Nat.le_of_dvd h.2.1 (Nat.dvd_of_mod_eq_zero h.2.2)) (by omega))⟩
    calc Nat.pow p (k + 1) * m = Nat.pow p k * m * p := Nat.mul_right_comm ..
      _ = n := by rw [ih.1, hdiv]
  | case2 n h => exact ⟨by simp, fun hn hmod => h ⟨hp, hn, hmod⟩⟩

/-- the exact scale of a positive product of twos, threes and fives -/
def integerScale (n : Int) : Outcome Scale :=
  if n ≤ 0 then .error (.format (.factorNotPositive n))
  else
    let (two, m) := factorOut 2 n.toNat
    let (three, m) := factorOut 3 m
    let (five, m) := factorOut 5 m
    if m ≠ 1 then .error (.format (.foreignFactor m))
    else Scale.ofInts fun
      | .two => two
      | .three => three
      | .five => five
      | .pi => 0

/-! ## Names -/

variable {κ : Type} [Numeric κ]

/-- the names of pi -/
def piNames : List String := ["pi", "π"]

/-- the meaning of a unit, written as given, in the scale given -/
def meaningOf (u : UnitDef κ) (f : UnitFamily κ) (scale : Scale) (text : String) : UnitMeaning κ :=
  ⟨f.dimension, scale, u.factor, u.offset, some text⟩

/-- the unit that a name stands for, with its scale; none for pi -/
def lookupName (r : Registry κ) (name : String) : Outcome (Option (Entry κ × Scale)) := do
  match r.find? name with
  | some e => return some (e, e.unit.scale)
  | none =>
    match ← r.findPrefixed? name with
    | some (p, e) => return some (e, ← e.unit.scale.mul (← p.scale))
    | none =>
      if piNames.contains name then return none
      else .error (.unit (.unknownUnit name none (← r.suggest name 3)))

/-- the meaning of a name; a strict reading takes storage units only -/
def resolve (r : Registry κ) (strict : Bool) (name : String) : Outcome (UnitMeaning κ) := do
  match ← lookupName r name with
  | none => return { UnitMeaning.stored .one { pi := 1 } with text := some name }
  | some (e, scale) =>
    if strict && !e.unit.isStorage then .error (.format (.notStorageUnit name))
    else return meaningOf e.unit e.family scale name

/-! ## Expressions -/

/-- the meaning of a tree -/
def evaluate (r : Registry κ) (strict : Bool) : UnitExpr → Outcome (UnitMeaning κ)
  | .identifier name => resolve r strict name
  | .integer value => do return .stored .one (← integerScale value)
  | .mul left right => do
    let u ← evaluate r strict left
    let v ← evaluate r strict right
    u.mul v
  | .div left right => do
    let u ← evaluate r strict left
    let v ← evaluate r strict right
    u.div v
  | .pow base exponent => do
    let u ← evaluate r strict base
    u.pow exponent

/-- an unknown name is reported with the expression that it stands in -/
def inExpression (text : String) : Fault → Fault
  | .unit (.unknownUnit name _ suggestions) => .unit (.unknownUnit name (some text) suggestions)
  | fault => fault

/-- the meaning of a text; a lone name keeps its own text, any other expression takes the whole -/
def evaluateText (r : Registry κ) (strict : Bool) (expression : String) : Outcome (UnitMeaning κ) := do
  let text := Text.trimmed expression
  let tree ← parse text
  let u ← (evaluate r strict tree).mapError (inExpression text)
  match tree with
  | .identifier _ => return u
  | _ => return { u with text := some text }

end UnitAlgebra.Expression

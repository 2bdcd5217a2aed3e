/-
Equality of operands outside tensors: numbers by value, texts, vectors and policies by what they are, lists and tuples
element by element. An operand that no tensor can hold is still equal or unequal to another.
-/
import UnitAlgebra.Session

namespace UnitAlgebra

variable {κ : Type} [Numeric κ]

/-- a number is a whole number only if it is so exactly -/
def isWhole (x : κ) (n : Int) : Bool := (Numeric.ofInt? n).any (Numeric.eq x) && Numeric.truncated x = n

/-- plain numbers of one value -/
def Session.Plain.same : Session.Plain κ → Session.Plain κ → Bool
  | .whole m, .whole n => m = n
  | .whole m, .number y => isWhole y m
  | .number x, .whole n => isWhole x n
  | .number x, .number y => Numeric.eq x y

namespace Operand

mutual

/-- operands are the same if they are numbers of one value, or written alike -/
def same : Operand κ → Operand κ → Bool
  | .absent, .absent => true
  | .text s, .text t => s = t
  | .list xs, .list ys => sameAll xs ys
  | .tuple xs, .tuple ys => sameAll xs ys
  | .dimension d, .dimension e => d = e
  | .scale s, .scale t => s = t
  | .unit u, .unit v => u.same v
  | .policy p, .policy q => p = q
  | x, y =>
    match Session.plain? x, Session.plain? y with
    | some a, some b => a.same b
    | _, _ => false

def sameAll : List (Operand κ) → List (Operand κ) → Bool
  | [], [] => true
  | x :: xs, y :: ys => same x y && sameAll xs ys
  | _, _ => false

end

/-- the operand is neither a number nor a text nor made of such -/
def isOpaque : Operand κ → Bool
  | .absent | .mapping _ | .slice _ _ _ | .unit _ | .dimension _ | .scale _ | .policy _ | .registry _ | .declined => true
  | _ => false

end Operand

namespace Session

/-- verdicts on equality beside an operand that no tensor can hold, in the box of the other operand -/
def likeness (negated : Bool) (x y : Operand κ) : Session κ (Tensor κ) := do
  if x.isOpaque && y.isOpaque then return .scalar (.flag (x.same y != negated))
  else
    let t ← tensorOf (if x.isOpaque then y else x)
    return ⟨.flag, t.grid.map fun _ => .flag negated⟩

/-- what an elementwise function makes of operands that no tensor can hold: only equality has an answer -/
def onOpaque (f : Elementwise) (xs : List (Operand κ)) : Session κ (List (Tensor κ)) :=
  match f, xs with
  | .equal, [x, y] => do return [← likeness false x y]
  | .notEqual, [x, y] => do return [← likeness true x y]
  | _, _ => throw (.wrongType none)

end Session

end UnitAlgebra

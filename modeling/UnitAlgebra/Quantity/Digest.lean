/-
Digests: what operands are told apart by in look-up tables. Equal numbers have equal digests, whatever their kind;
quantities have the digest of their dimension together with that of their value in the scale one, so that equal
quantities in different scales are looked up alike. Arrays and lists have no digest.

Numbers are taken modulo a prime, in which a half is a whole number.

Results:
- `half_double`: twice the half is one.
-/
import UnitAlgebra.Quantity.Basic
import UnitAlgebra.Decimal.Functions

namespace UnitAlgebra

/-- a digest by its structure -/
inductive Digest where
  | number (n : Int)
  | text (s : String)
  | sequence (ds : List Digest)
  /-- no value -/
  | nothing
  /-- what differs from everything -/
  | unique
deriving Repr

namespace Digest

/-- the prime that numbers are taken modulo, one less than a power of two -/
def modulus : Nat := 1 <<< 61 - 1

/-- the whole number that is a half -/
def half : Nat := 1 <<< 60

theorem half_double : 2 * half % modulus = 1 := by decide

/-- a power modulo the prime -/
def powerOf (b n : Nat) : Nat :=
  if _h : n = 0 then 1
  else
    let r := powerOf (b * b % modulus) (n / 2)
    if n % 2 = 0 then r else r * b % modulus
termination_by n
decreasing_by omega

/-- minus one is told from minus two by nothing -/
def settled (n : Int) : Int := if n = -1 then -2 else n

/-- the digest of a whole number -/
def ofInt (n : Int) : Digest :=
  let m : Int := (n.natAbs % modulus : Nat)
  number (settled (if n < 0 then -m else m))

/-- the digest of a number; a denominator is a power of two -/
def ofFloat (x : Float) : Digest :=
  if x.isNaN then unique
  else if x.isInf then number (if x < 0.0 then -314159 else 314159)
  else
    let (num, den) := Binary64.quotient x
    let m : Int := (num % modulus * powerOf half den.log2 % modulus : Nat)
    number (settled (if Binary64.isNegative x then -m else m))

/-- two digests are alike -/
def alike : Digest → Digest → Bool
  | number m, number n => m = n
  | text s, text t => s = t
  | sequence ds, sequence es => alikeAll ds es
  | nothing, nothing => true
  | _, _ => false
where
  alikeAll : List Digest → List Digest → Bool
    | [], [] => true
    | d :: ds, e :: es => alike d e && alikeAll ds es
    | _, _ => false

def ofExponents (es : List Exponent) : Digest := sequence (es.map fun e => ofInt e.val)

def ofCell : Cell Float → Digest
  | .flag b => ofInt (if b then 1 else 0)
  | .integer n => ofInt n
  | .real x => ofFloat x

mutual

/-- the digest of an operand that has one -/
def ofOperand : Operand Float → Session Float Digest
  | .absent | .declined => return nothing
  | .flag b => return ofInt (if b then 1 else 0)
  | .integer n => return ofInt n
  | .number x => return ofFloat x
  | .item c => return ofCell c
  | .text s => return text s
  | .policy p => return text p.text
  | .dimension d => return ofExponents d.toList
  | .scale s => return ofExponents s.toList
  | .unit u =>
    return sequence [ofExponents u.dimension.toList, ofExponents u.scale.toList, ofFloat u.factor, ofFloat u.offset]
  | .tuple xs => do return sequence (← ofOperands xs)
  | .quantity ⟨v, d, s⟩ => do
    if s = .one then return sequence [ofExponents d.toList, ← ofOperand v]
    else
      match ← Session.convert v (s.steps .one) with
      | .number x => return sequence [ofExponents d.toList, ofFloat x]
      | .item c => return sequence [ofExponents d.toList, ofCell c]
      | _ => throw (.wrongType none)
  | .array _ | .list _ | .mapping _ | .slice _ _ _ | .registry _ | .series => throw (.wrongType none)

def ofOperands : List (Operand Float) → Session Float (List Digest)
  | [] => return []
  | x :: xs => do return (← ofOperand x) :: (← ofOperands xs)

end

end Digest

end UnitAlgebra

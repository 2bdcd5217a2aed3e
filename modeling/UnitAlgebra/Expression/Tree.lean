/-
Trees of unit expressions and their printed form. A quotient binds loosest and leans to the left, a power tightest.
-/
import UnitAlgebra.Exponent

namespace UnitAlgebra

inductive UnitExpr where
  | identifier (name : String)
  | integer (value : Nat)
  | mul (left right : UnitExpr)
  | div (left right : UnitExpr)
  | pow (base : UnitExpr) (exponent : Int)
deriving DecidableEq, Repr

namespace UnitExpr

/-- the names in a tree, from left to right -/
def identifiers : UnitExpr → List String
  | identifier name => [name]
  | integer _ => []
  | mul left right | div left right => left.identifiers ++ right.identifiers
  | pow base _ => base.identifiers

def isMul : UnitExpr → Bool
  | mul _ _ => true
  | _ => false

def isDiv : UnitExpr → Bool
  | div _ _ => true
  | _ => false

def isPow : UnitExpr → Bool
  | pow _ _ => true
  | _ => false

def parenthesized (needed : Bool) (text : String) : String := if needed then "(" ++ text ++ ")" else text

/-- the tree as text, with parentheses only where the tree would be lost without them -/
def text : UnitExpr → String
  | identifier name => name
  | integer value => Exponent.decimal value
  | mul left right =>
    parenthesized left.isDiv left.text ++ "*" ++ parenthesized (right.isMul || right.isDiv) right.text
  | div left right => left.text ++ "/" ++ parenthesized right.isDiv right.text
  | pow base exponent =>
    parenthesized (base.isMul || base.isDiv || base.isPow) base.text ++ "^" ++ Exponent.decimal exponent

end UnitExpr

end UnitAlgebra

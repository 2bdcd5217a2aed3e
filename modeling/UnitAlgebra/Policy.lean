/-
Scale policies: which scale a sum of differently scaled values is expressed in.

Results:
- `resolve_same`: equal scales are kept under every policy.
- `resolve_strict`: the strict policy refuses different scales.
-/
import UnitAlgebra.Fault
import UnitAlgebra.Text.CharClass

namespace UnitAlgebra

inductive ScalePolicy where
  /-- different scales are refused -/
  | strict
  /-- the smaller exponent of every base -/
  | smallerWins
  /-- the scale of the left operand -/
  | leftHandWins
  /-- the larger exponent of every base -/
  | largerWins
deriving DecidableEq, Repr

namespace ScalePolicy

def all : List ScalePolicy := [strict, smallerWins, leftHandWins, largerWins]

def text : ScalePolicy → String
  | strict => "Strict"
  | smallerWins => "SmallerWins"
  | leftHandWins => "LeftHandWins"
  | largerWins => "LargerWins"

/-- the name of the policy among its kind -/
def constant : ScalePolicy → String
  | strict => "STRICT"
  | smallerWins => "SMALLER_WINS"
  | leftHandWins => "LEFT_HAND_WINS"
  | largerWins => "LARGER_WINS"

/-- names are compared in small letters, without underscores, hyphens and spaces -/
def normalized (s : String) : String :=
  Text.lower (String.ofList (s.toList.filter fun c => !(c = '_' || c = '-' || c = ' ')))

def ofName? (s : String) : Option ScalePolicy := all.find? fun p => normalized s = normalized p.text

def ofName (s : String) : Outcome ScalePolicy :=
  match ofName? s with
  | some p => .ok p
  | none => .error (.badValue (some (.unknownPolicy s)))

/-- the scale that a sum is expressed in, unless the policy refuses to choose -/
def resolve? (p : ScalePolicy) (s t : Scale) : Option Scale :=
  if s = t then some s
  else match p with
    | strict => none
    | leftHandWins => some s
    | smallerWins => some (s.least t)
    | largerWins => some (s.greatest t)

/-- the scale of a sum; a refusal names the operation, if there is one -/
def resolve (p : ScalePolicy) (s t : Scale) (operation : Option Operation) : Outcome Scale :=
  match p.resolve? s t with
  | some u => .ok u
  | none => .error (.unit (.scaleMismatch s t operation))

/-- Equal scales are kept under every policy. -/
theorem resolve_same (p : ScalePolicy) (s : Scale) : p.resolve? s s = some s := by simp [resolve?]

/-- The strict policy refuses different scales. -/
theorem resolve_strict {s t : Scale} (h : s ≠ t) : strict.resolve? s t = none := by simp [resolve?, h]

end ScalePolicy

end UnitAlgebra

/-
Calls of elementwise functions with positional and named operands. What follows the operands of a function is written
into, as is what is given under the name `out`.
-/
import UnitAlgebra.Quantity.ArrayFunction

namespace UnitAlgebra

variable {κ : Type} [Numeric κ]

/-- the ways of application by their names -/
inductive Manner where
  | plain | reduce | accumulate | outer | at_
deriving DecidableEq, Repr

namespace Manner

def ofName? : String → Option Manner
  | "reduce" => some reduce
  | "accumulate" => some accumulate
  | "outer" => some outer
  | "at" => some at_
  | _ => none

/-- the parameters of a function that is folded, or run along an axis -/
def parameters : Manner → List Parameter
  | reduce => [
      .needed "array" .bare, .optional "axis" .bare, .optional "dtype" .bare, .optional "out" .bare,
      .optional "keepdims" .bare, .optional "initial" .bare]
  | accumulate => [
      .needed "array" .bare, .optional "axis" .bare, .optional "dtype" .bare, .optional "out" .bare]
  | _ => []

end Manner

namespace Session

/-- what is to be written into: one operand for each result, some of which may be absent, or nothing -/
def outputsOf (results : Nat) (x : Operand κ) : Outcome (List (Operand κ)) :=
  match x with
  | .absent => .ok []
  | .tuple xs =>
    if xs.length ≠ results then .error (.badValue none)
    else .ok (if xs.all Operand.isAbsent then [] else xs)
  | x => if results = 1 then .ok [x] else .error (.wrongType none)

/-- the operand of an option that may be left out or absent -/
def optionOf (named : List (String × Operand κ)) (name : String) : Operand κ :=
  ((named.find? (·.1 = name)).map Prod.snd).getD .absent

/-- a call with its operands told apart: a way that may depend on the kind of cells that are written into, what is
written into, and what the function is applied to -/
structure Arranged (κ : Type) where
  way : Option Kind → Way κ
  outs : List (Operand κ)
  operands : List (Operand κ)

/-- all of the operands of a function, with what to write into after them or under its name -/
def arrangePlainly (f : TensorFunction) (way : Way κ) (args : List (Operand κ)) (named : List (String × Operand κ)) :
    Outcome (Arranged κ) := do
  let later := args.drop f.arity
  let isRefused := args.length < f.arity || f.results < later.length || named.any (·.1 ≠ "out") ||
    (!later.isEmpty && !named.isEmpty)
  if isRefused then .error (.wrongType none)
  else
    let outs ← outputsOf f.results <|
      if later.isEmpty then optionOf named "out"
      else .tuple (later ++ List.replicate (f.results - later.length) .absent)
    return ⟨fun _ => way, outs, args.take f.arity⟩

/-- the operands of a function in a manner with its options -/
def arrange (f : TensorFunction) (m : Manner) (args : List (Operand κ)) (named : List (String × Operand κ)) :
    Outcome (Arranged κ) := do
  let bound : Outcome (Arguments κ) := Arguments.bind m.parameters args named
  match m with
  | .plain => arrangePlainly f .plainly args named
  | .outer => arrangePlainly f .crossed args named
  | .at_ => if named.isEmpty then return ⟨fun _ => .atPlaces, [], args⟩ else .error (.wrongType none)
  | .reduce => do
    let as ← bound
    let way (into : Option Kind) : Way κ :=
      .folded ⟨(as.get? "axis").getD (.integer 0), as.flag "keepdims", as.get? "initial", into⟩
    return ⟨way, ← outputsOf 1 (as.get "out"), [as.get "array"]⟩
  | .accumulate => do
    let as ← bound
    return ⟨.running ((as.get? "axis").getD (.integer 0)), ← outputsOf 1 (as.get "out"), [as.get "array"]⟩

/-- a function on operands, in a manner with its options, prepared -/
def prepareCall (f : TensorFunction) (m : Manner) (args : List (Operand κ)) (named : List (String × Operand κ)) :
    Session κ (Prepared κ (Operand κ)) := do
  let call ← arrange f m args named
  prepare f (call.way (← kindInto call.outs)) call.outs call.operands

/-- a function on operands, in a manner with its options -/
def callWith (f : TensorFunction) (m : Manner) (args : List (Operand κ)) (named : List (String × Operand κ)) :
    Session κ (Operand κ) := do
  (← prepareCall f m args named).run

end Session

end UnitAlgebra

/-
The grammar of unit expressions, read from left to right by a machine with one step per token:

    expr   := factor ('/' factor)*
    factor := power (('*' | '.' | '·') power)*
    power  := atom ('^' signed integer)?
    atom   := name | unsigned integer | '(' expr ')'

The machine holds what stands left of the current operand at every open parenthesis, and what it is waiting for. It
stops at the first token that no expression can go on with. Parentheses may be nested to any depth: the limits of a call
stack are no part of the grammar, and are left out.

Results:
- `run_append`: a run over two token lists is the run over the first, then over the second.
-/
import UnitAlgebra.Expression.Token
import UnitAlgebra.Expression.Tree

namespace UnitAlgebra.Expression

/-- the largest number of digits that an integer may be written with -/
def digitLimit : Nat := 4300

/-! ## The machine -/

/-- what stands left of the current operand, since the last open parenthesis -/
structure Level where
  /-- the dividend -/
  quotient : Option UnitExpr
  /-- the factors since the last division -/
  product : Option UnitExpr
deriving DecidableEq, Repr

/-- what the machine is waiting for -/
inductive Phase where
  | operand
  /-- an atom is read, and may take an exponent -/
  | atom (t : UnitExpr)
  /-- a caret is read -/
  | exponent (base : UnitExpr)
  /-- a power is read, and takes no further exponent -/
  | power (t : UnitExpr)
deriving DecidableEq, Repr

structure Machine where
  level : Level
  /-- the levels around it, innermost first -/
  outer : List Level
  phase : Phase
deriving DecidableEq, Repr

def Machine.start : Machine := ⟨⟨none, none⟩, [], .operand⟩

/-- a further factor -/
def Level.times (l : Level) (t : UnitExpr) : UnitExpr :=
  match l.product with
  | some p => .mul p t
  | none => t

/-- the value of a level that ends with an operand -/
def Level.close (l : Level) (t : UnitExpr) : UnitExpr :=
  match l.quotient with
  | some q => .div q (l.times t)
  | none => l.times t

/-- why a token is refused -/
inductive Refusal where
  | unexpected | expected (wanted : Wanted) | signed | tooManyDigits
deriving DecidableEq, Repr

namespace Machine

/-- a token where an operand is due -/
def takeOperand (m : Machine) (token : Token) : Except Refusal Machine :=
  match token.symbol with
  | .opening => .ok ⟨⟨none, none⟩, m.level :: m.outer, .operand⟩
  | .name => .ok { m with phase := .atom (.identifier token.text) }
  | .integer true _ _ => .error .signed
  | .integer false value digits =>
    if digitLimit < digits then .error .tooManyDigits else .ok { m with phase := .atom (.integer value.toNat) }
  | _ => .error .unexpected

/-- a token after a complete operand -/
def takeOperator (m : Machine) (t : UnitExpr) (token : Token) : Except Refusal Machine :=
  match token.symbol, m.outer with
  | .times, _ => .ok { m with level := { m.level with product := some (m.level.times t) }, phase := .operand }
  | .slash, _ => .ok { m with level := ⟨some (m.level.close t), none⟩, phase := .operand }
  | .closing, level :: outer => .ok ⟨level, outer, .atom (m.level.close t)⟩
  | _, [] => .error .unexpected
  | _, _ :: _ => .error (.expected .closing)

/-- one step -/
def step (m : Machine) (token : Token) : Except Refusal Machine :=
  match m.phase with
  | .operand => m.takeOperand token
  | .atom t => if token.symbol = .caret then .ok { m with phase := .exponent t } else m.takeOperator t token
  | .exponent base =>
    match token.symbol with
    | .integer _ value digits =>
      if digitLimit < digits then .error .tooManyDigits else .ok { m with phase := .power (.pow base value) }
    | _ => .error (.expected .integer)
  | .power t => m.takeOperator t token

/-- the tree that is read, if nothing is missing -/
def finish? (m : Machine) : Option UnitExpr :=
  match m.phase, m.outer with
  | .atom t, [] | .power t, [] => some (m.level.close t)
  | _, _ => none

/-- the state after a list of tokens, or the first refused token -/
def run (m : Machine) : List Token → Except (Refusal × Token) Machine
  | [] => .ok m
  | token :: rest =>
    match m.step token with
    | .ok next => next.run rest
    | .error refusal => .error (refusal, token)

/-- A run over two token lists is the run over the first, then over the second. -/
theorem run_append (m : Machine) (first second : List Token) :
    m.run (first ++ second) = (m.run first).bind fun n => n.run second := by
  induction first generalizing m with
  | nil => rfl
  | cons token rest ih =>
    simp only [List.cons_append, run]
    cases m.step token with
    | error refusal => rfl
    | ok next => exact ih next

end Machine

/-! ## Reading a text -/

/-- the fault that a refused token is reported as -/
def refusalFault (text : String) : Refusal × Token → Fault
  | (.unexpected, token) => .format (.unexpectedToken token.text token.position text)
  | (.expected wanted, token) => .format (.expected wanted token.text token.position text)
  | (.signed, token) => .format (.signedNumber token.text token.position text)
  | (.tooManyDigits, _) => .badValue none

/-- the tree of a trimmed text -/
def parseTrimmed (text : String) : Outcome UnitExpr := do
  let ts ← tokens text
  if ts.isEmpty then .error (.format .empty)
  else match Machine.start.run ts with
    | .error refused => .error (refusalFault text refused)
    | .ok m =>
      match m.finish? with
      | some t => .ok t
      | none => .error (.format (.unexpectedEnd text))

/-- the tree of a text -/
def parse (text : String) : Outcome UnitExpr := parseTrimmed (Text.trimmed text)

end UnitAlgebra.Expression

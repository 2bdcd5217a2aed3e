/-
Array functions on quantities. The parameters that can hold quantities are told from the others, which refuse them; the
unit of the result is found first, then the values are taken to it where the function needs that, and then the
function is computed on them.

Results:
- `bind_nil`: without arguments, a function with a required parameter is refused.
-/
import UnitAlgebra.Quantity.Operator
import UnitAlgebra.Tensor.Statistics
import UnitAlgebra.Tensor.Closeness

namespace UnitAlgebra

variable {κ : Type} [Numeric κ]

/-! ## Functions and parameters -/

inductive ArrayFunction where
  | sum | cumsum | max | amax | min | amin | mean | std | var | round | concatenate | stack | copy | reshape | ravel
  | squeeze | dot | isclose | allclose | shape | ndim
deriving DecidableEq, Repr

/-- what may be passed to a parameter -/
inductive Role where
  /-- a quantity, or a bare operand that counts as dimensionless -/
  | quantity
  /-- the same, or nothing -/
  | perhaps
  /-- a list of such -/
  | quantities
  /-- anything but a quantity -/
  | bare
deriving DecidableEq, Repr

structure Parameter where
  name : String
  role : Role
  required : Bool
deriving DecidableEq, Repr

namespace Parameter

def needed (name : String) (role : Role) : Parameter := ⟨name, role, true⟩

def optional (name : String) (role : Role) : Parameter := ⟨name, role, false⟩

end Parameter

namespace ArrayFunction

def name : ArrayFunction → String
  | sum => "sum" | cumsum => "cumsum" | max => "max" | amax => "amax" | min => "min" | amin => "amin" | mean => "mean"
  | std => "std" | var => "var" | round => "round" | concatenate => "concatenate" | stack => "stack" | copy => "copy"
  | reshape => "reshape" | ravel => "ravel" | squeeze => "squeeze" | dot => "dot" | isclose => "isclose"
  | allclose => "allclose" | shape => "shape" | ndim => "ndim"

def all : List ArrayFunction := [
  sum, cumsum, max, amax, min, amin, mean, std, var, round, concatenate, stack, copy, reshape, ravel, squeeze, dot,
  isclose, allclose, shape, ndim]

def ofName? (s : String) : Option ArrayFunction := all.find? (·.name = s)

/-- the parameters, in the order of positions -/
def parameters : ArrayFunction → List Parameter
  | sum => [.needed "a" .quantity, .optional "axis" .bare, .optional "dtype" .bare, .optional "out" .perhaps,
      .optional "keepdims" .bare, .optional "initial" .perhaps, .optional "where" .bare]
  | max | amax | min | amin => [.needed "a" .quantity, .optional "axis" .bare, .optional "out" .perhaps,
      .optional "keepdims" .bare, .optional "initial" .perhaps, .optional "where" .bare]
  | cumsum => [.needed "a" .quantity, .optional "axis" .bare, .optional "dtype" .bare, .optional "out" .perhaps]
  | mean => [.needed "a" .quantity, .optional "axis" .bare, .optional "dtype" .bare, .optional "out" .perhaps,
      .optional "keepdims" .bare]
  | std | var => [.needed "a" .quantity, .optional "axis" .bare, .optional "dtype" .bare, .optional "out" .perhaps,
      .optional "ddof" .bare, .optional "keepdims" .bare]
  | round => [.needed "a" .quantity, .optional "decimals" .bare, .optional "out" .perhaps]
  | concatenate | stack => [.needed "arrays" .quantities, .optional "axis" .bare, .optional "out" .perhaps]
  | copy => [.needed "a" .quantity, .optional "order" .bare, .optional "subok" .bare]
  | reshape => [.needed "a" .quantity, .needed "shape" .bare, .optional "order" .bare]
  | ravel => [.needed "a" .quantity, .optional "order" .bare]
  | squeeze => [.needed "a" .quantity, .optional "axis" .bare]
  | dot => [.needed "a" .quantity, .needed "b" .quantity, .optional "out" .perhaps]
  | isclose | allclose => [.needed "a" .quantity, .needed "b" .quantity, .optional "rtol" .bare,
      .optional "atol" .perhaps, .optional "equal_nan" .bare]
  | shape | ndim => [.needed "a" .quantity]

/-- the values of operands in the dimension of the result are taken to its scale -/
def aligns : ArrayFunction → Bool
  | sum | max | amax | min | amin | concatenate | stack | isclose | allclose => true
  | _ => false

/-- the result is a quantity -/
def givesQuantity : ArrayFunction → Bool
  | isclose | allclose | shape | ndim => false
  | _ => true

/-- the name that refusals of an operand give the function -/
def refusalName : ArrayFunction → String
  | max => "amax"
  | min => "amin"
  | f => f.name

end ArrayFunction

/-! ## Arguments -/

/-- operands by the names of their parameters -/
abbrev Arguments (κ : Type) := List (Parameter × Operand κ)

namespace Arguments

/-- positional and named operands by parameters; too many, unknown, doubled and missing ones are refused -/
def bind (ps : List Parameter) (args : List (Operand κ)) (named : List (String × Operand κ)) :
    Outcome (Arguments κ) :=
  let given := ps.zip args
  let later := ps.drop args.length
  if ps.length < args.length || named.any (fun e => !later.any (·.name = e.1)) then .error (.wrongType none)
  else
    let rest := later.filterMap fun p => (named.find? (·.1 = p.name)).map fun e => (p, e.2)
    if later.any fun p => p.required && !named.any (·.1 = p.name) then .error (.wrongType none)
    else .ok (given ++ rest)

omit [Numeric κ] in
/-- Without arguments, a function with a required parameter is refused. -/
theorem bind_nil {p : Parameter} {ps : List Parameter} (h : p.required = true) :
    bind (κ := κ) (p :: ps) [] [] = .error (.wrongType none) := by simp [bind, h]

def get? (as : Arguments κ) (name : String) : Option (Operand κ) := (as.find? (·.1.name = name)).map Prod.snd

/-- the operand of a parameter; nothing, if it is not given -/
def get (as : Arguments κ) (name : String) : Operand κ := (as.get? name).getD .absent

def flag (as : Arguments κ) (name : String) : Bool := (as.get name).truth

end Arguments

/-! ## Operands that take part -/

/-- an argument: participants where quantities may stand, and the operand as it is elsewhere -/
inductive Argument (κ : Type) where
  | single (p : Participant κ)
  | several (ps : List (Participant κ))
  | bare (x : Operand κ)

namespace Session

/-- a view, or the item that is all of it -/
def viewOrItem (v : View) : Session κ (Operand κ) := do
  match v.shape with
  | [] => computed (← readView v)
  | _ => return .array v

/-- the elements of an operand one by one; rows of arrays keep the memory of the whole -/
def elements (x : Operand κ) : Session κ (List (Operand κ)) := do
  match x with
  | .list xs | .tuple xs => return xs
  | .array v =>
    match v.shape with
    | [] => throw (.wrongType none)
    | n :: _ => (List.range n).mapM fun i : Nat => do
      viewOrItem ⟨v.buffer, ← v.places.select [.point i]⟩
  | _ => throw (.wrongType none)

/-- the quantities that a quantity consists of -/
def quantityElements (q : Quantity (Operand κ)) : Session κ (List (Operand κ)) := do
  return (← elements q.value).map fun x => .quantity { q with value := x }

/-- the parts of an operand one by one: elements, characters, keys or exponents -/
def listed (x : Operand κ) : Session κ (List (Operand κ)) := do
  match x with
  | .quantity q => quantityElements q
  | .text s => return s.toList.map fun c => .text (String.singleton c)
  | .mapping entries => return entries.map fun e => .text e.1
  | .dimension d => return d.toList.map fun e => .integer e.val
  | .scale s => return s.toList.map fun e => .integer e.val
  | x => elements x

/-- an operand as its parameter takes it -/
def argumentOf (f : ArrayFunction) (p : Parameter) (x : Operand κ) : Session κ (Argument κ) := do
  match p.role, x with
  | .quantity, x => return .single (← Participant.ofOperand x)
  | .perhaps, .absent => return .bare .absent
  | .perhaps, x => return .single (← Participant.ofOperand x)
  | .quantities, x => return .several (← (← listed x).mapM Participant.ofOperand)
  | .bare, .quantity _ => throw (.wrongType (some (.quantityArgument p.name f.name)))
  | .bare, x => return .bare x

/-- the participants of a parameter -/
def participants (as : List (Parameter × Argument κ)) (name : String) : List (Participant κ) :=
  match (as.find? (·.1.name = name)).map Prod.snd with
  | some (.single p) => [p]
  | some (.several ps) => ps
  | _ => []

/-! ## Units of results -/

/-- the unit of the result, if the result has one -/
def unitOfResult (f : ArrayFunction) (as : List (Parameter × Argument κ)) : Session κ (Option StorageUnit) := do
  let own := participants as "a"
  let common (noun : String) (labels : List (Nat × String)) (ps : List (Participant κ)) :
      Session κ (Option StorageUnit) := do
    return some (← commonUnit (← policy) ⟨f.refusalName, noun, labels⟩ ps)
  let alone : Option StorageUnit := own.head?.map Participant.unit
  match f with
  | .sum | .max | .amax | .min | .amin =>
    match participants as "initial" with
    | [] => return alone
    | initial => common "argument" [(1, "'initial'")] (own ++ initial)
  | .concatenate | .stack => common "array" [] (participants as "arrays")
  | .isclose | .allclose =>
    common "argument" [(2, "'atol'")] (own ++ participants as "b" ++ participants as "atol")
  | .dot => return some (← UnitRule.unit .product (.plain f.name) (own ++ participants as "b"))
  | .var =>
    match alone with
    | some u => return some ⟨← u.dimension.pow 2, ← u.scale.pow 2⟩
    | none => return none
  | .shape | .ndim => return none
  | _ => return alone

/-! ## Values that are computed on -/

/-- what is given for the result to be written into has its unit -/
def checkResultOutput (f : ArrayFunction) (u : Option StorageUnit) (p : Participant κ) : Outcome Unit :=
  match u with
  | none => .ok ()
  | some u =>
    if p.dimension ≠ u.dimension then .error (.mismatch u.dimension p.dimension (.writeResult f.name))
    else if p.scale ≠ u.scale then .error (.scaleMismatch u.scale p.scale (.writeResult f.name))
    else .ok ()

/-- the bare value of a participant -/
def valueFor (f : ArrayFunction) (u : Option StorageUnit) (p : Participant κ) : Session κ (Operand κ) :=
  match f.aligns, u with
  | true, some u => UnitRule.alignedValue u p
  | _, _ => pure p.quantity.value

/-- the bare operand that a function is computed on -/
def bareArgument (f : ArrayFunction) (u : Option StorageUnit) (name : String) (a : Argument κ) :
    Session κ (Operand κ) := do
  match a with
  | .bare x => return x
  | .several ps => return .list (← ps.mapM (valueFor f u))
  | .single p =>
    if name = "out" then
      checkResultOutput f u p
      return p.quantity.value
    else valueFor f u p

/-! ## Computing -/

/-- what is given to write into, if anything is -/
def outputs (as : Arguments κ) : List (Operand κ) := (as.get "out").present?.toList

/-- a function folded over axes -/
def foldOver (f : Elementwise) (into : Option Kind) (as : Arguments κ) : Session κ (Tensor κ) := do
  let t ← tensorOf (as.get "a")
  let axes ← Tensor.axesOf t.grid.rank (as.get "axis")
  let start ← startOf (as.get? "initial")
  let mask ← match as.get? "where" with
    | none | some (.flag true) => pure none
    | some .absent => pure (some (.scalar false))
    | some x => do pure (some ((← tensorOf x).grid.map Cell.toBool))
  return ← t.reduce f axes (as.flag "keepdims") start mask into

/-- the axes of a statistic, which a single value has none of -/
def statisticAxes (rank : Nat) (x : Operand κ) : Outcome (List Nat) :=
  match rank, x with
  | 0, .absent => .ok []
  | 0, .tuple [] => .ok []
  | 0, _ => .error .badAxis
  | rank, x => Tensor.axesOf rank x

/-- a statistic over axes -/
def statistic (f : Tensor κ → List Nat → Bool → Outcome (Tensor κ)) (as : Arguments κ) : Session κ (Tensor κ) := do
  let t ← tensorOf (as.get "a")
  let axes ← statisticAxes t.grid.rank (as.get "axis")
  return ← f t axes (as.flag "keepdims")

/-- the lost degrees of freedom of a statistic -/
def lostFreedom (as : Arguments κ) : Session κ κ := do
  match as.get? "ddof" with
  | none => return Numeric.zero
  | some x => return ← x.toNumber (← get)

/-- running sums along an axis, or over all values in a row -/
def runningSums (into : Option Kind) (as : Arguments κ) : Session κ (Tensor κ) := do
  let t ← tensorOf (as.get "a")
  match as.get "axis" with
  | .absent => return ← Tensor.accumulate .add ⟨t.kind, t.grid.ravel⟩ 0 into
  | x =>
    let t : Tensor κ := if t.grid.rank = 0 then ⟨t.kind, t.grid.ravel⟩ else t
    return ← t.accumulate .add (← Tensor.axisOf t.grid.rank x) into

/-- values rounded to decimal places -/
def roundedValues (into : Option Kind) (as : Arguments κ) : Session κ (Tensor κ) := do
  let t ← tensorOf (as.get "a")
  match as.get? "decimals" with
  | none => return t.rounded 0 into
  | some x =>
    match x.integer? with
    | some n => return t.rounded n into
    | none => throw (.wrongType none)

/-- tensors joined, after their kinds have been -/
def joined (ts : List (Tensor κ)) (join : List (Grid (Cell κ)) → Option (Grid (Cell κ))) : Outcome (Tensor κ) :=
  let kind := Kind.joinAll (ts.map Tensor.kind)
  match join (ts.map fun t => (t.cast kind).grid) with
  | some g => .ok ⟨kind, g⟩
  | none => .error (.badValue none)

/-- arrays one after the other along an axis; without an axis, all their values in a row -/
def concatenateArrays (as : Arguments κ) : Session κ (Tensor κ) := do
  let ts ← (← elements (as.get "arrays")).mapM tensorOf
  match as.get? "axis", ts with
  | _, [] => throw (.badValue none)
  | some .absent, ts => return ← joined ts fun gs => Grid.concatenate (gs.map Grid.ravel) 0
  | axis, t :: _ => do
    if ts.any (·.grid.rank = 0) then throw (.badValue none)
    let a ← Tensor.axisOf t.grid.rank (axis.getD (.integer 0))
    return ← joined ts fun gs => Grid.concatenate gs a

/-- arrays of one box along a new axis -/
def stackArrays (as : Arguments κ) : Session κ (Tensor κ) := do
  let ts ← (← elements (as.get "arrays")).mapM tensorOf
  match ts with
  | [] => throw (.badValue none)
  | t :: _ =>
    if ts.any (·.grid.shape ≠ t.grid.shape) then throw (.badValue none)
    let a ← match ((as.get? "axis").getD (.integer 0)).integer? with
      | some n => Grid.axis (t.grid.rank + 1) n
      | none => throw (.wrongType none)
    return ← joined ts fun gs => Grid.stack gs a

/-- whether values are listed column by column -/
def columnOrder (as : Arguments κ) : Outcome Bool :=
  match as.get? "order" with
  | none => .ok false
  | some (.text s) =>
    if s = "F" ∨ s = "f" then .ok true
    else if ["C", "c", "A", "a", "K", "k"].contains s then .ok false
    else .error (.badValue none)
  | some .absent => .ok false
  | some _ => .error (.wrongType none)

/-- the extents of a new box -/
def extents (x : Operand κ) : Outcome (List Int) :=
  match x with
  | .list xs | .tuple xs => xs.mapM fun y =>
    match y.position? with
    | some n => .ok n
    | none => .error (.wrongType none)
  | x =>
    match x.position? with
    | some n => .ok [n]
    | none => .error (.wrongType none)

/-- an array with its places moved about; the memory is shared if that can be -/
def moved (x : Operand κ) (shares : View → Bool) (columns : Bool) (shape : List Nat) : Session κ (Operand κ) := do
  let turn {α : Type} (g : Grid α) : Grid α := if columns then g.transpose else g
  let boxed {α : Type} (g : Grid α) : Grid α := turn ⟨if columns then shape.reverse else shape, (turn g).entries⟩
  match x with
  | .array v => if shares v then return .array ⟨v.buffer, boxed v.places⟩ else
      let t := (← get).read v
      newArray ⟨t.kind, boxed t.grid⟩
  | x =>
    let t ← tensorOf x
    newArray ⟨t.kind, boxed t.grid⟩

/-- an item out of an array without axes, where the operand is an item itself -/
def itemLike (x r : Operand κ) : Session κ (Operand κ) := do
  match x, r with
  | .item _, .array v => computed (← readView v)
  | _, r => return r

def reshapeArray (as : Arguments κ) : Session κ (Operand κ) := do
  let x := as.get "a"
  let t ← tensorOf x
  let columns ← columnOrder as
  let shape ← Grid.inferShape t.grid.size (← extents (as.get "shape"))
  itemLike x (← moved x (fun v => !columns && v.isStrided shape) columns shape)

def ravelArray (as : Arguments κ) : Session κ (Operand κ) := do
  let x := as.get "a"
  let t ← tensorOf x
  let columns ← columnOrder as
  moved x (fun v => !columns && v.isContiguous) columns [t.grid.size]

def squeezeArray (as : Arguments κ) : Session κ (Operand κ) := do
  let x := as.get "a"
  let t ← tensorOf x
  let axes ← match as.get "axis" with
    | .absent => pure none
    | a => do pure (some (← Tensor.axesOf t.grid.rank a))
  match x with
  | .array v => return .array ⟨v.buffer, ← v.places.squeeze axes⟩
  | x => itemLike x (← newArray ⟨t.kind, ← t.grid.squeeze axes⟩)

/-- whether values are close to each other, place by place -/
def closeArrays (as : Arguments κ) : Session κ (Tensor κ) := do
  let bounds (name : String) (digits exponent : Int) : Session κ (Tensor κ) :=
    match as.get? name with
    | none => pure (.scalar (.real (Numeric.ofDecimal digits exponent)))
    | some x => tensorOf x
  let absolute ← match as.get? "atol" with
    | some .absent => throw (.wrongType none)
    | _ => bounds "atol" 1 (-8)
  let relative ← bounds "rtol" 1 (-5)
  return ← Tensor.closeness (← tensorOf (as.get "a")) (← tensorOf (as.get "b")) absolute relative (as.flag "equal_nan")

/-- the results of a function that can be written into what is given, unless the function has none such -/
def writableResults (f : ArrayFunction) (into : Option Kind) (as : Arguments κ) : Option (Session κ (Results κ)) :=
  let sameBox (act : Session κ (Tensor κ)) : Session κ (Results κ) := do return .tensors .sameBox [← act]
  match f with
  | .sum => some <| sameBox <| foldOver .add into as
  | .max | .amax => some <| sameBox <| foldOver .maximum into as
  | .min | .amin => some <| sameBox <| foldOver .minimum into as
  | .cumsum => some <| sameBox <| runningSums into as
  | .mean => some <| sameBox <| statistic Tensor.mean as
  | .var => some <| sameBox <| do
    let lost ← lostFreedom as
    statistic (fun t axes keep => t.variance axes keep lost) as
  | .std => some <| sameBox <| do
    let lost ← lostFreedom as
    statistic (fun t axes keep => t.deviation axes keep lost) as
  | .round => some <| sameBox <| roundedValues into as
  | .concatenate => some <| sameBox <| concatenateArrays as
  | .stack => some <| sameBox <| stackArrays as
  | .dot => some do return .tensors .exact [← Tensor.dot (← tensorOf (as.get "a")) (← tensorOf (as.get "b"))]
  | .copy | .reshape | .ravel | .squeeze | .isclose | .allclose | .shape | .ndim => none

/-- the result of a function that is not written anywhere -/
def otherResult (f : ArrayFunction) (as : Arguments κ) : Session κ (Operand κ) := do
  match f with
  | .reshape => reshapeArray as
  | .ravel => ravelArray as
  | .squeeze => squeezeArray as
  | .isclose => computed (← closeArrays as)
  | .allclose =>
    let t ← closeArrays as
    return .flag (t.grid.entries.all Cell.toBool)
  | .shape => do
    let g ← (as.get "a").leaves (← get)
    return .tuple (g.shape.map fun n : Nat => .integer n)
  | .ndim => do
    let g ← (as.get "a").leaves (← get)
    return .integer g.rank
  | _ => newArray (← tensorOf (as.get "a"))

/-- a function on bare operands, prepared; folds are into cells of a kind if that is told -/
def prepareArrayBare (f : ArrayFunction) (into : Option Kind) (as : Arguments κ) :
    Session κ (Prepared κ (Operand κ)) := do
  match writableResults f into as with
  | some results => return (← prepareResults (outputs as) (← results)).map together
  | none => return .done (← otherResult f as)

/-! ## Application -/

/-- the parameters whose operands bring units into a function -/
def bringsUnits (f : ArrayFunction) (name : String) : Bool :=
  match f with
  | .isclose | .allclose => ["a", "b", "rtol", "atol"].contains name
  | _ => ["a", "b", "arrays", "out"].contains name

/-- the operand of a parameter is a quantity, or a list with one among its elements where lists are taken -/
def holdsQuantity (p : Parameter) : Operand κ → Bool
  | .quantity _ => true
  | .list xs | .tuple xs => p.role = .quantities && xs.any Operand.isQuantity
  | _ => false

/-- an array function on arguments with their parameters, prepared by its unit rule -/
def prepareArrayRule (f : ArrayFunction) (into : Option Kind) (as : Arguments κ) :
    Session κ (Prepared κ (Operand κ)) := do
  let wrapped ← as.mapM fun (p, x) => do return (p, ← argumentOf f p x)
  let u ← unitOfResult f wrapped
  let bare ← wrapped.mapM fun (p, a) => do return (p, ← bareArgument f u p.name a)
  let prepared ← prepareArrayBare f into bare
  match f.givesQuantity, u with
  | true, some u => return prepared.map (inUnitOf u)
  | _, _ => return prepared

/-- an array function on arguments with their parameters, prepared -/
def prepareArray (f : ArrayFunction) (into : Option Kind) (as : Arguments κ) : Session κ (Prepared κ (Operand κ)) :=
  if as.any fun (p, x) => bringsUnits f p.name && holdsQuantity p x then prepareArrayRule f into as
  else prepareArrayBare f into as

/-- an array function on positional and named operands, prepared -/
def prepareArrayFunction (f : ArrayFunction) (args : List (Operand κ)) (named : List (String × Operand κ)) :
    Session κ (Prepared κ (Operand κ)) := do
  let as ← Arguments.bind f.parameters args named
  prepareArray f (← kindInto (outputs as)) as

/-- an array function on positional and named operands -/
def applyArrayFunction (f : ArrayFunction) (args : List (Operand κ)) (named : List (String × Operand κ)) :
    Session κ (Operand κ) := do
  (← prepareArrayFunction f args named).run

end Session

end UnitAlgebra

/-
Quantities as JSON texts, and operands as JSON values and back.
-/
import UnitAlgebra.Interchange.Text

namespace UnitAlgebra

/-! ## Values -/

namespace JsonValue

mutual

def toOperand : JsonValue → Operand Float
  | null => .absent
  | flag b => .flag b
  | integer n => .integer n
  | number x => .number x
  | text s => .text s
  | list xs => .list (toOperands xs)
  | object entries => .mapping (toEntries entries)

def toOperands : List JsonValue → List (Operand Float)
  | [] => []
  | x :: xs => toOperand x :: toOperands xs

def toEntries : List (String × JsonValue) → List (String × Operand Float)
  | [] => []
  | (key, x) :: entries => (key, toOperand x) :: toEntries entries

end

mutual

/-- the JSON value of an operand that has one -/
def ofOperand : Operand Float → Outcome JsonValue
  | .absent => .ok null
  | .flag b => .ok (flag b)
  | .integer n => .ok (integer n)
  | .number x | .item (.real x) => .ok (number x)
  | .text s => .ok (text s)
  | .list xs | .tuple xs => do return list (← ofOperands xs)
  | .mapping entries => do return object (← ofEntries entries)
  | _ => .error (.wrongType none)

def ofOperands : List (Operand Float) → Outcome (List JsonValue)
  | [] => .ok []
  | x :: xs => do return (← ofOperand x) :: (← ofOperands xs)

def ofEntries : List (String × Operand Float) → Outcome (List (String × JsonValue))
  | [] => .ok []
  | (key, x) :: entries => do return (key, ← ofOperand x) :: (← ofEntries entries)

end

/-! ## Styles -/

namespace Style

/-- the options of a style -/
def names : List String := [
  "skipkeys", "ensure_ascii", "check_circular", "allow_nan", "cls", "indent", "separators", "default", "sort_keys"]

def indentOf (x : Operand Float) : Outcome (Option String) :=
  match x with
  | .absent => .ok none
  | .text s => .ok (some s)
  | x =>
    match x.integer? with
    | some n => .ok (some (String.ofList (List.replicate n.toNat ' ')))
    | none => .error (.wrongType none)

/-- the separators of items and keys; indented items need no blank between them -/
def separatorsOf (x : Operand Float) (isIndented : Bool) : Outcome (String × String) :=
  match x with
  | .absent => .ok (if isIndented then "," else Style.plain.itemSeparator, Style.plain.keySeparator)
  | .list xs | .tuple xs =>
    match xs with
    | [.text item, .text key] => .ok (item, key)
    | [_, _] => .error (.wrongType none)
    | _ => .error (.badValue none)
  | .text s =>
    match s.toList with
    | [item, key] => .ok (String.singleton item, String.singleton key)
    | _ => .error (.badValue none)
  | _ => .error (.wrongType none)

/-- the style with the given options -/
def ofOptions (options : List (String × Operand Float)) : Outcome Style := do
  if options.any fun o => !names.contains o.1 then .error (.wrongType none)
  let option (name : String) : Option (Operand Float) := (options.find? (·.1 = name)).map Prod.snd
  let indent ← indentOf ((option "indent").getD .absent)
  let (item, key) ← separatorsOf ((option "separators").getD .absent) indent.isSome
  return {
    indent := indent
    itemSeparator := item
    keySeparator := key
    onlyAscii := ((option "ensure_ascii").map Operand.truth).getD Style.plain.onlyAscii
    sortsKeys := ((option "sort_keys").map Operand.truth).getD Style.plain.sortsKeys
    allowsSpecial := ((option "allow_nan").map Operand.truth).getD Style.plain.allowsSpecial }

end Style

end JsonValue

/-! ## Quantities -/

namespace Session

/-- a quantity as a JSON text -/
def toJson (q : Quantity (Operand Float)) (unit : Operand Float) (options : List (String × Operand Float)) :
    Session Float String := do
  let mapping ← toMapping q unit
  let style ← JsonValue.Style.ofOptions options
  return ← JsonValue.write style 0 (← JsonValue.ofOperand mapping)

/-- the quantity that a JSON text tells of -/
def ofJson (x target : Operand Float) : Session Float (Quantity (Operand Float)) := do
  match x with
  | .text s =>
    match JsonValue.read? s with
    | some j => ofMapping j.toOperand target
    | none => throw (.format .notJson)
  | _ => throw (.wrongType none)

end Session

end UnitAlgebra

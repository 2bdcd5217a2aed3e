/-
Settings: the scale policy and the registry in force. Defaults can be configured; a scope overrides them until it is
closed, and holds settings complete in themselves.

Results:
- `leave_enter`: closing a scope that was just opened gives the state before it.
- `current_configure`: inside a scope, configured defaults do not show.
-/
import UnitAlgebra.Operand

namespace UnitAlgebra

structure Settings (κ : Type) where
  policy : ScalePolicy
  /-- the registry that replaces the built-in one -/
  registry : Option (Registry κ)

namespace Settings

variable {κ : Type}

def initial : Settings κ := ⟨.smallerWins, none⟩

/-- the settings that can be changed -/
def names : List String := ["policy", "registry"]

/-- a policy, or its name -/
def policyOf (x : Operand κ) : Outcome ScalePolicy :=
  match x with
  | .policy p => .ok p
  | .text s => ScalePolicy.ofName s
  | x => .error (.wrongType (some (.policy x.kind)))

/-- a registry, or none -/
def registryOf (x : Operand κ) : Outcome (Option (Registry κ)) :=
  match x with
  | .absent => .ok none
  | .registry r => .ok (some r)
  | x => .error (.wrongType (some (.registry x.kind)))

/-- the last change of a setting -/
def change? (changes : List (String × Operand κ)) (name : String) : Option (Operand κ) :=
  (changes.reverse.find? (·.1 = name)).map Prod.snd

/-- settings with changes; an unknown name is refused before any value is looked at -/
def changed (s : Settings κ) (changes : List (String × Operand κ)) : Outcome (Settings κ) :=
  match changes.find? fun c => !names.contains c.1 with
  | some c => .error (.wrongType (some (.unknownSetting c.1)))
  | none => do
    let policy ← match change? changes "policy" with
      | some x => policyOf x
      | none => pure s.policy
    let registry ← match change? changes "registry" with
      | some x => registryOf x
      | none => pure s.registry
    return ⟨policy, registry⟩

/-- settings made from nothing but the given ones -/
def make (values : List (String × Operand κ)) : Outcome (Settings κ) :=
  if values.any fun v => !names.contains v.1 then .error (.wrongType none) else initial.changed values

end Settings

/-! ## Scopes -/

/-- the defaults, and the settings of the open scopes, innermost first -/
structure Scopes (κ : Type) where
  defaults : Settings κ
  inner : List (Settings κ)

namespace Scopes

variable {κ : Type}

def initial : Scopes κ := ⟨.initial, []⟩

/-- the settings in force -/
def current (s : Scopes κ) : Settings κ := s.inner.headD s.defaults

/-- change the defaults -/
def configure (s : Scopes κ) (changes : List (String × Operand κ)) : Outcome (Scopes κ) := do
  return { s with defaults := ← s.defaults.changed changes }

/-- open a scope -/
def enter (s : Scopes κ) (changes : List (String × Operand κ)) : Outcome (Scopes κ) := do
  return { s with inner := (← s.current.changed changes) :: s.inner }

/-- close the innermost scope -/
def leave (s : Scopes κ) : Scopes κ := { s with inner := s.inner.tail }

/-- Closing a scope that was just opened gives the state before it. -/
theorem leave_enter {s t : Scopes κ} {changes : List (String × Operand κ)} (h : s.enter changes = .ok t) :
    t.leave = s := by
  simp only [enter, bind, Except.bind] at h
  split at h
  · cases h
  · cases h; rfl

/-- Inside a scope, configured defaults do not show. -/
theorem current_configure {s t : Scopes κ} {changes : List (String × Operand κ)} (hs : s.inner ≠ [])
    (h : s.configure changes = .ok t) : t.current = s.current := by
  simp only [configure, bind, Except.bind] at h
  split at h
  · cases h
  · cases h
    cases hi : s.inner with
    | nil => exact absurd hi hs
    | cons a rest => simp [current, hi]

end Scopes

end UnitAlgebra

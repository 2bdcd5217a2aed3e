/-
Which settings are in force after any sequence of steps, told by the history of the steps alone: by the scopes that are
still open, and by the configurations that were accepted.

A scope is opened on all settings in force, not only on those that it changes. So a configuration made inside a scope
does not show in it, whichever setting it names; it shows once the outermost open scope is closed.

Results:
- `Scopes.ToldBy.next`: a step goes on as the history does.
- `Scopes.current_resolved`: each setting is that of the innermost open scope that names it, or else that of the latest
  configuration from before the outermost open scope.
- `Scopes.current_not_latest`: it need not be that of the latest configuration.
-/
import UnitAlgebra.Proofs.Settings.Scopes

namespace UnitAlgebra

/-! ## Histories -/

/-- a scope that is open -/
structure OpenScope (κ : Type) where
  changes : Changes κ
  /-- the configurations accepted before it was opened, latest first -/
  earlier : List (Changes κ)

/-- what steps have done: the accepted configurations, latest first, and the open scopes, innermost first -/
structure History (κ : Type) where
  configured : List (Changes κ)
  scopes : List (OpenScope κ)

namespace History

open Settings

variable {κ : Type}

def next (h : History κ) : ScopeStep κ → History κ
  | .configure changes => if accepts changes then { h with configured := changes :: h.configured } else h
  | .enter changes => if accepts changes then { h with scopes := ⟨changes, h.configured⟩ :: h.scopes } else h
  | .leave => { h with scopes := h.scopes.tail }

def of (steps : List (ScopeStep κ)) : History κ := steps.foldl next ⟨[], []⟩

/-- the configurations from before the outermost open scope, and all of them where no scope is open -/
def settled (h : History κ) : List (Changes κ) := (h.scopes.getLast?.map OpenScope.earlier).getD h.configured

/-- the value that the first of the scopes gives that names the setting, or else the first of the configurations -/
def value? (scopes : List (OpenScope κ)) (configured : List (Changes κ)) (f : Setting) : Option (f.Value κ) :=
  (scopes.findSome? fun s => given? s.changes f).or (configured.findSome? fun c => given? c f)

/-- the value of a setting as the history shows it -/
def shown? (h : History κ) (f : Setting) : Option (f.Value κ) := value? h.scopes h.settled f

theorem shown?_opened (h : History κ) (changes : Changes κ) (f : Setting) :
    shown? { h with scopes := ⟨changes, h.configured⟩ :: h.scopes } f = (given? changes f).or (h.shown? f) := by
  have hsettled : settled { h with scopes := ⟨changes, h.configured⟩ :: h.scopes } = h.settled := by
    unfold settled
    cases h.scopes with
    | nil => rfl
    | cons s scopes => rw [List.getLast?_cons_cons]
  rw [shown?, hsettled, shown?, value?, value?, List.findSome?_cons]
  cases given? changes f <;> rfl

/-- inside a scope, configurations do not show -/
theorem shown?_configured_inside {h : History κ} (hopen : h.scopes ≠ []) (configured : List (Changes κ)) (f : Setting) :
    shown? { h with configured } f = h.shown? f := by
  have hsettled : settled { h with configured } = h.settled := by
    unfold settled
    cases hlast : h.scopes.getLast? with
    | none => exact absurd (List.getLast?_eq_none_iff.1 hlast) hopen
    | some s => rfl
  rw [shown?, hsettled, shown?]

theorem shown?_configured_outside {h : History κ} (hclosed : h.scopes = []) (changes : Changes κ) (f : Setting) :
    shown? { h with configured := changes :: h.configured } f = (given? changes f).or (h.shown? f) := by
  simp only [shown?, settled, hclosed, List.getLast?_nil, Option.map_none, Option.getD_none, value?, List.findSome?_nil,
    List.findSome?_cons]
  cases given? changes f <;> rfl

/-- the history with the innermost scopes closed -/
def drop (n : Nat) (h : History κ) : History κ := { h with scopes := h.scopes.drop n }

end History

/-! ## Settings in force -/

namespace Scopes

open Settings

variable {κ : Type}

/-- the scopes with the innermost ones closed -/
def drop (n : Nat) (s : Scopes κ) : Scopes κ := { s with inner := s.inner.drop n }

/-- the history tells what is in force now, and what will be as scopes are closed -/
structure ToldBy (d : Settings κ) (s : Scopes κ) (h : History κ) : Prop where
  depth : s.inner.length = h.scopes.length
  value : ∀ n f, (s.drop n).current.get f = ((h.drop n).shown? f).getD (d.get f)

section

variable {d : Settings κ} {s : Scopes κ} {h : History κ}

theorem ToldBy.configured (ht : ToldBy d s h) (changes : Changes κ) :
    ToldBy d { s with defaults := s.defaults.altered changes } { h with configured := changes :: h.configured } := by
  refine ⟨ht.depth, fun n f => ?_⟩
  have hvalue := ht.value n f
  by_cases hn : s.inner.length ≤ n
  · have hinner : s.inner.drop n = [] := List.drop_eq_nil_iff.2 hn
    have hscopes : (h.drop n).scopes = [] := List.drop_eq_nil_iff.2 (ht.depth ▸ hn)
    have hshown := History.shown?_configured_outside hscopes changes f
    simp only [drop, current, hinner, List.headD_nil] at hvalue ⊢
    rw [get_altered, hvalue, ← Option.getD_or, ← hshown]
    rfl
  · -- the scope that is innermost once `n` are closed keeps its settings
    have hscopes : (h.drop n).scopes ≠ [] := fun hnil => hn (ht.depth ▸ List.drop_eq_nil_iff.1 hnil)
    have hshown := History.shown?_configured_inside hscopes (changes :: h.configured) f
    cases hinner : s.inner.drop n with
    | nil => exact absurd (List.drop_eq_nil_iff.1 hinner) hn
    | cons top rest =>
      simp only [drop, current, hinner, List.headD_cons] at hvalue ⊢
      rw [hvalue, ← hshown]
      rfl

theorem ToldBy.entered (ht : ToldBy d s h) (changes : Changes κ) :
    ToldBy d { s with inner := s.current.altered changes :: s.inner }
      { h with scopes := ⟨changes, h.configured⟩ :: h.scopes } := by
  refine ⟨congrArg (· + 1) ht.depth, fun n f => ?_⟩
  cases n with
  | zero =>
    have hvalue : s.current.get f = (h.shown? f).getD (d.get f) := ht.value 0 f
    calc (s.current.altered changes).get f
      _ = (given? changes f).getD (s.current.get f) := get_altered _ _ _
      _ = ((given? changes f).or (h.shown? f)).getD (d.get f) := by rw [hvalue, Option.getD_or]
      _ = (History.shown? { h with scopes := ⟨changes, h.configured⟩ :: h.scopes } f).getD (d.get f) := by
        rw [History.shown?_opened]
  | succ n => exact ht.value n f

theorem ToldBy.left (ht : ToldBy d s h) : ToldBy d s.leave { h with scopes := h.scopes.tail } := by
  refine ⟨?_, fun n f => ?_⟩
  · rw [leave, List.length_tail, List.length_tail, ht.depth]
  · have hvalue := ht.value (n + 1) f
    rw [drop, History.drop, ← List.drop_tail, ← List.drop_tail] at hvalue
    exact hvalue

/-- a step goes on as the history does -/
theorem ToldBy.next (ht : ToldBy d s h) (step : ScopeStep κ) : ToldBy d (s.next step) (h.next step) := by
  cases step with
  | configure changes =>
    rw [next_configure, History.next]
    cases accepts changes with
    | true => exact ht.configured changes
    | false => exact ht
  | enter changes =>
    rw [next_enter, History.next]
    cases accepts changes with
    | true => exact ht.entered changes
    | false => exact ht
  | leave => exact ht.left

theorem ToldBy.after (ht : ToldBy d s h) (steps : List (ScopeStep κ)) :
    ToldBy d (s.after steps) (steps.foldl History.next h) := by
  induction steps generalizing s h with
  | nil => exact ht
  | cons step steps ih => exact ih (ht.next step)

end

/-- **What is in force.** Each setting is that of the innermost open scope that names it. Where no open scope does, it is
that of the latest configuration accepted before the outermost open scope was opened, or else the default. -/
theorem current_resolved (d : Settings κ) (steps : List (ScopeStep κ)) (f : Setting) :
    ((Scopes.mk d []).after steps).current.get f =
      (History.value? (History.of steps).scopes (History.of steps).settled f).getD (d.get f) := by
  have hstart : ToldBy d ⟨d, []⟩ ⟨[], []⟩ := ⟨rfl, fun n f => by
    rw [drop, History.drop, List.drop_nil, List.drop_nil]
    rfl⟩
  exact (hstart.after steps).value 0 f

/-- **Not that of the latest configuration.** A policy configured in a scope that changes only the registry does not show
in the scope. -/
theorem current_not_latest :
    ¬ ∀ (d : Settings Float) (steps : List (ScopeStep Float)) (f : Setting),
      ((Scopes.mk d []).after steps).current.get f =
        (History.value? (History.of steps).scopes (History.of steps).configured f).getD (d.get f) := by
  intro h
  have := h .initial [.enter [("registry", .absent)], .configure [("policy", .policy .strict)]] .policy
  change ScalePolicy.smallerWins = ScalePolicy.strict at this
  cases this

end Scopes

end UnitAlgebra

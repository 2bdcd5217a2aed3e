/-
Sequences of steps that configure the defaults, open scopes and close them, in any nesting and with refused steps among
them. A refused step leaves everything as it was; a scope that is closed leaves no trace but the configurations made in
it, which are made to the defaults and not to the scope.

Results:
- `Settings.changed_of_accepts`, `exists_fault_of_refused`: changes are accepted for what they say, not for what they change.
- `Scopes.next_configure`, `next_enter`, `fault?_eq_none_iff_accepted`: what each step does, and when it is refused.
- `Scopes.after_of_balanced`: steps that close every scope they open leave no more than their configurations do.
- `Scopes.restored`: a refused step changes nothing, and a closed scope leaves the configurations made in it.
-/
import UnitAlgebra.Settings

namespace UnitAlgebra

/-! ## Settings, one by one -/

inductive Setting where
  | policy | registry
deriving DecidableEq, Repr

namespace Setting

variable {κ : Type}

def all : List Setting := [policy, registry]

theorem mem_all (f : Setting) : f ∈ all := by cases f <;> decide

def name : Setting → String
  | policy => "policy"
  | registry => "registry"

/-- the values that a setting may have -/
def Value (κ : Type) : Setting → Type
  | policy => ScalePolicy
  | registry => Option (Registry κ)

/-- the value that an operand stands for -/
def read : (f : Setting) → Operand κ → Outcome (f.Value κ)
  | policy => Settings.policyOf
  | registry => Settings.registryOf

end Setting

abbrev Changes (κ : Type) := List (String × Operand κ)

namespace Settings

variable {κ : Type}

def get (s : Settings κ) : (f : Setting) → f.Value κ
  | .policy => s.policy
  | .registry => s.registry

/-- the value that changes give to a setting, if they name it -/
def given? (changes : Changes κ) (f : Setting) : Option (f.Value κ) :=
  (change? changes f.name).bind fun x => (f.read x).toOption

/-- all names are those of settings, and all values are values of them -/
def accepts (changes : Changes κ) : Bool :=
  changes.all (fun c => names.contains c.1) &&
    Setting.all.all fun f => (change? changes f.name).all fun x => (f.read x).isOk

/-- the settings that accepted changes lead to -/
def altered (s : Settings κ) (changes : Changes κ) : Settings κ :=
  ⟨(given? changes .policy).getD s.policy, (given? changes .registry).getD s.registry⟩

@[simp] theorem get_altered (s : Settings κ) (changes : Changes κ) (f : Setting) :
    (s.altered changes).get f = (given? changes f).getD (s.get f) := by cases f <;> rfl

/-- a setting after changes: read from the operand that is given for it, and else as it was -/
def settingAfter (s : Settings κ) (changes : Changes κ) (f : Setting) : Outcome (f.Value κ) :=
  match change? changes f.name with
  | some x => f.read x
  | none => .ok (s.get f)

theorem changed_of_known {s : Settings κ} {changes : Changes κ}
    (h : changes.find? (fun c => !names.contains c.1) = none) :
    s.changed changes = do
      let policy ← s.settingAfter changes .policy
      let registry ← s.settingAfter changes .registry
      return ⟨policy, registry⟩ := by
  unfold changed settingAfter
  rw [h]
  simp only [Setting.name]
  cases change? changes "policy" <;> cases change? changes "registry" <;> rfl

theorem find?_unknown_eq_none_iff {changes : Changes κ} :
    changes.find? (fun c => !names.contains c.1) = none ↔ changes.all (fun c => names.contains c.1) = true := by
  simp

theorem settingAfter_of_accepts {s : Settings κ} {changes : Changes κ} {f : Setting}
    (h : (change? changes f.name).all (fun x => (f.read x).isOk) = true) :
    s.settingAfter changes f = .ok ((given? changes f).getD (s.get f)) := by
  unfold settingAfter given?
  cases hx : change? changes f.name with
  | none => rfl
  | some x =>
    rw [hx, Option.all_some] at h
    cases hv : f.read x with
    | error fault =>
      rw [hv] at h
      cases h
    | ok v => simp only [Option.bind_some, hv, Except.toOption, Option.getD_some]

theorem settingAfter_of_refused {changes : Changes κ} {f : Setting}
    (h : (change? changes f.name).all (fun x => (f.read x).isOk) = false) :
    ∃ fault, ∀ s : Settings κ, s.settingAfter changes f = .error fault := by
  cases hx : change? changes f.name with
  | none => simp [hx] at h
  | some x =>
    rw [hx, Option.all_some] at h
    cases hv : f.read x with
    | error fault => exact ⟨fault, fun s => by simp only [settingAfter, hx, hv]⟩
    | ok v =>
      rw [hv] at h
      cases h

/-- Changes that are accepted give the settings that they name, and leave the others. -/
theorem changed_of_accepts {s : Settings κ} {changes : Changes κ} (h : accepts changes = true) :
    s.changed changes = .ok (s.altered changes) := by
  obtain ⟨hnames, hvalues⟩ := Bool.and_eq_true_iff.1 h
  have hread (f : Setting) := settingAfter_of_accepts (s := s) (List.all_eq_true.1 hvalues f f.mem_all)
  rw [changed_of_known (find?_unknown_eq_none_iff.2 hnames), hread .policy, hread .registry]
  rfl

/-- Changes that are not accepted are refused, whatever they are to change. -/
theorem exists_fault_of_refused {changes : Changes κ} (h : accepts changes = false) (s : Settings κ) :
    ∃ fault, s.changed changes = .error fault := by
  cases hunknown : changes.find? fun c => !names.contains c.1 with
  | some c =>
    refine ⟨.wrongType (some (.unknownSetting c.1)), ?_⟩
    unfold changed
    rw [hunknown]
  | none =>
    rw [accepts, find?_unknown_eq_none_iff.1 hunknown, Bool.true_and] at h
    obtain ⟨f, -, hf⟩ := List.all_eq_false.1 h
    obtain ⟨fault, hfault⟩ := settingAfter_of_refused (Bool.eq_false_iff.2 hf)
    rw [changed_of_known hunknown]
    cases f with
    | policy => exact ⟨fault, by rw [hfault]; rfl⟩
    | registry =>
      rw [hfault]
      cases s.settingAfter changes .policy with
      | error first => exact ⟨first, rfl⟩
      | ok v => exact ⟨fault, rfl⟩

/-- whether changes are accepted does not depend on what they are to change -/
theorem exists_changed_iff {s : Settings κ} {changes : Changes κ} :
    (∃ t, s.changed changes = .ok t) ↔ accepts changes = true := by
  cases h : accepts changes with
  | true => exact iff_of_true ⟨_, changed_of_accepts h⟩ rfl
  | false =>
    obtain ⟨fault, hfault⟩ := exists_fault_of_refused h s
    rw [hfault]
    refine iff_of_false ?_ Bool.false_ne_true
    rintro ⟨t, ht⟩
    cases ht

end Settings

/-! ## Steps -/

/-- a step of a program that changes settings -/
inductive ScopeStep (κ : Type) where
  | configure (changes : Changes κ)
  | enter (changes : Changes κ)
  | leave

namespace ScopeStep

variable {κ : Type}

def isConfigure : ScopeStep κ → Bool
  | configure _ => true
  | _ => false

/-- the changes of the step are accepted -/
def accepted : ScopeStep κ → Bool
  | configure changes | enter changes => Settings.accepts changes
  | leave => true

end ScopeStep

namespace Scopes

open Settings

variable {κ : Type}

/-- a run over scopes; what was set before a fault stays set after it -/
abbrev Run (κ α : Type) := ExceptT Fault (StateM (Scopes κ)) α

def perform : ScopeStep κ → Run κ Unit
  | .configure changes => do set (← ofExcept ((← get).configure changes))
  | .enter changes => do set (← ofExcept ((← get).enter changes))
  | .leave => do set (← get).leave

/-- the fault that a step ends in, if it does -/
def fault? (s : Scopes κ) (step : ScopeStep κ) : Option Fault :=
  match (perform step).run s with
  | (.ok _, _) => none
  | (.error fault, _) => some fault

/-- the scopes after a step, whether or not it ends in a fault -/
def next (s : Scopes κ) (step : ScopeStep κ) : Scopes κ := ((perform step).run s).2

/-- the scopes after all steps; a fault is caught, and the next step goes on -/
def after (s : Scopes κ) (steps : List (ScopeStep κ)) : Scopes κ := steps.foldl next s

/-! ### One step -/

/-- what a step makes of the scopes, unless it is refused -/
def outcome (s : Scopes κ) : ScopeStep κ → Outcome (Scopes κ)
  | .configure changes => s.configure changes
  | .enter changes => s.enter changes
  | .leave => .ok s.leave

theorem run_perform (s : Scopes κ) (step : ScopeStep κ) :
    (perform step).run s = match s.outcome step with
      | .ok t => (.ok (), t)
      | .error fault => (.error fault, s) := by
  have hset (o : Outcome (Scopes κ)) : ((do set (← ofExcept o)) : Run κ Unit).run s = match o with
      | .ok t => (.ok (), t)
      | .error fault => (.error fault, s) := by cases o <;> rfl
  cases step with
  | configure changes => exact hset (s.configure changes)
  | enter changes => exact hset (s.enter changes)
  | leave => rfl

theorem next_eq (s : Scopes κ) (step : ScopeStep κ) : s.next step = (s.outcome step).toOption.getD s := by
  unfold next
  rw [run_perform]
  cases s.outcome step <;> rfl

theorem fault?_eq_some_iff {s : Scopes κ} {step : ScopeStep κ} {fault : Fault} :
    s.fault? step = some fault ↔ s.outcome step = .error fault := by
  unfold fault?
  rw [run_perform]
  cases s.outcome step <;> simp

theorem fault?_eq_none_iff {s : Scopes κ} {step : ScopeStep κ} :
    s.fault? step = none ↔ ∃ t, s.outcome step = .ok t := by
  unfold fault?
  rw [run_perform]
  cases s.outcome step <;> simp

/-- A step that ends in a fault leaves the scopes as they were. -/
theorem next_of_fault? {s : Scopes κ} {step : ScopeStep κ} {fault : Fault} (h : s.fault? step = some fault) :
    s.next step = s := by
  rw [next_eq, fault?_eq_some_iff.1 h]
  rfl

theorem next_configure (s : Scopes κ) (changes : Changes κ) :
    s.next (.configure changes) =
      if accepts changes then { s with defaults := s.defaults.altered changes } else s := by
  rw [next_eq, outcome, configure]
  cases h : accepts changes with
  | true =>
    rw [changed_of_accepts h]
    rfl
  | false =>
    obtain ⟨fault, hfault⟩ := exists_fault_of_refused h s.defaults
    rw [hfault]
    rfl

theorem next_enter (s : Scopes κ) (changes : Changes κ) :
    s.next (.enter changes) =
      if accepts changes then { s with inner := s.current.altered changes :: s.inner } else s := by
  rw [next_eq, outcome, enter]
  cases h : accepts changes with
  | true =>
    rw [changed_of_accepts h]
    rfl
  | false =>
    obtain ⟨fault, hfault⟩ := exists_fault_of_refused h s.current
    rw [hfault]
    rfl

theorem next_leave (s : Scopes κ) : s.next .leave = s.leave := rfl

/-- whether a step is refused depends on its changes alone, and not on the scopes -/
theorem fault?_eq_none_iff_accepted {s : Scopes κ} {step : ScopeStep κ} : s.fault? step = none ↔ step.accepted = true := by
  have hset (o : Outcome (Settings κ)) (g : Settings κ → Scopes κ) :
      (∃ t, (o >>= fun u => .ok (g u)) = .ok t) ↔ ∃ u, o = .ok u := by
    cases o with
    | error fault => simp [bind, Except.bind]
    | ok u => simp [bind, Except.bind]
  rw [fault?_eq_none_iff]
  cases step with
  | configure changes => exact (hset _ fun u => { s with defaults := u }).trans exists_changed_iff
  | enter changes => exact (hset _ fun u => { s with inner := u :: s.inner }).trans exists_changed_iff
  | leave => exact iff_of_true ⟨_, rfl⟩ rfl

theorem after_append (s : Scopes κ) (xs ys : List (ScopeStep κ)) : s.after (xs ++ ys) = (s.after xs).after ys :=
  List.foldl_append

theorem after_cons (s : Scopes κ) (x : ScopeStep κ) (xs : List (ScopeStep κ)) :
    s.after (x :: xs) = (s.next x).after xs := rfl

/-! ### Scopes that are closed -/

end Scopes

/-- steps that close every scope they open, and no other; a refused step opens none -/
inductive Balanced {κ : Type} : List (ScopeStep κ) → Prop
  | nil : Balanced []
  | configure (changes : Changes κ) {rest : List (ScopeStep κ)} (hrest : Balanced rest) :
      Balanced (.configure changes :: rest)
  | refused {changes : Changes κ} (h : Settings.accepts changes = false) {rest : List (ScopeStep κ)}
      (hrest : Balanced rest) : Balanced (.enter changes :: rest)
  | scope {changes : Changes κ} (h : Settings.accepts changes = true) {inner rest : List (ScopeStep κ)}
      (hinner : Balanced inner) (hrest : Balanced rest) : Balanced (.enter changes :: (inner ++ .leave :: rest))

namespace Scopes

open Settings

variable {κ : Type}

theorem after_configurations {steps : List (ScopeStep κ)} (h : ∀ x ∈ steps, x.isConfigure = true) (s : Scopes κ)
    (inner : List (Settings κ)) : ({ s with inner }).after steps = { s.after steps with inner } := by
  induction steps generalizing s with
  | nil => rfl
  | cons x steps ih =>
    have hrest (y) (hy : y ∈ steps) := h y (List.mem_cons_of_mem x hy)
    rw [after_cons, after_cons]
    cases x with
    | configure changes =>
      rw [next_configure, next_configure]
      cases accepts changes with
      | true => exact ih hrest { s with defaults := s.defaults.altered changes }
      | false => exact ih hrest s
    | enter changes => cases h _ List.mem_cons_self
    | leave => cases h _ List.mem_cons_self

theorem inner_configurations {steps : List (ScopeStep κ)} (h : ∀ x ∈ steps, x.isConfigure = true) (s : Scopes κ) :
    (s.after steps).inner = s.inner := by
  have := congrArg inner (after_configurations h s s.inner)
  exact this

/-- Steps that close every scope they open leave no more than their configurations do. -/
theorem after_of_balanced {steps : List (ScopeStep κ)} (h : Balanced steps) (s : Scopes κ) :
    s.after steps = s.after (steps.filter ScopeStep.isConfigure) := by
  induction h generalizing s with
  | nil => rfl
  | configure changes hrest ih => exact ih (s.next (.configure changes))
  | refused h hrest ih =>
    rw [after_cons, next_enter, h]
    exact ih s
  | @scope changes h inner rest hinner hrest ihinner ihrest =>
    have hconfigurations : ∀ x ∈ inner.filter ScopeStep.isConfigure, x.isConfigure = true := fun x hx =>
      (List.mem_filter.1 hx).2
    calc s.after (.enter changes :: (inner ++ .leave :: rest))
      _ = ((({ s with inner := s.current.altered changes :: s.inner }).after inner).leave).after rest := by
          rw [after_cons, next_enter, if_pos h, after_append, after_cons, next_leave]
      _ = (s.after (inner.filter ScopeStep.isConfigure)).after rest := by
          rw [ihinner, after_configurations hconfigurations]
          congr 1
          rw [leave, List.tail_cons, ← inner_configurations hconfigurations s]
      _ = s.after ((ScopeStep.enter changes :: (inner ++ .leave :: rest)).filter ScopeStep.isConfigure) := by
          rw [ihrest, ← after_append, ← List.filter_append]
          simp [ScopeStep.isConfigure]

/-- **Scopes are restored, and refused steps change nothing.** -/
theorem restored (s : Scopes κ) (before : List (ScopeStep κ)) :
    (∀ step fault, (s.after before).fault? step = some fault → s.after (before ++ [step]) = s.after before) ∧
      ∀ changes inner, (s.after before).fault? (.enter changes) = none → Balanced inner →
        s.after (before ++ .enter changes :: inner ++ [.leave]) =
          s.after (before ++ inner.filter ScopeStep.isConfigure) := by
  constructor
  · intro step fault h
    rw [after_append]
    exact next_of_fault? h
  · intro changes inner h hinner
    have hscope : Balanced (.enter changes :: (inner ++ [.leave])) :=
      .scope (fault?_eq_none_iff_accepted.1 h) hinner .nil
    rw [List.append_assoc, List.cons_append, after_append, after_append, after_of_balanced hscope]
    simp [ScopeStep.isConfigure]

/-- A policy configured in a scope inside a scope stays when both are closed; an unknown setting changes nothing. -/
theorem restored_nested :
    let before : List (ScopeStep Float) := [.configure [("policy", .policy .largerWins)]]
    let inner : List (ScopeStep Float) :=
      [.enter [("registry", .absent)], .configure [("policy", .policy .strict)], .leave, .enter [("policy", .integer 1)]]
    (initial.after before).fault? (.configure [("colour", .text "red")]) =
        some (.wrongType (some (.unknownSetting "colour"))) ∧
      initial.after (before ++ [.configure [("colour", .text "red")]]) = initial.after before ∧
      (initial.after before).fault? (.enter [("policy", .policy .leftHandWins)]) = none ∧ Balanced inner ∧
      initial.after (before ++ .enter [("policy", .policy .leftHandWins)] :: inner ++ [.leave]) =
        initial.after (before ++ [.configure [("policy", .policy .strict)]]) := by
  intro before inner
  have hunknown : (initial.after before).fault? (.configure [("colour", .text "red")]) =
      some (.wrongType (some (.unknownSetting "colour"))) := rfl
  have hopens : (initial.after before).fault? (.enter [("policy", .policy .leftHandWins)]) = none := rfl
  have hinner : Balanced inner := .scope rfl (.configure _ .nil) (.refused rfl .nil)
  exact ⟨hunknown, (restored initial before).1 _ _ hunknown, hopens, hinner,
    (restored initial before).2 _ inner hopens hinner⟩

end Scopes

end UnitAlgebra

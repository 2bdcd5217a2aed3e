/-
Which faults the evaluation of an expression ends in. What it promises is a unit that values can be taken out of, or an
error of the unit algebra. In exact arithmetic this is kept; floating point numbers keep it as long as the factor of the
expression neither grows to infinity nor shrinks to zero.

Results:
- `evaluateText_sound_real`: with real numbers, evaluation keeps its promise.
- `evaluateText_faults`: with floating point numbers, every other fault is one of reckoning the factor, and units with
  the factor one are safe.
- `evaluateText_unsound`: there are such faults, and units with an infinite factor or the factor zero.
-/
import UnitAlgebra.Conversion
import UnitAlgebra.Proofs.Expression.Composition
import UnitAlgebra.Proofs.Expression.Factors
import UnitAlgebra.Proofs.Numeric.Exact

namespace UnitAlgebra

/-- a finite number other than zero -/
def Numeric.IsProper {κ : Type} [Numeric κ] (x : κ) : Prop := Numeric.isFinite x = true ∧ Numeric.isZero x = false

/-! ## Values out of storage -/

/-- Values can be taken out of the storage unit unless the factor is zero. -/
theorem UnitMeaning.fromStorage_returns_iff (u : UnitMeaning Float) :
    (∀ x, ∃ y, Step.convert x u.fromStorage = .ok y) ↔ Numeric.isZero u.factor = false := by
  have hdivide : ∀ x, Step.convert x u.fromStorage =
      (Step.convert x (if Numeric.isZero u.offset then [] else [.minus u.offset])).bind fun y =>
        Step.convert y (if Numeric.isOne u.factor then [] else [.dividedBy u.factor]) :=
    fun x => Step.convert_append x _ _
  have hoffset : ∀ x : Float, ∃ y,
      Step.convert x (if Numeric.isZero u.offset then [] else [.minus u.offset]) = .ok y := by
    intro x
    split <;> exact ⟨_, rfl⟩
  constructor
  · intro h
    obtain ⟨y, hy⟩ := h Numeric.zero
    obtain ⟨z, hz⟩ := hoffset Numeric.zero
    rw [hdivide, hz] at hy
    by_cases hone : Numeric.isOne u.factor = true
    · exact Binary64.isZero_of_isOne hone
    · by_contra hzero
      rw [Bool.not_eq_false] at hzero
      have hrefused : Step.convert z [.dividedBy u.factor] = .error .divisionByZero := by
        change (if Numeric.isZero u.factor then _ else _) >>= _ = _
        rw [if_pos hzero]
        rfl
      rw [if_neg hone, Except.bind, hrefused] at hy
      cases hy
  · intro hzero x
    obtain ⟨z, hz⟩ := hoffset x
    rw [hdivide, hz]
    change ∃ y, Step.convert z _ = .ok y
    split
    · exact ⟨z, rfl⟩
    · refine ⟨Numeric.div z u.factor, ?_⟩
      change (if Numeric.isZero u.factor then _ else _) >>= _ = _
      rw [hzero]
      rfl

namespace Expression

/-! ## Real numbers -/

variable {κ : Type}

theorem mem_of_knows {families : List (UnitFamily κ)} {prefixes : List SiPrefix} (hb : r.BuiltFrom families prefixes)
    {e : Entry κ} (h : Knows r e) : e.family ∈ families ∧ e.unit ∈ e.family.units := by
  rcases h with ⟨s, hs⟩ | ⟨s, hs⟩
  · rw [hb.symbols] at hs
    obtain ⟨hf, hu, -⟩ := Registry.mem_symbolListing.1 (Directory.mem_of_find? hs)
    exact ⟨hf, hu⟩
  · rw [hb.names] at hs
    have hmem := Directory.mem_of_find? hs
    simp only [Registry.nameListing, Registry.familyUnitNames, List.mem_flatMap, List.mem_map, Prod.mk.injEq] at hmem
    obtain ⟨f, hf, u, hu, n, -, -, rfl⟩ := hmem
    exact ⟨hf, hu⟩

theorem closed_real : Closed (κ := ℝ) (· ≠ 0) (fun _ => True) (fun fault => fault.isEvaluation = true) where
  one := by
    rw [Numeric.Exact.one]
    exact one_ne_zero
  mul hx hy := by
    rw [Numeric.Exact.mul]
    exact mul_ne_zero hx hy
  div {x y} hx hy := by
    have hzero : Numeric.isZero y = false := by
      rw [← Bool.not_eq_true, Numeric.isZero_iff]
      exact hy
    rw [hzero]
    change Numeric.div x y ≠ 0
    rw [Numeric.Exact.div]
    exact div_ne_zero hx hy
  power {x n} hx _ := by
    change Outcome.Ends _ _ (if x = 0 ∧ n < 0 then _ else _)
    rw [if_neg fun h => hx h.1]
    exact zpow_ne_zero n hx

/-- **In exact arithmetic evaluation keeps its promise.** When no unit has the factor zero, a text has a unit whose
factor is not zero, or an error of the unit algebra. -/
theorem evaluateText_sound_real {families : List (UnitFamily ℝ)} {prefixes : List SiPrefix} {allowed : List String}
    {aliases : List (String × String)} {r : Registry ℝ}
    (hbuild : Registry.build families prefixes allowed aliases = .ok r)
    (hfactors : ∀ f ∈ families, ∀ u ∈ f.units, u.factor ≠ 0) (hnames : ∀ p ∈ prefixes, p.name ≠ "") (strict : Bool)
    {text : String} (h : DigitsBelow digitLimit text.toList) :
    Outcome.Ends (fun u => u.factor ≠ 0) (fun fault => fault.isEvaluation = true) (evaluateText r strict text) := by
  obtain ⟨rfl, -, -⟩ := Registry.build_eq_ok_iff.1 hbuild
  have hb := Registry.builtFrom_folded families prefixes allowed aliases
  refine ends_evaluateText closed_real (fun _ h => h) h fun t _ => ⟨fun _ _ => trivial, fun name _ => ?_⟩
  refine (ends_resolve _ strict name).imp ?_ ?_
  · rintro u (hone | ⟨e, hknows, hfactor⟩)
    · rw [hone]
      exact closed_real.one
    · obtain ⟨hf, hu⟩ := mem_of_knows hb hknows
      rw [hfactor]
      exact hfactors _ hf _ hu
  · rintro fault (hfault | ⟨-, p, hp, hname⟩)
    · exact hfault
    · exact absurd hname (hnames p (hb.prefixes ▸ hp))

/-! ## Floating point numbers -/

section

variable {r : Registry Float}

/-- the faults of reckoning a factor -/
def IsReckoning (fault : Fault) : Prop := fault = .tooLarge ∨ fault = .divisionByZero

/-- floating point numbers overflow, and may not be divided by zero -/
theorem closed_float :
    Closed (κ := Float) (fun _ => True) (fun _ => True) (fun fault => IsReckoning fault ∨ IsNaming r fault) where
  one := trivial
  mul _ _ := trivial
  div {x y} _ _ := by
    split
    · exact .inl (.inr rfl)
    · trivial
  power {x n} _ _ := by
    change Outcome.Ends _ _ (Binary64.power x n)
    unfold Binary64.power
    simp only
    split
    · exact .inl (.inl rfl)
    · split
      · exact .inl (.inr rfl)
      · split
        · trivial
        · split
          · exact .inl (.inl rfl)
          · trivial

/-- one alone is closed, up to exponents that are no numbers -/
theorem closed_one :
    Closed (κ := Float) (· = Numeric.one) (fun n => (Binary64.ofInt n).isInf = false) (IsNaming r) where
  one := rfl
  mul hx hy := by
    rw [hx, hy]
    rfl
  div hx hy := by
    rw [hx, hy, Binary64.isZero_of_isOne UnitMeaning.isOne_one]
    rfl
  power {x n} hx hn := by
    have hzero : ((Numeric.one : Float) == 0.0) = false := Binary64.isZero_of_isOne UnitMeaning.isOne_one
    have hone : ((Numeric.one : Float) == 1.0) = true := UnitMeaning.isOne_one
    change Outcome.Ends _ _ (Binary64.power x n)
    rw [hx, Binary64.power]
    simp only [hn, hzero, hone, Bool.false_and, Bool.false_eq_true, if_false, if_true]
    rfl

/-- what evaluation is to end in: a unit with a finite factor other than zero, or an error of the unit algebra -/
def IsSound (o : Outcome (UnitMeaning Float)) : Prop :=
  Outcome.Ends (fun u => Numeric.IsProper u.factor) (fun fault => fault.isEvaluation = true) o

/-- **What evaluation ends in.** A text that has a unit has one with the factor of its tree, and values can be taken out
of its storage unit exactly when that is not zero. A text that has none is refused by an error of the unit algebra,
unless the factor of its tree cannot be reckoned: a power or an exponent is too large, a divisor has become zero, or a
prefix has no name to be looked for. A text whose names all have the factor one, and whose exponents are finite numbers,
ends soundly. -/
theorem evaluateText_faults (r : Registry Float) (strict : Bool) (text : String)
    (h : DigitsBelow digitLimit text.toList) :
    (∀ u, evaluateText r strict text = .ok u → (∃ t, parse text = .ok t ∧ factorOf r strict t = .ok u.factor) ∧
      ((∀ x, ∃ y, Step.convert x u.fromStorage = .ok y) ↔ Numeric.isZero u.factor = false)) ∧
    (∀ fault, evaluateText r strict text = .error fault → fault.isEvaluation = true ∨
      (∃ t, parse text = .ok t ∧ factorOf r strict t = .error fault) ∧
        (fault = .tooLarge ∨ fault = .divisionByZero ∨ fault = .badIndex ∧ ∃ p ∈ r.prefixes, p.name = "")) ∧
    ((∀ p ∈ r.prefixes, p.name ≠ "") →
      (∀ t, parse text = .ok t → (∀ n ∈ t.exponents, (Binary64.ofInt n).isInf = false) ∧
        ∀ name ∈ t.identifiers, ∀ u, resolve r strict name = .ok u → u.factor = Numeric.one) →
      IsSound (evaluateText r strict text)) := by
  refine ⟨fun u hu => ⟨?_, u.fromStorage_returns_iff⟩, fun fault hfault => ?_, fun hnames ht => ?_⟩
  · rcases agrees_text r strict h with ⟨cause, hcause⟩ | ⟨t, hp, hagrees⟩
    · rw [hu] at hcause
      cases hcause
    · rw [hu] at hagrees
      exact ⟨t, hp, hagrees.factor_of_ok⟩
  · rcases agrees_text r strict h with ⟨cause, hcause⟩ | ⟨t, hp, hagrees⟩
    · rw [hfault] at hcause
      cases hcause
      exact .inl rfl
    · have hends : Outcome.Ends (fun _ => True) _ (evaluateText r strict text) :=
        ends_evaluateText (closed_float (r := r)) (fun _ hf => .inr (.inl hf)) h fun t _ =>
          ⟨fun _ _ => trivial, fun name _ => (ends_resolve r strict name).imp (fun _ _ => trivial) fun _ hf => .inr hf⟩
      rw [hfault] at hagrees hends
      rcases hagrees.factor_of_error with hevaluation | hfactor
      · exact .inl hevaluation
      · rcases hends with (hlarge | hzero) | hevaluation | hindex
        · exact .inr ⟨⟨t, hp, hfactor⟩, .inl hlarge⟩
        · exact .inr ⟨⟨t, hp, hfactor⟩, .inr (.inl hzero)⟩
        · exact .inl hevaluation
        · exact .inr ⟨⟨t, hp, hfactor⟩, .inr (.inr hindex)⟩
  · have hends : Outcome.Ends (fun u => u.factor = Numeric.one) (IsNaming r) (evaluateText r strict text) := by
      refine ends_evaluateText closed_one (fun _ hf => .inl hf) h fun t hp => ⟨(ht t hp).1, fun name hname => ?_⟩
      have hresolve := ends_resolve r strict name
      cases hr : resolve r strict name with
      | error fault =>
        rw [hr] at hresolve
        exact hresolve
      | ok u => exact (ht t hp).2 name hname u hr
    refine hends.imp (fun u hu => ?_) ?_
    · rw [hu]
      exact ⟨rfl, Binary64.isZero_of_isOne UnitMeaning.isOne_one⟩
    · rintro fault (hfault | ⟨-, p, hp, hname⟩)
      · exact hfault
      · exact absurd hname (hnames p hp)

/-- the meter squared ends soundly -/
theorem evaluateText_faults_square :
    DigitsBelow digitLimit "m^2".toList ∧ IsSound (evaluateText meterOnly false "m^2") := by
  have h : DigitsBelow digitLimit "m^2".toList := fun run hr _ => hr.length_le.trans (by decide)
  have hp : parse "m^2" = .ok (.pow (.identifier "m") 2) := by decide +kernel
  refine ⟨h, (evaluateText_faults meterOnly false "m^2" h).2.2 nofun fun t ht => ?_⟩
  cases hp.symm.trans ht
  refine ⟨fun n hn => ?_, fun name hname u hu => ?_⟩
  · cases List.mem_singleton.1 hn
    exact Binary64.isInf_ofInt (by decide +kernel)
  · cases List.mem_singleton.1 hname
    cases hu
    rfl

/-- a length of `1e200` meters -/
def giant : UnitDef Float := ⟨"giant", "x", [], .one, 1e200, Numeric.zero, .imperial⟩

def giants : List (UnitFamily Float) := [⟨"Length", "L", { length := 1 }, [giant]⟩]

/-- **Evaluation does not always end soundly.** Where a length of `1e200` meters is a unit, its square has an infinite
factor, the length over its square has the factor zero, and nothing can be divided by that. -/
theorem evaluateText_unsound : ∃ r : Registry Float, Registry.build giants [] [] [] = .ok r ∧
    (∀ f ∈ giants, ∀ u ∈ f.units, Numeric.IsProper u.factor) ∧
    (∀ text ∈ ["x*x", "x/(x*x)", "x/(x/(x*x))"], DigitsBelow digitLimit text.toList ∧
      ¬ IsSound (evaluateText r false text)) ∧
    (∃ u, evaluateText r false "x*x" = .ok u ∧ Numeric.isFinite u.factor = false) ∧
    (∃ u, evaluateText r false "x/(x*x)" = .ok u ∧ Numeric.isZero u.factor = true) ∧
    evaluateText r false "x/(x/(x*x))" = .error .divisionByZero := by
  have hparse : parse "x*x" = .ok (.mul (.identifier "x") (.identifier "x")) ∧
      parse "x/(x*x)" = .ok (.div (.identifier "x") (.mul (.identifier "x") (.identifier "x"))) ∧
      parse "x/(x/(x*x))" =
        .ok (.div (.identifier "x") (.div (.identifier "x") (.mul (.identifier "x") (.identifier "x")))) := by
    decide +kernel
  let square : Float := Numeric.mul 1e200 1e200
  let rest : Float := Numeric.div 1e200 square
  let r : Registry Float := Registry.folded giants [] [] []
  have hsquare : Numeric.isFinite square = false ∧ Numeric.isZero square = false := by decide +kernel
  have hrest : Numeric.isZero rest = true := by decide +kernel
  have hx : evaluate r false (.identifier "x") = .ok ⟨{ length := 1 }, .one, 1e200, Numeric.zero, some "x"⟩ := rfl
  have hxx : evaluate r false (.mul (.identifier "x") (.identifier "x")) =
      .ok ⟨{ length := 2 }, .one, square, Numeric.zero, none⟩ := rfl
  have hy : evaluate r false (.div (.identifier "x") (.mul (.identifier "x") (.identifier "x"))) =
      .ok ⟨{ length := -1 }, .one, rest, Numeric.zero, none⟩ := by
    rw [evaluate, hx, hxx]
    change (if Numeric.isZero square then _ else _) = _
    rw [hsquare.2]
    rfl
  have hz : evaluate r false (.div (.identifier "x")
      (.div (.identifier "x") (.mul (.identifier "x") (.identifier "x")))) = .error .divisionByZero := by
    rw [evaluate, hx, hy]
    change (if Numeric.isZero rest then _ else _) = _
    rw [hrest]
    rfl
  have htextx : ∃ u, evaluateText r false "x*x" = .ok u ∧ Numeric.isFinite u.factor = false := by
    rw [evaluateText_of_parse hparse.1, hxx]
    exact ⟨_, rfl, hsquare.1⟩
  have htexty : ∃ u, evaluateText r false "x/(x*x)" = .ok u ∧ Numeric.isZero u.factor = true := by
    rw [evaluateText_of_parse hparse.2.1, hy]
    exact ⟨_, rfl, hrest⟩
  have htextz : evaluateText r false "x/(x/(x*x))" = .error .divisionByZero := by
    rw [evaluateText_of_parse hparse.2.2, hz]
    rfl
  refine ⟨r, Registry.build_eq_ok_iff.2 ⟨rfl, rfl, rfl⟩, fun f hf u hu => ?_, fun text htext => ?_, htextx, htexty,
    htextz⟩
  · cases List.mem_singleton.1 hf
    cases List.mem_singleton.1 hu
    exact ⟨by decide +kernel, by decide +kernel⟩
  · have hlength : ∀ text ∈ ["x*x", "x/(x*x)", "x/(x/(x*x))"], text.toList.length ≤ digitLimit := by decide
    refine ⟨fun run hr _ => hr.length_le.trans (hlength text htext), ?_⟩
    simp only [List.mem_cons, List.not_mem_nil, or_false] at htext
    rcases htext with rfl | rfl | rfl
    · obtain ⟨u, hu, hinfinite⟩ := htextx
      rw [hu]
      exact fun hsound => absurd hsound.1 (by simp [hinfinite])
    · obtain ⟨u, hu, hzero⟩ := htexty
      rw [hu]
      exact fun hsound => absurd hsound.2 (by simp [hzero])
    · rw [htextz]
      exact Bool.false_ne_true

end

end Expression

end UnitAlgebra

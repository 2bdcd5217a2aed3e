/-
Divisibility of scales. One scale divides another if its factor goes into that of the other a whole number of times, and
pi not more often than there. That is so exactly if every exponent of the one is at most that of the other. So scales
are a lattice, and the two policies that choose exponent by exponent are its operations: the smaller exponents are those
of the greatest common divisor, the larger ones those of the least common multiple.

Results:
- `divides_iff_le`: divisibility is told by the exponents.
- `divides_iff_of_div`: a quotient of scales that does not overflow shows whether one divides the other.
- `real_le_of_le`: a divisor is not the larger factor.
- `resolve_smallerWins`, `resolve_largerWins`: the two policies are the operations of the lattice.
- `resolve_lattice`: what the policies choose, and the laws that they keep.
-/
import UnitAlgebra.Policy
import UnitAlgebra.Proofs.Numeric.Exact
import UnitAlgebra.Proofs.Scale.Rational

namespace UnitAlgebra

/-! ## The order of exponents -/

namespace Exponent

theorem val_least (a b : Exponent) : (a.least b).val = min a.val b.val := by
  unfold least
  split <;> omega

theorem val_greatest (a b : Exponent) : (a.greatest b).val = max a.val b.val := by
  unfold greatest
  split <;> omega

end Exponent

namespace Scale

/-- the exponents of a scale as integers -/
def exponents (s : Scale) (b : Base) : ℤ := (s.get b).val

theorem exponents_injective : Function.Injective exponents :=
  fun _ _ h => ext_get fun b => Exponent.ext (congrFun h b)

instance : LE Scale := ⟨fun s t => s.exponents ≤ t.exponents⟩

instance : LT Scale := ⟨fun s t => s.exponents < t.exponents⟩

instance : Min Scale := ⟨least⟩

instance : Max Scale := ⟨greatest⟩

theorem exponents_least (s t : Scale) : (s.least t).exponents = s.exponents ⊓ t.exponents := by
  funext b
  simp [exponents, least, Exponent.val_least]

theorem exponents_greatest (s t : Scale) : (s.greatest t).exponents = s.exponents ⊔ t.exponents := by
  funext b
  simp [exponents, greatest, Exponent.val_greatest]

/-- scales with the order of their exponents -/
instance : DistribLattice Scale :=
  exponents_injective.distribLattice exponents Iff.rfl Iff.rfl exponents_greatest exponents_least

/-! ## Divisors -/

/-- the factor of one scale goes into that of another a whole number of times, and pi not more often than there -/
structure Divides (s t : Scale) : Prop where
  whole : ∃ n : ℕ, 0 < n ∧ t.rational = n * s.rational
  pi : s.pi.val ≤ t.pi.val

/-- a product of powers is a natural number exactly if no exponent is negative -/
theorem exists_natCast_iff (a b c : ℤ) : (∃ n : ℕ, 0 < n ∧ regular a b c = n) ↔ 0 ≤ a ∧ 0 ≤ b ∧ 0 ≤ c := by
  constructor
  · rintro ⟨n, -, hn⟩
    obtain ⟨htwo, hthree, hfive⟩ := padicValRat_regular a b c
    rw [hn, padicValRat.of_nat] at htwo hthree hfive
    omega
  · rintro ⟨ha, hb, hc⟩
    lift a to ℕ using ha
    lift b to ℕ using hb
    lift c to ℕ using hc
    exact ⟨_, by positivity, regular_natCast a b c⟩

theorem whole_iff_quotient {s t : Scale} :
    (∃ n : ℕ, 0 < n ∧ t.rational = n * s.rational) ↔ ∃ n : ℕ, 0 < n ∧ t.rational / s.rational = n := by
  refine exists_congr fun n => and_congr_right fun _ => ?_
  rw [div_eq_iff s.rational_pos.ne']

/-- **Divisibility is told by the exponents.** -/
theorem divides_iff_le {s t : Scale} : s.Divides t ↔ s ≤ t := by
  have hparts : s.Divides t ↔
      (∃ n : ℕ, 0 < n ∧ t.rational = n * s.rational) ∧ s.pi.val ≤ t.pi.val := ⟨fun h => ⟨h.1, h.2⟩, fun h => ⟨h.1, h.2⟩⟩
  rw [hparts, whole_iff_quotient, rational_eq, rational_eq, ← regular_sub, exists_natCast_iff]
  constructor
  · rintro ⟨⟨htwo, hthree, hfive⟩, hpi⟩ b
    cases b with
    | two => exact Int.sub_nonneg.1 htwo
    | three => exact Int.sub_nonneg.1 hthree
    | five => exact Int.sub_nonneg.1 hfive
    | pi => exact hpi
  · intro h
    exact ⟨⟨Int.sub_nonneg.2 (h .two), Int.sub_nonneg.2 (h .three), Int.sub_nonneg.2 (h .five)⟩, h .pi⟩

/-- A quotient of scales that does not overflow shows whether one divides the other. -/
theorem divides_iff_of_div {s t u : Scale} (h : t.div s = .ok u) :
    s.Divides t ↔ (∃ n : ℕ, 0 < n ∧ u.rational = n) ∧ 0 ≤ u.pi.val := by
  obtain ⟨hrational, hpi⟩ : u.rational = t.rational / s.rational ∧ u.pi.val = t.pi.val - s.pi.val := by
    have hencodes := encodes_div t s
    rwa [h] at hencodes
  rw [hrational, hpi, Int.sub_nonneg, ← whole_iff_quotient]
  exact ⟨fun h => ⟨h.1, h.2⟩, fun h => ⟨h.1, h.2⟩⟩

theorem real_eq (s : Scale) : s.real = (s.rational : ℝ) * Real.pi ^ s.pi.val := by
  rw [rational_eq, regular, real]
  push_cast
  simp only [Base.all, List.map_cons, List.map_nil, List.prod_cons, List.prod_nil, Base.real, get]
  ring

/-- A divisor is not the larger factor. -/
theorem real_le_of_le {s t : Scale} (h : s ≤ t) : s.real ≤ t.real := by
  obtain ⟨⟨n, hn, hrational⟩, hpi⟩ := divides_iff_le.2 h
  have hfactor : (s.rational : ℝ) ≤ t.rational := by
    rw [hrational]
    exact_mod_cast le_mul_of_one_le_left s.rational_pos.le (by exact_mod_cast hn)
  have hpower : Real.pi ^ s.pi.val ≤ Real.pi ^ t.pi.val :=
    zpow_le_zpow_right₀ (by linarith [Real.pi_gt_three]) hpi
  rw [real_eq, real_eq]
  exact mul_le_mul hfactor hpower (zpow_pos Real.pi_pos _).le (by exact_mod_cast t.rational_pos.le)

end Scale

/-! ## Policies -/

namespace ScalePolicy

open Scale (Divides divides_iff_le divides_iff_of_div real_le_of_le)

variable {operation : Option Operation}

theorem resolve?_smallerWins (s t : Scale) : smallerWins.resolve? s t = some (s ⊓ t) := by
  unfold resolve?
  split
  · next h => rw [h, inf_idem]
  · rfl

theorem resolve?_largerWins (s t : Scale) : largerWins.resolve? s t = some (s ⊔ t) := by
  unfold resolve?
  split
  · next h => rw [h, sup_idem]
  · rfl

theorem resolve_smallerWins (s t : Scale) : smallerWins.resolve s t operation = .ok (s ⊓ t) := by
  rw [resolve, resolve?_smallerWins]

theorem resolve_largerWins (s t : Scale) : largerWins.resolve s t operation = .ok (s ⊔ t) := by
  rw [resolve, resolve?_largerWins]

/-- **The policies of smaller and larger exponents are the operations of a lattice.** The smaller exponents are a scale
that divides both, and that is divided by every scale that divides both; the larger exponents are a scale that both
divide, and that divides every scale that both divide. What divides what is a matter of the factors, which a quotient of
scales shows wherever it is in range. Neither policy is particular about order or grouping, nor do they undo each other,
and their factors are on either side of the two that they choose from. -/
theorem resolve_lattice (operation : Option Operation) (a b c : Scale) :
    (∀ s t u : Scale, t.div s = .ok u → (s.Divides t ↔ (∃ n : ℕ, 0 < n ∧ u.rational = n) ∧ 0 ≤ u.pi.val)) ∧
    (∃ s, smallerWins.resolve a b operation = .ok s ∧ s.Divides a ∧ s.Divides b ∧
      (∀ t : Scale, t.Divides a → t.Divides b → t.Divides s) ∧ s.real ≤ a.real ∧ s.real ≤ b.real) ∧
    (∃ s, largerWins.resolve a b operation = .ok s ∧ a.Divides s ∧ b.Divides s ∧
      (∀ t : Scale, a.Divides t → b.Divides t → s.Divides t) ∧ a.real ≤ s.real ∧ b.real ≤ s.real) ∧
    (∀ p, p = smallerWins ∨ p = largerWins →
      p.resolve a b operation = p.resolve b a operation ∧
      (do p.resolve (← p.resolve a b operation) c operation) = (do p.resolve a (← p.resolve b c operation) operation) ∧
      p.resolve a a operation = .ok a) ∧
    (do largerWins.resolve a (← smallerWins.resolve a b operation) operation) = .ok a ∧
    (do smallerWins.resolve a (← largerWins.resolve a b operation) operation) = .ok a := by
  simp only [divides_iff_le]
  refine ⟨fun s t u h => divides_iff_le.symm.trans (divides_iff_of_div h),
    ⟨a ⊓ b, resolve_smallerWins a b, inf_le_left, inf_le_right, fun t => le_inf, real_le_of_le inf_le_left,
      real_le_of_le inf_le_right⟩,
    ⟨a ⊔ b, resolve_largerWins a b, le_sup_left, le_sup_right, fun t => sup_le, real_le_of_le le_sup_left,
      real_le_of_le le_sup_right⟩, ?_, ?_, ?_⟩
  · rintro p (rfl | rfl)
    · simp only [resolve_smallerWins]
      exact ⟨congrArg Except.ok (inf_comm a b), congrArg Except.ok (inf_assoc a b c), congrArg Except.ok (inf_idem a)⟩
    · simp only [resolve_largerWins]
      exact ⟨congrArg Except.ok (sup_comm a b), congrArg Except.ok (sup_assoc a b c), congrArg Except.ok (sup_idem a)⟩
  · rw [resolve_smallerWins]
    exact (resolve_largerWins a (a ⊓ b)).trans (congrArg Except.ok sup_inf_self)
  · rw [resolve_largerWins]
    exact (resolve_smallerWins a (a ⊔ b)).trans (congrArg Except.ok inf_sup_self)

/-- a minute and a degree, and what divides them both -/
theorem resolve_lattice_minute :
    let minute : Scale := ⟨2, 1, 1, 0⟩
    let degree : Scale := ⟨-2, -2, -1, 1⟩
    let quarter : Scale := ⟨-2, -3, -1, 0⟩
    minute.div quarter = .ok ⟨4, 4, 2, 0⟩ ∧ degree.div quarter = .ok ⟨0, 1, 0, 1⟩ ∧
      smallerWins.resolve minute degree none = .ok ⟨-2, -2, -1, 0⟩ ∧ quarter.Divides ⟨-2, -2, -1, 0⟩ ∧
      smallerWins.resolve degree minute none = .ok ⟨-2, -2, -1, 0⟩ := by
  intro minute degree quarter
  obtain ⟨hquotient, ⟨s, hs, -, -, hgreatest, -, -⟩, -, hlaws, -, -⟩ := resolve_lattice none minute degree .one
  have hminute : minute.div quarter = .ok ⟨4, 4, 2, 0⟩ := by decide
  have hdegree : degree.div quarter = .ok ⟨0, 1, 0, 1⟩ := by decide
  have hchosen : smallerWins.resolve minute degree none = .ok ⟨-2, -2, -1, 0⟩ := by decide
  obtain rfl : ⟨-2, -2, -1, 0⟩ = s := Except.ok.inj (hchosen.symm.trans hs)
  have hwhole (s : Scale) (hs : 0 ≤ s.two.val ∧ 0 ≤ s.three.val ∧ 0 ≤ s.five.val) :
      ∃ n : ℕ, 0 < n ∧ s.rational = n := by
    rw [Scale.rational_eq]
    exact (Scale.exists_natCast_iff _ _ _).2 hs
  exact ⟨hminute, hdegree, hchosen, hgreatest quarter ((hquotient _ _ _ hminute).2 ⟨hwhole _ (by decide), by decide⟩)
    ((hquotient _ _ _ hdegree).2 ⟨hwhole _ (by decide), by decide⟩),
    (hlaws smallerWins (Or.inl rfl)).1.symm.trans hchosen⟩

end ScalePolicy

end UnitAlgebra

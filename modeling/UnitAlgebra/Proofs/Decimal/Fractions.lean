/-
Fractions that numbers are read as. A candidate is taken only if it is nearer than all before it, and candidates come
by their denominators; one that could be reduced would come after its reduced form, so what is taken is in lowest terms.

Results:
- `error_candidate_le`: the candidate for a denominator is the nearest fraction with it.
- `nearest_nearestFraction`: the fraction that is taken is in lowest terms, and nearest.
- `Numeric.Reduced`: numbers that are read as fractions in lowest terms only; `reduced_float`, `reduced_real`.
-/
import Mathlib
import UnitAlgebra.Proofs.Decimal.Shortest
import UnitAlgebra.Proofs.Numeric.Exact

namespace UnitAlgebra

namespace Binary64

/-! ## Candidates -/

/-- how far a fraction is from a quotient -/
def error (num den : Nat) (p : Nat × Nat) : ℚ := |(p.1 / p.2 : ℚ) - num / den|

/-- the fraction with a denominator that a quotient is rounded to -/
def candidate (num den d : Nat) : Nat × Nat := (roundHalfEven (num * d) den, d)

variable {num den : Nat}

/-- distances are compared without division -/
theorem distance_lt_iff (hden : den ≠ 0) {p q : Nat × Nat} (hp : p.2 ≠ 0) (hq : q.2 ≠ 0) :
    (distance num den q.1 q.2).1 * (distance num den p.1 p.2).2 <
        (distance num den p.1 p.2).1 * (distance num den q.1 q.2).2 ↔
      error num den q < error num den p := by
  have herror : ∀ {r : Nat × Nat}, r.2 ≠ 0 →
      error num den r = (distance num den r.1 r.2).1 / (distance num den r.1 r.2).2 := by
    intro r hr
    have hd : (den : ℚ) ≠ 0 := by exact_mod_cast hden
    have hr' : (r.2 : ℚ) ≠ 0 := by exact_mod_cast hr
    have hpos : (0 : ℚ) < den * r.2 := by positivity
    have hgap : (r.1 / r.2 : ℚ) - num / den = (r.1 * den - num * r.2) / (den * r.2) := by
      field_simp
    rw [error, hgap, abs_div, abs_of_pos hpos]
    simp only [distance]
    split
    · next hlt =>
      have hle : (num * r.2 : ℚ) ≤ r.1 * den := by exact_mod_cast hlt.le
      rw [Nat.cast_sub hlt.le, abs_of_nonneg (sub_nonneg.2 hle)]
      push_cast
      rfl
    · next hge =>
      have hle : (r.1 * den : ℚ) ≤ num * r.2 := by exact_mod_cast not_lt.1 hge
      rw [Nat.cast_sub (not_lt.1 hge), abs_of_nonpos (sub_nonpos.2 hle)]
      push_cast
      ring
  have hpos : ∀ {r : Nat × Nat}, r.2 ≠ 0 → (0 : ℚ) < (distance num den r.1 r.2).2 := by
    intro r hr
    have : (distance num den r.1 r.2).2 ≠ 0 := Nat.mul_ne_zero hden hr
    exact_mod_cast Nat.pos_of_ne_zero this
  rw [herror hp, herror hq, div_lt_div_iff₀ (hpos hq) (hpos hp)]
  exact_mod_cast Iff.rfl

theorem roundHalfEven_nearest (num : Nat) (hden : den ≠ 0) (n : Nat) :
    |(roundHalfEven num den : ℚ) - num / den| ≤ |(n : ℚ) - num / den| := by
  by_cases hn : |(num / den : ℚ) - n| < 1 / 2
  · rw [roundHalfEven_of_near hden hn]
  · calc |(roundHalfEven num den : ℚ) - num / den| ≤ 1 / 2 := roundHalfEven_near num hden
      _ ≤ |(num / den : ℚ) - n| := not_lt.1 hn
      _ = |(n : ℚ) - num / den| := abs_sub_comm _ _

/-- The candidate for a denominator is the nearest fraction with it. -/
theorem error_candidate_le (hden : den ≠ 0) {n d : Nat} (hd : d ≠ 0) :
    error num den (candidate num den d) ≤ error num den (n, d) := by
  have hpos : (0 : ℚ) < d := by exact_mod_cast Nat.pos_of_ne_zero hd
  have hden' : (den : ℚ) ≠ 0 := by exact_mod_cast hden
  have hscaled : ∀ k : Nat, error num den (k, d) = |(k : ℚ) - (num * d : Nat) / den| / d := by
    intro k
    rw [error, ← abs_of_pos hpos, ← abs_div, abs_of_pos hpos]
    congr 1
    push_cast
    field_simp
  rw [candidate, hscaled, hscaled]
  exact div_le_div_of_nonneg_right (roundHalfEven_nearest (num * d) hden n) hpos.le

/-! ## The nearest fraction -/

/-- the nearest of the fractions with denominators up to a bound, in lowest terms -/
structure IsNearest (num den bound : Nat) (p : Nat × Nat) : Prop where
  denominator : p.2 ≠ 0
  coprime : p.1.Coprime p.2
  nearest : ∀ n d, d ≠ 0 → d ≤ bound → error num den p ≤ error num den (n, d)

/-- the choice between a fraction and the next candidate -/
def nearer (num den : Nat) (best next : Nat × Nat) : Nat × Nat :=
  if (distance num den next.1 next.2).1 * (distance num den best.1 best.2).2 <
      (distance num den best.1 best.2).1 * (distance num den next.1 next.2).2 then next else best

/-- a fraction that is nearer than all with smaller denominators is in lowest terms -/
theorem coprime_of_error_lt {n d : Nat} (hd : d ≠ 0)
    (h : ∀ n' d', d' ≠ 0 → d' < d → error num den (n, d) < error num den (n', d')) : n.Coprime d := by
  by_contra hcommon
  obtain ⟨g, hg⟩ : ∃ g, n.gcd d = g := ⟨_, rfl⟩
  obtain ⟨a, ha⟩ : g ∣ n := hg ▸ Nat.gcd_dvd_left n d
  obtain ⟨b, hb⟩ : g ∣ d := hg ▸ Nat.gcd_dvd_right n d
  have hg0 : g ≠ 0 := by
    rintro rfl
    exact hd (by simpa using hb)
  have hb0 : b ≠ 0 := by
    rintro rfl
    exact hd (by simpa using hb)
  have hone : g ≠ 1 := fun h1 => hcommon (hg.trans h1)
  have hlt : b < d := by
    rw [hb]
    exact lt_mul_of_one_lt_left (Nat.pos_of_ne_zero hb0) (by omega)
  -- the reduced fraction is the same number
  have hsame : error num den (n, d) = error num den (a, b) := by
    have hg0' : (g : ℚ) ≠ 0 := by exact_mod_cast hg0
    simp only [error, ha, hb, Nat.cast_mul, mul_div_mul_left _ _ hg0']
  exact (h a b hb0 hlt).ne hsame

theorem IsNearest.next (hden : den ≠ 0) {bound : Nat} {p : Nat × Nat} (h : IsNearest num den bound p) :
    IsNearest num den (bound + 1) (nearer num den p (candidate num den (bound + 1))) := by
  have hcandidate : (candidate num den (bound + 1)).2 ≠ 0 := Nat.succ_ne_zero bound
  unfold nearer
  split
  · next hlt =>
    rw [distance_lt_iff hden h.denominator hcandidate] at hlt
    have hbelow : ∀ n d, d ≠ 0 → d < bound + 1 →
        error num den (candidate num den (bound + 1)) < error num den (n, d) :=
      fun n d hd hle => hlt.trans_le (h.nearest n d hd (Nat.le_of_lt_succ hle))
    refine ⟨hcandidate, coprime_of_error_lt hcandidate hbelow, fun n d hd hle => ?_⟩
    rcases Nat.lt_or_eq_of_le hle with hless | rfl
    · exact (hbelow n d hd hless).le
    · exact error_candidate_le hden hd
  · next hge =>
    rw [distance_lt_iff hden h.denominator hcandidate, not_lt] at hge
    refine ⟨h.denominator, h.coprime, fun n d hd hle => ?_⟩
    rcases Nat.lt_or_eq_of_le hle with hless | rfl
    · exact h.nearest n d hd (Nat.le_of_lt_succ hless)
    · exact hge.trans (error_candidate_le hden hd)

/-- **The fraction that is taken** is in lowest terms, and nearest among those up to the limit. -/
theorem nearest_nearestFraction (num : Nat) (hden : den ≠ 0) (limit : Nat) :
    IsNearest num den limit (nearestFraction limit num den) := by
  have hfold : ∀ k, nearestFraction k num den =
      ((List.range k).map fun k => candidate num den (k + 1)).foldl (nearer num den) (roundHalfEven num den, 1) :=
    fun _ => rfl
  rw [hfold]
  -- one denominator after the other
  induction limit with
  | zero => exact ⟨one_ne_zero, Nat.coprime_one_right _, fun _ d hd hle => absurd (Nat.le_zero.1 hle) hd⟩
  | succ limit ih =>
    rw [List.range_succ, List.map_append, List.foldl_append]
    exact ih.next hden

end Binary64

/-! ## Fractions of numbers -/

/-- numbers that are read as fractions in lowest terms -/
def Numeric.Reduced (κ : Type) [Numeric κ] : Prop :=
  ∀ {limit : Nat} {x : κ} {n : Int} {d : Nat}, fraction? limit x = some (n, d) → d ≠ 0 ∧ n.natAbs.Coprime d

theorem reduced_float : Numeric.Reduced Float := by
  intro limit x n d h
  have hden : (Binary64.quotient x).2 ≠ 0 := (Decimal.quotient_value _).1
  have hnearest := Binary64.nearest_nearestFraction (Binary64.quotient x).1 hden limit
  change (if _ then some _ else none) = some (n, d) at h
  split at h
  · obtain ⟨rfl, rfl⟩ := Prod.mk.inj (Option.some.inj h)
    refine ⟨hnearest.denominator, ?_⟩
    split
    · rw [Int.natAbs_neg]
      exact hnearest.coprime
    · exact hnearest.coprime
  · cases h

theorem fraction?_real {limit : Nat} {x : ℝ} {n : Int} {d : Nat} (h : Numeric.fraction? limit x = some (n, d)) :
    d ≠ 0 ∧ n.natAbs.Coprime d ∧ x = n / d := by
  simp only [Numeric.fraction?] at h
  split at h
  · next hq =>
    obtain ⟨rfl, rfl⟩ := Prod.mk.inj (Option.some.inj h)
    refine ⟨hq.choose.den_nz, hq.choose.reduced, ?_⟩
    calc x = (hq.choose : ℝ) := hq.choose_spec.2.symm
      _ = hq.choose.num / hq.choose.den := by exact_mod_cast (Rat.num_div_den hq.choose).symm
  · cases h

theorem reduced_real : Numeric.Reduced ℝ := fun h => ⟨(fraction?_real h).1, (fraction?_real h).2.1⟩

end UnitAlgebra

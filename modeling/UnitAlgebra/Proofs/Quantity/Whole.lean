/-
Whole numbers and truth values among operands. Where no operand holds numbers, functions compute on whole numbers of 64
bits, which wrap around, or on truth values, whose sum is one of them again. Short of that they give what they give on
the numbers that their cells stand for.

Results:
- `wrapped_modEq`, `wrapped_congr`: whole numbers wrap around by multiples of `2^64`.
- `toNumber_cast`: a cell that is taken to a higher kind stands for the same number.
- `floor_quotient`, `towardZero_quotient`: quotients of whole numbers.
- `onCells_unwrapped`: functions of cells, in any kind, agree with functions of numbers.
-/
import UnitAlgebra.Proofs.Quantity.Homogeneous

namespace UnitAlgebra

/-! ## Kinds -/

namespace Kind

theorem rank_join (a b : Kind) : (a.join b).rank = max a.rank b.rank := by
  unfold join
  split <;> omega

theorem rank_le_joinAll {k : Kind} {ks : List Kind} (h : k ∈ ks) : k.rank ≤ (joinAll ks).rank := by
  have all : ∀ (ks : List Kind) (a : Kind), a.rank ≤ (ks.foldl join a).rank ∧
      ∀ k ∈ ks, k.rank ≤ (ks.foldl join a).rank := by
    intro ks
    induction ks with
    | nil => exact fun a => ⟨Nat.le_refl _, by simp⟩
    | cons b ks ih =>
      intro a
      obtain ⟨hstart, hrest⟩ := ih (a.join b)
      rw [rank_join] at hstart
      refine ⟨by rw [List.foldl_cons]; omega, fun k hk => ?_⟩
      rw [List.foldl_cons]
      rcases List.mem_cons.1 hk with rfl | hk
      · omega
      · exact hrest k hk
  cases ks with
  | nil => cases h
  | cons a ks =>
    rcases List.mem_cons.1 h with rfl | h
    · exact (all ks k).1
    · exact (all ks a).2 k h

theorem eq_real_of_le {k : Kind} (h : Kind.real.rank ≤ k.rank) : k = .real := by
  cases k
  · exact absurd h (by decide)
  · exact absurd h (by decide)
  · rfl

end Kind

namespace Elementwise

theorem computing_real {f : Elementwise} (hf : f.isPhysical = true) : f.computing .real = some .real := by
  cases f <;> first | rfl | cases hf

theorem rank_le_computing {f : Elementwise} (hf : f.isPhysical = true) {k₀ k : Kind} (h : f.computing k₀ = some k) :
    k₀.rank ≤ k.rank := by
  cases f <;> first | (cases hf; done) | skip
  all_goals cases k₀ <;> cases h <;> decide

/-- no truth value but of functions that take truth values -/
theorem eq_flag_of_computing {f : Elementwise} {k₀ : Kind} (h : f.computing k₀ = some .flag) (hf : f.isPhysical = true) :
    f.computing .flag = some .flag := by
  cases f <;> first | (cases hf; done) | skip
  all_goals cases k₀ <;> first | rfl | cases h

end Elementwise

/-! ## Whole numbers of 64 bits -/

theorem wrapped_modEq (n : ℤ) : wrapped n ≡ n [ZMOD 1 <<< 64] := Int.bmod_emod

theorem wrapped_congr {m n : ℤ} (h : m ≡ n [ZMOD 1 <<< 64]) : wrapped m = wrapped n := by
  unfold wrapped
  rw [← Int.emod_bmod m, h, Int.emod_bmod]

/-! ## Quotients of whole numbers -/

/-- The floor of a quotient. -/
theorem floor_quotient (m n : ℤ) : ⌊(m : ℝ) / n⌋ = Int.fdiv m n := by
  have hpos : ∀ m n : ℤ, 0 ≤ n → ⌊(m : ℝ) / n⌋ = Int.fdiv m n := by
    intro m n hn
    rw [Int.floor_div_cast_of_nonneg hn, Int.floor_intCast, Int.fdiv_eq_ediv_of_nonneg _ hn]
  rcases le_total 0 n with hn | hn
  · exact hpos m n hn
  · have h := hpos (-m) (-n) (by omega)
    rwa [Int.cast_neg, Int.cast_neg, neg_div_neg_eq, Int.neg_fdiv_neg] at h

/-- A quotient without its fraction. -/
theorem towardZero_quotient (m n : ℤ) : towardZero ((m : ℝ) / n) = Int.tdiv m n := by
  have hpos : ∀ m n : ℤ, 0 ≤ m → 0 ≤ n → ⌊(m : ℝ) / n⌋ = Int.tdiv m n := by
    intro m n hm hn
    rw [floor_quotient, Int.fdiv_eq_ediv_of_nonneg _ hn, Int.tdiv_eq_ediv_of_nonneg hm]
  -- a quotient that is not negative
  have hsame : ∀ m n : ℤ, 0 ≤ m → 0 ≤ n → towardZero ((m : ℝ) / n) = Int.tdiv m n := by
    intro m n hm hn
    have hq : (0 : ℝ) ≤ m / n := div_nonneg (Int.cast_nonneg hm) (Int.cast_nonneg hn)
    rw [towardZero, if_pos hq, hpos m n hm hn]
  -- a quotient that is not positive
  have hdiffer : ∀ m n : ℤ, 0 ≤ m → 0 ≤ n → towardZero (-((m : ℝ) / n)) = -Int.tdiv m n := by
    intro m n hm hn
    have hq : (0 : ℝ) ≤ m / n := div_nonneg (Int.cast_nonneg hm) (Int.cast_nonneg hn)
    rcases hq.eq_or_lt with hzero | hlt
    · rw [← hpos m n hm hn, ← hzero]
      simp [towardZero]
    · rw [towardZero, if_neg (by linarith), Int.ceil_neg, hpos m n hm hn]
  rcases le_total 0 m with hm | hm <;> rcases le_total 0 n with hn | hn
  · exact hsame m n hm hn
  · have h := hdiffer m (-n) hm (by omega)
    rwa [Int.cast_neg, div_neg, neg_neg, Int.tdiv_neg, neg_neg] at h
  · have h := hdiffer (-m) n (by omega) hn
    rwa [Int.cast_neg, neg_div, neg_neg, Int.neg_tdiv, neg_neg] at h
  · have h := hsame (-m) (-n) (by omega) (by omega)
    rwa [Int.cast_neg, Int.cast_neg, neg_div_neg_eq, Int.neg_tdiv_neg] at h

/-! ## Cells -/

variable [Numeric ℝ] [Numeric.Exact]

theorem Cell.toNumber_flag (b : Bool) : (Cell.flag b : Cell ℝ).toNumber = if b then 1 else 0 := by
  cases b
  · exact Numeric.Exact.zero
  · exact Numeric.Exact.one

/-- A cell that is taken to a higher kind stands for the same number. -/
theorem Cell.toNumber_cast {k : Kind} {c : Cell ℝ} (h : c.kind.rank ≤ k.rank) : (c.cast k).toNumber = c.toNumber := by
  cases k with
  | real => exact toNumber_cast_real c
  | integer =>
    cases c with
    | flag b =>
      change (Cell.integer (if b then 1 else 0) : Cell ℝ).toNumber = _
      rw [toNumber_integer, toNumber_flag]
      cases b <;> simp
    | integer n => rfl
    | real x => exact absurd h (by simp [Cell.kind, Kind.rank])
  | flag =>
    cases c with
    | flag b => rfl
    | integer n => exact absurd h (by simp [Cell.kind, Kind.rank])
    | real x => exact absurd h (by simp [Cell.kind, Kind.rank])

namespace Elementwise

/-- no whole number wraps around, and no two truth values count as two -/
def Unwrapped (f : Elementwise) (cs : List (Cell ℝ)) : Prop :=
  match f, cs with
  | negative, [.integer n] => wrappedAs n (-n) = -n
  | absolute, [.integer n] => wrappedAs n n.natAbs = n.natAbs
  | add, [.integer m, .integer n] => wrapped (m + n) = m + n
  | subtract, [.integer m, .integer n] => wrapped (m - n) = m - n
  | multiply, [.integer m, .integer n] => wrapped (m * n) = m * n
  | add, [.flag a, .flag b] => ¬ (a = true ∧ b = true)
  | _, _ => True

/-- two results, of one cell each, that stand for one number -/
abbrev Agree (cs ds : List (Cell ℝ)) : Prop := OneCell cs ds 1

omit [Numeric.Exact] in
theorem agree_of_eq {c d : Cell ℝ} (h : d.toNumber = c.toNumber) : Agree [c] [d] := ⟨c, d, rfl, rfl, by rw [h, mul_one]⟩

theorem agree_integer {n : ℤ} {x : ℝ} (h : x = n) : Agree [.integer n] [.real x] :=
  agree_of_eq (by rw [Cell.toNumber_integer]; exact h)

theorem agree_flag {b : Bool} {x : ℝ} (h : x = if b then 1 else 0) : Agree [.flag b] [.real x] :=
  agree_of_eq (by rw [Cell.toNumber_flag]; exact h)

omit [Numeric.Exact] in
theorem agree_verdict {b c : Bool} (h : (c = true) ↔ (b = true)) : Agree [.flag b] [.flag c] :=
  agree_of_eq (by rw [Bool.eq_iff_iff.2 h])

/-- a whole number beyond the range of cells has what its number has -/
theorem onWide_agrees {f : Elementwise} (hf : f.isPhysical = true) {n k : ℤ} (h : f.onWide n = .ok k) :
    Agree [.integer k] (f.onNumber (n : ℝ)) := by
  cases f <;> first | (cases hf; done) | (cases h; done) | skip
  case negative =>
    cases h
    refine agree_integer ?_
    rw [Numeric.Exact.neg, Int.cast_neg]
  case positive =>
    cases h
    exact agree_integer rfl
  case absolute =>
    cases h
    refine agree_integer ?_
    rw [Numeric.Exact.abs, Int.natCast_natAbs, Int.cast_abs]
  case sign =>
    cases h
    refine agree_integer ?_
    unfold signOf
    simp only [Numeric.Exact.lt, Numeric.Exact.zero, Numeric.isZero_iff, Numeric.Exact.one, Numeric.Exact.neg,
      Int.cast_pos, Int.cast_lt_zero, Int.cast_eq_zero]
    rcases lt_trichotomy n 0 with h | h | h
    · rw [if_neg (by omega), if_pos h, Int.sign_eq_neg_one_of_neg h]
      simp
    · subst h
      simp
    · rw [if_pos h, Int.sign_eq_one_of_pos h]
      simp

theorem onInteger_agrees {f : Elementwise} (hf : f.isPhysical = true) (hn : f.arity = 1) {n : ℤ}
    (hu : f.Unwrapped [.integer n]) : Agree (f.onInteger n) (f.onNumber (n : ℝ)) := by
  have hexact : ∃ k, f.onWide n = .ok k ∧ f.onInteger n = [(.integer k : Cell ℝ)] := by
    cases f <;> first | (cases hf; done) | (cases hn; done) | skip
    case negative => exact ⟨_, rfl, congrArg (fun k => [Cell.integer k]) hu⟩
    case positive => exact ⟨_, rfl, rfl⟩
    case absolute => exact ⟨_, rfl, congrArg (fun k => [Cell.integer k]) hu⟩
    case sign => exact ⟨_, rfl, rfl⟩
  obtain ⟨k, hwide, hk⟩ := hexact
  rw [hk]
  exact onWide_agrees hf hwide

theorem onIntegers_agrees {f : Elementwise} (hf : f.isPhysical = true) (hn : f.arity = 2) {m n : ℤ}
    (hd : f ≠ divide) (hu : f.Unwrapped [.integer m, .integer n]) :
    ∃ out, (f.onIntegers m n : Outcome (List (Cell ℝ))) = .ok out ∧ Agree out (f.onNumbers (m : ℝ) (n : ℝ)) := by
  cases f <;> first | (cases hf; done) | (cases hn; done) | (exact absurd rfl hd) | skip
  case add =>
    refine ⟨_, rfl, agree_integer ?_⟩
    rw [show wrapped (m + n) = m + n from hu, Numeric.Exact.add, Int.cast_add]
  case subtract =>
    refine ⟨_, rfl, agree_integer ?_⟩
    rw [show wrapped (m - n) = m - n from hu, Numeric.Exact.sub, Int.cast_sub]
  case multiply =>
    refine ⟨_, rfl, agree_integer ?_⟩
    rw [show wrapped (m * n) = m * n from hu, Numeric.Exact.mul, Int.cast_mul]
  case remainder =>
    refine ⟨_, rfl, agree_integer ?_⟩
    rw [Numeric.Exact.remainder, floor_quotient, Int.fmod_def]
    split_ifs <;> simp_all
  case fmod =>
    refine ⟨_, rfl, agree_integer ?_⟩
    rw [Numeric.Exact.fmod, towardZero_quotient, Int.tmod_def]
    split_ifs <;> simp_all
  case maximum =>
    refine ⟨_, rfl, agree_integer ?_⟩
    simp only [larger, Numeric.Exact.isNaN, Bool.or_false, Numeric.Exact.le, Int.cast_le]
    rw [max_def', apply_ite Int.cast]
  case minimum =>
    refine ⟨_, rfl, agree_integer ?_⟩
    simp only [smaller, Numeric.Exact.isNaN, Bool.or_false, Numeric.Exact.le, Int.cast_le]
    rw [min_def, apply_ite Int.cast]
  case fmax =>
    refine ⟨_, rfl, agree_integer ?_⟩
    simp only [largerNumber, Numeric.Exact.isNaN, Bool.or_false, Numeric.Exact.le, Int.cast_le]
    rw [max_def', apply_ite Int.cast]
  case fmin =>
    refine ⟨_, rfl, agree_integer ?_⟩
    simp only [smallerNumber, Numeric.Exact.isNaN, Bool.or_false, Numeric.Exact.le, Int.cast_le]
    rw [min_def, apply_ite Int.cast]
  case notEqual =>
    refine ⟨_, rfl, agree_verdict ?_⟩
    simp only [Bool.not_eq_true', ← Bool.not_eq_true, Numeric.Exact.eq, Int.cast_inj, decide_eq_true_eq]
  all_goals
    refine ⟨_, rfl, agree_verdict ?_⟩
    simp [Numeric.Exact.lt, Numeric.Exact.le, Numeric.Exact.eq]

theorem onFlag_agrees {f : Elementwise} (hf : f.isPhysical = true) (hn : f.arity = 1)
    (hk : f.computing .flag = some .flag) (b : Bool) :
    Agree (f.onFlag b) (f.onNumber (if b then (1 : ℝ) else 0)) := by
  cases f <;> first | (cases hf; done) | (cases hn; done) | (cases hk; done) | skip
  case absolute =>
    refine agree_flag ?_
    rw [Numeric.Exact.abs]
    cases b <;> simp

theorem onFlags_agrees {f : Elementwise} (hf : f.isPhysical = true) (hn : f.arity = 2)
    (hk : f.computing .flag = some .flag) {a b : Bool} (hu : f.Unwrapped [.flag a, .flag b]) :
    Agree (f.onFlags a b) (f.onNumbers (if a then (1 : ℝ) else 0) (if b then 1 else 0)) := by
  cases f <;> first | (cases hf; done) | (cases hn; done) | (cases hk; done) | skip
  case add =>
    have hsum : ¬ (a = true ∧ b = true) := hu
    refine agree_flag ?_
    rw [Numeric.Exact.add]
    cases a <;> cases b <;> simp_all
  case multiply =>
    refine agree_flag ?_
    rw [Numeric.Exact.mul]
    cases a <;> cases b <;> simp
  case maximum =>
    refine agree_flag ?_
    simp only [larger, Numeric.Exact.isNaN, Bool.or_false, Numeric.Exact.le]
    cases a <;> cases b <;> simp
  case minimum =>
    refine agree_flag ?_
    simp only [smaller, Numeric.Exact.isNaN, Bool.or_false, Numeric.Exact.le]
    cases a <;> cases b <;> simp
  case fmax =>
    refine agree_flag ?_
    simp only [largerNumber, Numeric.Exact.isNaN, Bool.or_false, Numeric.Exact.le]
    cases a <;> cases b <;> simp
  case fmin =>
    refine agree_flag ?_
    simp only [smallerNumber, Numeric.Exact.isNaN, Bool.or_false, Numeric.Exact.le]
    cases a <;> cases b <;> simp
  all_goals
    refine agree_verdict ?_
    simp only [Bool.not_eq_true', ← Bool.not_eq_true, Numeric.Exact.lt, Numeric.Exact.le, Numeric.Exact.eq]
    cases a <;> cases b <;> simp

/-! ## Rows -/

omit [Numeric ℝ] [Numeric.Exact] in
theorem weight_one (f : Elementwise) : f.weight 1 = 1 := ite_self 1

theorem onNumber_agrees {f : Elementwise} (hf : f.isPhysical = true) (hn : f.arity = 1) (x : ℝ) :
    Agree (f.onNumber x) (f.onNumber x) := by
  have h := onNumber_weighs one_pos x hf hn
  rwa [weight_one, mul_one] at h

omit [Numeric.Exact] in
theorem onNumbers_agrees {f : Elementwise} (hf : f.isPhysical = true) (hn : f.arity = 2) (x y : ℝ) :
    Agree (f.onNumbers x y) (f.onNumbers x y) := by
  cases f <;> first | (cases hf; done) | (cases hn; done) | exact agree_of_eq rfl

theorem exists_cast {k : Kind} {c : Cell ℝ} (h : c.kind.rank ≤ k.rank) :
    ∃ d, c.cast k = d ∧ d.kind = k ∧ c.toNumber = d.toNumber :=
  ⟨_, rfl, Cell.kind_cast k c, (Cell.toNumber_cast h).symm⟩

/-- **Functions of cells, in any kind, agree with functions of numbers**, unless whole numbers wrap around. -/
theorem onCells_unwrapped {f : Elementwise} (hf : f.isPhysical = true) {k₀ k : Kind} (hk : f.computing k₀ = some k)
    {cs : List (Cell ℝ)} (hn : cs.length = f.arity) (hcs : ∀ c ∈ cs, c.kind.rank ≤ k.rank)
    (hu : f.Unwrapped (cs.map (Cell.cast k))) {out : List (Cell ℝ)} (h : f.onCells k cs = .ok out) :
    ∃ out', f.onCells .real cs = .ok out' ∧ Agree out out' := by
  have harity : f.arity = 1 ∨ f.arity = 2 := by cases f <;> simp [arity]
  rcases harity with h1 | h2
  · obtain ⟨c, rfl⟩ := List.length_eq_one_iff.1 (hn.trans h1)
    obtain ⟨d, hcast, hkind, hnumber⟩ := exists_cast (hcs c (List.mem_singleton_self c))
    refine ⟨_, onCells_one c, ?_⟩
    simp only [onCells, List.map_cons, List.map_nil, hcast] at h hu
    rw [hnumber]
    cases d with
    | real x =>
      cases h
      exact onNumber_agrees hf h1 x
    | integer n =>
      cases h
      rw [Cell.toNumber_integer]
      exact onInteger_agrees hf h1 hu
    | flag b =>
      cases h
      rw [Cell.toNumber_flag]
      exact onFlag_agrees hf h1 (eq_flag_of_computing (hkind ▸ hk) hf) b
  · obtain ⟨c, c', rfl⟩ := List.length_eq_two.1 (hn.trans h2)
    obtain ⟨d, hcast, hkind, hnumber⟩ := exists_cast (hcs c (by simp))
    obtain ⟨d', hcast', hkind', hnumber'⟩ := exists_cast (hcs c' (by simp))
    refine ⟨_, onCells_two c c', ?_⟩
    simp only [onCells, List.map_cons, List.map_nil, hcast, hcast'] at h hu
    rw [hnumber, hnumber']
    cases d with
    | real x =>
      cases d' <;> cases hkind.trans hkind'.symm
      cases h
      exact onNumbers_agrees hf h2 _ _
    | integer m =>
      cases d' <;> cases hkind.trans hkind'.symm
      rw [Cell.toNumber_integer, Cell.toNumber_integer]
      have hdivide : f ≠ divide := by
        rintro rfl
        cases hkind
        cases k₀ <;> cases hk
      obtain ⟨out', hout, hagree⟩ := onIntegers_agrees hf h2 hdivide hu
      cases hout.symm.trans h
      exact hagree
    | flag b =>
      cases d' <;> cases hkind.trans hkind'.symm
      cases h
      rw [Cell.toNumber_flag, Cell.toNumber_flag]
      exact onFlags_agrees hf h2 (eq_flag_of_computing (hkind ▸ hk) hf) hu

end Elementwise

end UnitAlgebra

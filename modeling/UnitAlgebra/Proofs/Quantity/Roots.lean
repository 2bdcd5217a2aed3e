/-
Powers of physical values. A power is computed on the value in a scale of which the root is exact, and its result has
the root of that scale; so the physical value of the result is the power of the physical value. Where all operands are
whole numbers, the power is one of 64 bits, and right if the exact power is such a number.

Results:
- `Fraction.raise`: the power of a real number with a fraction for exponent.
- `Fraction.Moves.real`, `raise_mul`: the power of a scale, and of a number times the factor of a scale.
- `onCells_raise`: powers of cells.
- `power_raises`: the physical value of a power.
- `powers_spec`: when a root is refused, what is moved where, and the physical value.
-/
import UnitAlgebra.Proofs.Quantity.Powers
import UnitAlgebra.Proofs.Quantity.Soundness

namespace UnitAlgebra

/-! ## Powers of real numbers -/

namespace Fraction

variable {p : Fraction} {d : Dimension} {s base : Scale} {u : StorageUnit}

/-- the power of a real number; an odd root leaves its sign -/
noncomputable def raise (p : Fraction) (a : ℝ) : ℝ :=
  if 0 ≤ a then a ^ (p.numerator / p.denominator : ℝ)
  else (-1) ^ p.numerator * (-a) ^ (p.numerator / p.denominator : ℝ)

theorem raise_of_whole (hp : p.denominator = 1) (a : ℝ) : p.raise a = a ^ p.numerator := by
  have hexponent : (p.numerator / p.denominator : ℝ) = p.numerator := by rw [hp, Nat.cast_one, div_one]
  unfold raise
  split
  · rw [hexponent, Real.rpow_intCast]
  · rw [hexponent, Real.rpow_intCast, ← mul_zpow, neg_one_mul, neg_neg]

theorem raise_mul (p : Fraction) (a : ℝ) {b : ℝ} (hb : 0 < b) :
    p.raise (a * b) = p.raise a * b ^ (p.numerator / p.denominator : ℝ) := by
  have hsign : 0 ≤ a * b ↔ 0 ≤ a := mul_nonneg_iff_of_pos_right hb
  unfold raise
  rw [if_congr hsign rfl rfl]
  split
  · next ha => rw [Real.mul_rpow ha hb.le]
  · next ha => rw [← neg_mul, Real.mul_rpow (neg_nonneg.2 (not_le.1 ha).le) hb.le, mul_assoc]

/-- The power of the scale that a value is moved to. -/
theorem Moves.real (hp : p.denominator ≠ 0) (h : p.Moves d s base u) :
    u.scale.real = base.real ^ (p.numerator / p.denominator : ℝ) := by
  have hpowers : u.scale.real ^ p.denominator = base.real ^ p.numerator := by
    have := Scale.real_zpow h.scale
    rwa [zpow_natCast] at this
  calc u.scale.real = (u.scale.real ^ p.denominator) ^ ((p.denominator : ℝ)⁻¹) :=
        (Real.pow_rpow_inv_natCast u.scale.real_pos.le hp).symm
    _ = (base.real ^ (p.numerator : ℝ)) ^ ((p.denominator : ℝ)⁻¹) := by rw [hpowers, Real.rpow_intCast]
    _ = base.real ^ (p.numerator / p.denominator : ℝ) := by rw [← Real.rpow_mul base.real_pos.le, div_eq_mul_inv]

end Fraction

/-! ## Powers of cells -/

namespace Elementwise

variable {f : Elementwise} {p : Fraction}

/-- the function has a power of the number: of a negative one with a whole exponent only, or its cube root -/
def Takes (f : Elementwise) (p : Fraction) (a : ℝ) : Prop := 0 ≤ a ∨ p.denominator = 1 ∨ f = .real .cbrt

theorem onNumber_raise (hf : (TensorFunction.each f).rule = .fixedPower p) (x : ℝ) :
    ∃ r, f.onNumber x = [.real r] ∧ (Takes f p x → r = p.raise x) := by
  cases f with
  | square =>
    cases hf
    refine ⟨_, rfl, fun _ => ?_⟩
    rw [Fraction.raise_of_whole rfl, zpow_two, Numeric.Exact.mul]
  | reciprocal =>
    cases hf
    refine ⟨_, rfl, fun _ => ?_⟩
    rw [Fraction.raise_of_whole rfl, zpow_neg_one, ← one_div, Numeric.Exact.div, Numeric.Exact.one]
  | real g =>
    cases g with
    | sqrt =>
      cases hf
      refine ⟨_, rfl, fun hx => ?_⟩
      have hpos : 0 ≤ x := by
        rcases hx with hx | hx | hx
        · exact hx
        · cases hx
        · cases hx
      rw [Fraction.raise, if_pos hpos]
      change Real.sqrt x = _
      rw [Real.sqrt_eq_rpow]
      norm_num
    | cbrt =>
      cases hf
      refine ⟨_, rfl, fun _ => ?_⟩
      change (if x < 0 then -(-x) ^ (1 / 3 : ℝ) else x ^ (1 / 3 : ℝ)) = _
      rw [Fraction.raise]
      split
      · next hneg =>
        rw [if_neg (not_le.2 hneg)]
        norm_num
      · next hpos =>
        rw [if_pos (not_lt.1 hpos)]
        norm_num
    | _ => cases hf
  | _ => cases hf

theorem onNumbers_raise (hf : (TensorFunction.each f).rule = .power) {e : ℝ} (he : e = p.numerator / p.denominator)
    (x : ℝ) : ∃ r, f.onNumbers x e = [.real r] ∧ (Takes f p x → r = p.raise x) := by
  have hpower : Takes f p x → x ^ e = p.raise x := by
    rintro (hx | hx | hx)
    · rw [Fraction.raise, if_pos hx, he]
    · rw [Fraction.raise_of_whole hx, he, hx, Nat.cast_one, div_one, Real.rpow_intCast]
    · rw [hx] at hf
      cases hf
  cases f with
  | power | floatPower => exact ⟨_, rfl, hpower⟩
  | real g => cases g <;> cases hf
  | _ => cases hf

end Elementwise

/-! ## Powers of whole numbers -/

/-- the power of a whole number is there, and a cell can hold it -/
def Fraction.HasWhole (p : Fraction) (n : ℤ) : Prop :=
  (n = 0 → 0 ≤ p.numerator) ∧ ∃ k : ℤ, wrapped k = k ∧ (k : ℝ) = p.raise n

namespace Elementwise

variable {f : Elementwise} {p : Fraction}

/-- a power by repeated squaring is the power, but for what wraps around -/
theorem powerWrapped_modEq (m : ℤ) (n : ℕ) : onIntegers.powerWrapped m n ≡ m ^ n [ZMOD 1 <<< 64] := by
  induction n using Nat.strong_induction_on generalizing m with
  | _ n ih =>
    rw [onIntegers.powerWrapped]
    split
    · next hn => rw [hn, pow_zero]
    · next hn =>
      have hhalf : onIntegers.powerWrapped (wrapped (m * m)) (n / 2) ≡ (m * m) ^ (n / 2) [ZMOD 1 <<< 64] :=
        (ih (n / 2) (by omega) _).trans ((wrapped_modEq _).pow _)
      rw [← pow_two, ← pow_mul] at hhalf
      simp only
      split
      · next heven => rwa [pow_two, show 2 * (n / 2) = n by omega] at hhalf
      · next hodd =>
        have hpower : m ^ (2 * (n / 2)) * m = m ^ n := by
          rw [← pow_succ, show 2 * (n / 2) + 1 = n by omega]
        rw [← hpower]
        rw [pow_two] at hhalf
        exact (wrapped_modEq _).trans (hhalf.mul_right m)

/-- what signed and unsigned cells can hold does not wrap around in either -/
theorem wrappedAs_eq {n k : ℤ} (hk : wrapped k = k) (hpos : 0 ≤ k) : wrappedAs n k = k := by
  have hlt : k < 1 <<< 64 := by
    rw [← hk, wrapped]
    exact (Int.bmod_lt (by decide)).trans (by decide)
  unfold wrappedAs
  split
  · exact hk
  · split
    · exact Int.emod_eq_of_lt hpos hlt
    · rfl

theorem onInteger_raise (hf : (TensorFunction.each f).rule = .fixedPower p) (hk : f.computing .integer = some .integer)
    {n : ℤ} (hn : p.HasWhole n) : ∃ k : ℤ, (f.onInteger n : List (Cell ℝ)) = [.integer k] ∧ (k : ℝ) = p.raise n := by
  obtain ⟨hzero, k, hk', hpower⟩ := hn
  refine ⟨k, ?_, hpower⟩
  cases f with
  | square =>
    cases hf
    rw [Fraction.raise_of_whole rfl, zpow_two] at hpower
    have hsquare : k = n * n := by exact_mod_cast hpower
    rw [onInteger, ← hsquare, wrappedAs_eq hk' (hsquare ▸ mul_self_nonneg n)]
  | reciprocal =>
    cases hf
    rw [Fraction.raise_of_whole rfl, zpow_neg_one] at hpower
    have hn : n ≠ 0 := fun h => absurd (hzero h) (by decide)
    have hone : k * n = 1 := by
      have : (k : ℝ) * n = 1 := by rw [hpower, inv_mul_cancel₀ (by exact_mod_cast hn)]
      exact_mod_cast this
    rw [onInteger, if_neg hn]
    rcases Int.eq_one_or_neg_one_of_mul_eq_one' hone with ⟨rfl, rfl⟩ | ⟨rfl, rfl⟩ <;> rfl
  | real g => cases g <;> first | (cases hf; done) | cases hk
  | _ => cases hf

theorem onIntegers_raise (hf : (TensorFunction.each f).rule = .power) (hk : f.computing .integer = some .integer)
    (hp : p.numerator.natAbs.Coprime p.denominator) (hd : p.denominator ≠ 0) {n e : ℤ}
    (he : (e : ℝ) = p.numerator / p.denominator) (hn : p.HasWhole n) {out : List (Cell ℝ)}
    (h : f.onIntegers n e = .ok out) : ∃ k : ℤ, out = [.integer k] ∧ (k : ℝ) = p.raise n := by
  have hmultiple : e * p.denominator = p.numerator := by
    have hd' : (p.denominator : ℝ) ≠ 0 := by exact_mod_cast hd
    rw [eq_div_iff hd'] at he
    exact_mod_cast he
  have hone : p.denominator = 1 := by
    refine hp.symm.eq_one_of_dvd ?_
    rw [← hmultiple, Int.natAbs_mul, Int.natAbs_natCast]
    exact dvd_mul_left _ _
  have hexponent : p.numerator = e := by rw [← hmultiple, hone, Nat.cast_one, mul_one]
  obtain ⟨-, k, hk', hpower⟩ := hn
  refine ⟨k, ?_, hpower⟩
  cases f with
  | power =>
    simp only [onIntegers] at h
    split at h
    · cases h
    · next hsign =>
      have hnat : (e.toNat : ℤ) = e := Int.toNat_of_nonneg (not_lt.1 hsign)
      have hexact : k = n ^ e.toNat := by
        rw [Fraction.raise_of_whole hone, hexponent, ← hnat, zpow_natCast] at hpower
        exact_mod_cast hpower
      cases h
      rw [wrapped_congr (powerWrapped_modEq n e.toNat), ← hexact, hk']
  | floatPower => cases hk
  | real g => cases g <;> cases hf
  | _ => cases hf

/-! ## Powers of cells -/

/-- the cells of exponents: none if a power has its own, else one with the number of the fraction -/
inductive Exponents (p : Fraction) : Elementwise → List (Cell ℝ) → Prop where
  | own {f : Elementwise} (h : (TensorFunction.each f).rule = .fixedPower p) : Exponents p f []
  | given {f : Elementwise} {c : Cell ℝ} (h : (TensorFunction.each f).rule = .power)
      (hc : c.toNumber = p.numerator / p.denominator) : Exponents p f [c]

theorem computing_power {cs : List (Cell ℝ)} (h : Exponents p f cs) {k₀ k : Kind} (hk : f.computing k₀ = some k) :
    k₀.rank ≤ k.rank ∧ (k = .real ∨ k = .integer ∧ f.computing .integer = some .integer) := by
  have hpower : f ∈ [square, reciprocal, power, floatPower, real .sqrt, real .cbrt] := by
    cases h with
    | own hf =>
      cases f with
      | real g => cases g <;> first | (cases hf; done) | simp
      | _ => first | (cases hf; done) | simp
    | given hf =>
      cases f with
      | real g => cases g <;> cases hf
      | _ => first | (cases hf; done) | simp
  simp only [List.mem_cons, List.not_mem_nil, or_false] at hpower
  rcases hpower with rfl | rfl | rfl | rfl | rfl | rfl <;> cases k₀ <;> cases hk <;> decide

/-- **Powers of cells.** The number of the result is the power of the number. -/
theorem onCells_raise {cs : List (Cell ℝ)} (h : Exponents p f cs) (hp : p.numerator.natAbs.Coprime p.denominator)
    (hd : p.denominator ≠ 0) {k₀ k : Kind} (hk : f.computing k₀ = some k) {c : Cell ℝ} (hc : c.kind.rank ≤ k.rank)
    (hcs : ∀ e ∈ cs, e.kind.rank ≤ k.rank) (hwhole : k = .integer → p.HasWhole c.toInt) {out : List (Cell ℝ)}
    (hout : f.onCells k (c :: cs) = .ok out) :
    ∃ r, out = [r] ∧ (Takes f p c.toNumber → r.toNumber = p.raise c.toNumber) := by
  rcases (computing_power h hk).2 with rfl | ⟨rfl, hinteger⟩
  · -- among numbers
    cases h with
    | own hf =>
      obtain ⟨r, hr, hpower⟩ := onNumber_raise hf c.toNumber
      rw [onCells_one, hr] at hout
      cases hout
      exact ⟨_, rfl, hpower⟩
    | given hf he =>
      obtain ⟨r, hr, hpower⟩ := onNumbers_raise hf he c.toNumber
      rw [onCells_two, hr] at hout
      cases hout
      exact ⟨_, rfl, hpower⟩
  · -- among whole numbers
    have hcast : ∀ {c : Cell ℝ}, c.kind.rank ≤ Kind.integer.rank →
        c.cast .integer = .integer c.toInt ∧ c.toNumber = c.toInt := by
      intro c hc
      have hcast : c.cast .integer = .integer c.toInt := by
        cases c with
        | real x => exact absurd hc (by simp [Cell.kind, Kind.rank])
        | _ => rfl
      refine ⟨hcast, ?_⟩
      rw [← Cell.toNumber_cast hc, hcast, Cell.toNumber_integer]
    obtain ⟨hcell, hnumber⟩ := hcast hc
    cases h with
    | own hf =>
      obtain ⟨k, hk, hpower⟩ := onInteger_raise hf hinteger (hwhole rfl)
      simp only [onCells, List.map_cons, List.map_nil, hcell, hk] at hout
      cases hout
      exact ⟨_, rfl, fun _ => by rw [Cell.toNumber_integer, hpower, hnumber]⟩
    | @given e hf he =>
      obtain ⟨hexponent, hexponent'⟩ := hcast (hcs e List.mem_cons_self)
      simp only [onCells, List.map_cons, List.map_nil, hcell, hexponent] at hout
      obtain ⟨k, rfl, hpower⟩ := onIntegers_raise hf hinteger hp hd (hexponent' ▸ he) (hwhole rfl) hout
      exact ⟨_, rfl, fun _ => by rw [Cell.toNumber_integer, hpower, hnumber]⟩

end Elementwise

/-! ## Physical values -/

section Physical

open Session

variable {f : Elementwise} {p : Fraction} {q : Quantity (Operand ℝ)} {ys : List (Operand ℝ)} {c : Context ℝ}
  {m m' : Store ℝ} {y : Operand ℝ} {count : Nat}

/-- the function is computed on whole numbers: no operand has other numbers, or is taken to another scale -/
structure ComputesWhole (f : Elementwise) (p : Fraction) (q : Quantity (Operand ℝ)) (ys : List (Operand ℝ))
    (m : Store ℝ) : Prop where
  kind : f.computing (Kind.joinAll ((Operand.quantity q :: ys).map fun x => (x.stored m).kind)) = some .integer
  divisible : ∀ b, (p.denominator : ℤ) ∣ (q.scale.get b).val
  scales : ∀ y ∈ ys, y.storedScale = .one
  cells : q.value.isWide = true → q.value.isUnsigned = true

/-- no power that is computed on whole numbers wraps around or loses a fraction -/
def PowersFit (f : Elementwise) (p : Fraction) (q : Quantity (Operand ℝ)) (ys : List (Operand ℝ)) (m : Store ℝ) :
    Prop :=
  ComputesWhole f p q ys m → ∀ cell ∈ (q.value.tensor m).grid.entries, p.HasWhole cell.toInt

/-- wherever the function has a power of the one, it is the other -/
def Raised (f : Elementwise) (p : Fraction) (x y : Grid ℝ) : Prop :=
  y.shape = x.shape ∧ List.Forall₂ (fun a b => f.Takes p a → b = p.raise a) x.entries y.entries

theorem raise_moved (hp : p.denominator ≠ 0) {d : Dimension} {s base : Scale} {u : StorageUnit}
    (h : p.Moves d s base u) {a b : ℝ} (hb : b = p.raise a) : b * u.scale.real = p.raise (a * base.real) := by
  rw [hb, h.real hp, p.raise_mul a base.real_pos]

theorem takes_mul {a b : ℝ} (hb : 0 < b) : f.Takes p (a * b) ↔ f.Takes p a := by
  rw [Elementwise.Takes, Elementwise.Takes, mul_nonneg_iff_of_pos_right hb]

/-- what an exponent is read as: a single cell with the number of the fraction -/
theorem exponents_of_reads (h : HasExponent c m p f ys) (hys : ∀ y ∈ ys, y.IsMeasure m) {m₂ m₃ : Store ℝ}
    (hm : m.Grows m₂) {ws : List (Operand ℝ)} {ts : List (Tensor ℝ)}
    (hws : ys.mapM (fun y => (y.participant m).quantity.valueIn .one) c m₂ = .ok (ws, m₃))
    (hts : List.Forall₂ (Reads f count m₃) ws ts) :
    ∃ cs, List.Forall₂ (fun t cell => t.grid = .scalar cell) ts cs ∧ f.Exponents p cs := by
  cases h with
  | own hf =>
    obtain ⟨rfl, rfl⟩ := pure_eq_ok_iff.1 hws
    cases hts
    exact ⟨[], .nil, .own hf⟩
  | @read y m₁ hf hread =>
    have hnumeric : (y.participant m).quantity.value.IsNumeric m := by
      rw [y.value_participant]
      exact hys y List.mem_cons_self
    rw [List.mapM_cons] at hws
    obtain ⟨w, _, hw, hws⟩ := bind_eq_ok_iff.1 hws
    cases hws
    obtain ⟨t, _, ht, hnil, rfl⟩ := List.forall₂_cons_left_iff.1 hts
    cases hnil
    obtain ⟨x, hx, ⟨-, hnone⟩ | ⟨e, he, hp⟩⟩ := exponentOf?_cases hnumeric hread
    · cases hnone
    · obtain ⟨⟨n, d⟩, hfraction, rfl⟩ := Option.map_eq_some_iff.1 hp.symm
      have hnumbers : t.numbers = ⟨[], [e]⟩ := by
        rw [ht.numbers, Quantity.valueIn_again hnumeric hx hm hw, he]
      obtain ⟨kind, shape, entries⟩ := t
      obtain ⟨rfl, hentries⟩ := Grid.mk.inj hnumbers
      obtain ⟨cell, rfl, hcell⟩ := List.map_eq_singleton_iff.1 hentries
      exact ⟨[cell], .cons rfl .nil, .given hf (hcell.trans (fraction?_real hfraction).2.2)⟩

/-- what is read as a tensor without numbers has stayed in its scale -/
theorem stored_of_kind (hq : q.value.IsNumeric m) {s : Scale} {m₁ m₂ m₃ : Store ℝ} (hm : m.Grows m₁) {v : Operand ℝ}
    (hv : q.valueIn s c m₁ = .ok (v, m₂)) (hm₂ : m₂.Grows m₃) {t : Tensor ℝ} (ht : Reads f count m₃ v t)
    (hf : f.isComparison = false) (hk : t.kind ≠ .real) :
    q.scale = s ∧ (q.value.isWide = true → q.value.isUnsigned = true) ∧ t = q.value.tensor m := by
  obtain ⟨hnumeric, hcases⟩ := Quantity.valueIn_cases (hq.grows hm) hv
  obtain ⟨rfl, hcells⟩ : t = v.tensor m₃ ∧ (v.isWide = true → v.isUnsigned = true) := by
    rcases ht with ⟨rfl, hcomparison⟩ | ⟨-, rfl⟩
    · refine ⟨rfl, fun hw => ((hcomparison hw).resolve_left fun hcomparison => ?_).2⟩
      rw [hcomparison] at hf
      cases hf
    · exact absurd rfl hk
  rw [Operand.tensor_of_grows hnumeric.live hm₂] at hk ⊢
  rcases hcases with ⟨hs, rfl, rfl⟩ | ⟨-, r, -, ⟨-, x, -, -, rfl⟩ | ⟨-, hshows⟩⟩
  · exact ⟨hs, hcells, Operand.tensor_of_grows hq.live hm⟩
  · exact absurd rfl hk
  · rw [hshows.tensor] at hk
    exact absurd rfl hk

theorem computesWhole_of_reads (h : HasExponent c m p f ys) (hq : q.value.IsNumeric m) (hys : ∀ y ∈ ys, y.IsMeasure m)
    {base : Scale} (hbase : ∀ b, (p.denominator : ℤ) ∣ (base.get b).val) {m₁ m₂ m₃ : Store ℝ} (hm : m.Grows m₁)
    {v : Operand ℝ} (hv : q.valueIn base c m₁ = .ok (v, m₂)) {ws : List (Operand ℝ)}
    (hws : ys.mapM (fun y => (y.participant m).quantity.valueIn .one) c m₂ = .ok (ws, m₃)) {t : Tensor ℝ}
    {ts : List (Tensor ℝ)} (ht : Reads f count m₃ v t) (hts : List.Forall₂ (Reads f count m₃) ws ts)
    (hkind : f.computing (Kind.joinAll ((t :: ts).map Tensor.kind)) = some .integer)
    (hkinds : ∀ u ∈ t :: ts, u.kind ≠ .real) : ComputesWhole f p q ys m ∧ t = q.value.tensor m := by
  have hf : f.isComparison = false := by
    cases h with
    | own hf => cases f <;> first | rfl | cases hf
    | read hf => cases f <;> first | rfl | cases hf
  have hm₂ : m₁.Grows m₂ := (adds_valueIn _ _).grows hv
  have hm₃ : m₂.Grows m₃ := (Adds.mapM (fun _ => adds_valueIn _ _) ys).grows hws
  obtain ⟨hs, hcells, rfl⟩ := stored_of_kind hq hm hv hm₃ ht hf (hkinds _ List.mem_cons_self)
  have hothers : (∀ y ∈ ys, y.storedScale = .one) ∧ ts = ys.map (Operand.stored m) := by
    cases h with
    | own =>
      cases hws
      cases hts
      exact ⟨nofun, rfl⟩
    | @read y _ _ _ =>
      rw [List.mapM_cons] at hws
      obtain ⟨w, _, hw, hws⟩ := bind_eq_ok_iff.1 hws
      cases hws
      obtain ⟨t, _, ht, hnil, rfl⟩ := List.forall₂_cons_left_iff.1 hts
      cases hnil
      have hnumeric : (y.participant m).quantity.value.IsNumeric m := by
        rw [y.value_participant]
        exact hys y List.mem_cons_self
      obtain ⟨hone, -, rfl⟩ := stored_of_kind hnumeric (hm.trans hm₂) hw (.refl _) ht hf
        (hkinds _ (List.mem_cons_of_mem _ List.mem_cons_self))
      rw [y.value_participant]
      refine ⟨fun x hx => ?_, rfl⟩
      rw [List.mem_singleton.1 hx, ← y.scale_participant m]
      exact hone
  obtain ⟨hscales, rfl⟩ := hothers
  refine ⟨⟨?_, hs ▸ hbase, hscales, hcells⟩, rfl⟩
  rw [← hkind, List.map_cons, List.map_cons, List.map_map]
  rfl

/-- the square is the one power of a whole number that no cell can hold -/
theorem onWide_raise (h : HasExponent c m p f []) {n k : ℤ} (hwide : f.onWide n = .ok k) : (k : ℝ) = p.raise n := by
  cases h with
  | own hf =>
    cases f with
    | square =>
      cases hf
      cases hwide
      rw [Fraction.raise_of_whole rfl, zpow_two, Int.cast_mul]
    | real g => cases g <;> first | (cases hf; done) | cases hwide
    | _ => first | (cases hf; done) | cases hwide

theorem raised_of_cells (hp : p.denominator ≠ 0) {d : Dimension} {s base : Scale} {u : StorageUnit}
    (h : p.Moves d s base u) (shape : List Nat) {xs ys : List (Cell ℝ)}
    (hcells : List.Forall₂ (fun x y => Elementwise.Takes f p x.toNumber → y.toNumber = p.raise x.toNumber) xs ys) :
    Raised f p ⟨shape, xs.map fun x => Numeric.mul x.toNumber base.real⟩
      ⟨shape, ys.map fun y => y.toNumber * u.scale.real⟩ := by
  refine ⟨rfl, ?_⟩
  rw [List.forall₂_map_left_iff, List.forall₂_map_right_iff]
  refine hcells.imp fun x y hxy htakes => ?_
  rw [Numeric.Exact.mul] at htakes ⊢
  exact raise_moved hp h (hxy ((takes_mul base.real_pos).1 htakes))

theorem kind_of_exponents {ws : List (Operand ℝ)} {ts : List (Tensor ℝ)} {cs : List (Cell ℝ)} {k : Kind}
    (hws : ∀ w ∈ ws, w.IsNumeric m) (hts : List.Forall₂ (Reads f count m) ws ts)
    (hcs : List.Forall₂ (fun t cell => t.grid = .scalar cell) ts cs) (hkinds : ∀ t ∈ ts, t.kind.rank ≤ k.rank) :
    ∀ e ∈ cs, e.kind.rank ≤ k.rank := by
  intro e he
  obtain ⟨t, ht, hgrid⟩ := exists_partner hcs.flip he
  obtain ⟨w, hw, hread⟩ := exists_partner hts.flip ht
  have hmem : e ∈ t.grid.entries := by
    rw [hgrid]
    exact List.mem_singleton_self e
  rw [(Reads.filled (hws w hw) hread).2 e hmem]
  exact hkinds t ht

/-- **The physical value of a power** is the power of the physical value. -/
theorem power_raises (h : HasExponent c m p f ys) (hq : q.value.IsNumeric m) (hys : ∀ y ∈ ys, y.IsMeasure m)
    (hfit : PowersFit f p q ys m)
    (hcall : callWith (.each f) .plain (.quantity q :: ys) [] c m = .ok (y, m')) :
    Raised f p ((Operand.quantity q).physical m) (y.physical m') := by
  obtain ⟨hd, hp⟩ := h.reduced reduced_real
  obtain ⟨base, u, z, hmoves, rfl, m₁, v, m₂, ws, m₃, hm, hv, hws, hz⟩ := power_moves reduced_real h hys hcall
  -- what the power is computed on
  have hvalue : UnitRule.alignedValue ⟨q.dimension, base⟩ ((Operand.quantity q).participant m) = q.valueIn base :=
    if_pos rfl
  obtain ⟨hm₂, haligned⟩ := aligned_of_alignedValue (x := .quantity q) hq hm (fun _ => rfl)
    ((congrArg (fun act => act c m₁) hvalue).trans hv)
  have hv₃ := haligned.grows ((Adds.mapM (fun _ => adds_valueIn _ _) ys).grows hws)
  obtain ⟨-, hwsNumeric⟩ := mapM_grows (R := fun _ w n => w.IsNumeric n) (fun hw hm => hw.grows hm)
    (fun y hy w n n' hn hw => ⟨(adds_valueIn _ _).grows hw, (Quantity.valueIn_cases (by
      rw [y.value_participant]
      exact (hys y hy).grows hn) hw).1⟩) (hm.trans hm₂) hws
  have hnumeric : ∀ w ∈ v :: ws, w.IsNumeric m₃ := by
    refine List.forall_mem_cons.2 ⟨hv₃.numeric, fun w hw => ?_⟩
    obtain ⟨-, -, hnumeric⟩ := exists_partner hwsNumeric.flip hw
    exact hnumeric
  rcases computeBare_spec (.inl (Eq.refl Manner.plain)) hnumeric hz with
    ⟨-, n, k, hn, -, -, hwide, hk⟩ | ⟨ts, rs, -, hts, hrs, hzs⟩
  · -- a whole number that no cell can hold
    obtain ⟨rfl, rfl⟩ := List.cons.inj hn
    obtain ⟨rfl, -⟩ := List.cons.inj hk
    obtain rfl : ys = [] := List.length_eq_zero_iff.1 hwsNumeric.length_eq
    have hpower : (Cell.integer k : Cell ℝ).toNumber = p.raise (Cell.integer n : Cell ℝ).toNumber := by
      rw [Cell.toNumber_integer, Cell.toNumber_integer, onWide_raise h hwide]
    have hcells : List.Forall₂ (fun x y : Cell ℝ => f.Takes p x.toNumber → y.toNumber = p.raise x.toNumber)
        [.integer n] [.integer k] := .cons (fun _ => hpower) .nil
    rw [← haligned.physical]
    exact raised_of_cells hd hmoves [] hcells
  · obtain ⟨t, ts', ht, hts', rfl⟩ := List.forall₂_cons_left_iff.1 hts
    obtain ⟨cs, hcs, hexponents⟩ := exponents_of_reads h hys (hm.trans hm₂) hws hts'
    obtain ⟨hfilled, huniform⟩ := ht.filled (hnumeric v List.mem_cons_self)
    obtain ⟨k, outs, hk, houts, rfl⟩ := (Tensor.elementwise_column h.results hfilled hcs).1 hrs
    obtain ⟨hz', -⟩ := List.forall₂_cons.1 hzs
    have hkinds : ∀ u ∈ t :: ts', u.kind.rank ≤ k.rank := fun u hu =>
      (Kind.rank_le_joinAll (List.mem_map_of_mem hu)).trans (Elementwise.computing_power hexponents hk).1
    have hexponentKinds := kind_of_exponents (fun w hw => hnumeric w (List.mem_cons_of_mem v hw)) hts' hcs fun u hu =>
      hkinds u (List.mem_cons_of_mem t hu)
    have hwhole : k = .integer → ∀ cell ∈ t.grid.entries, p.HasWhole cell.toInt := by
      rintro rfl
      have hnone : ∀ u ∈ t :: ts', u.kind ≠ .real := fun u hu hreal => by
        have := hkinds u hu
        rw [hreal] at this
        exact absurd this (by decide)
      obtain ⟨hcomputes, rfl⟩ := computesWhole_of_reads h hq hys hmoves.divisible hm hv hws ht hts' hk hnone
      exact hfit hcomputes
    have hcells : ∀ cell ∈ t.grid.entries, ∀ out, f.onCells k (cell :: cs) = .ok out → ∃ r, out = [r] ∧
        (f.Takes p cell.toNumber → r.toNumber = p.raise cell.toNumber) := fun cell hcell out hout =>
      Elementwise.onCells_raise hexponents hp hd hk (huniform cell hcell ▸ hkinds t List.mem_cons_self) hexponentKinds
        (fun hinteger => hwhole hinteger cell hcell) hout
    have hraised := raised_of_cells hd hmoves t.grid.shape (forall₂_heads houts hcells)
    have hphysical : (Operand.quantity q).physical m = t.numbers.map (Numeric.mul · base.real) := by
      rw [ht.numbers, hv₃.physical]
    have hresult : (inUnitOf u z).physical m' = (z.tensor m').numbers.map (· * u.scale.real) := rfl
    rw [hphysical, hresult, Tensor.numbers, Tensor.numbers, hz'.grid]
    simpa only [Grid.map, List.map_map, Function.comp_def] using hraised

/-! ## Exact powers -/

/-- what a power does to units: a root that the dimension does not have is refused, and a call that returns has taken
the value to a scale with the root, which is the scale of the result -/
structure MovesUnits {κ : Type} [Numeric κ] (c : Context κ) (m : Store κ) (f : Elementwise) (p : Fraction)
    (q : Quantity (Operand κ)) (ys : List (Operand κ)) : Prop where
  refused : (∀ a, InRange (p.numerator * (q.dimension.get a).val)) →
    ((callWith (.each f) .plain (.quantity q :: ys) [] c m).RefusesRoot ↔
      ∃ a, ¬ (p.denominator : ℤ) ∣ (q.dimension.get a).val)
  returned : (∀ y ∈ ys, y.IsMeasure m) → ∀ {y : Operand κ} {m' : Store κ},
    callWith (.each f) .plain (.quantity q :: ys) [] c m = .ok (y, m') →
      ∃ base u z, p.Moves q.dimension q.scale base u ∧ y = inUnitOf u z ∧ PoweredIn base c m f q ys z m'

theorem movesUnits {κ : Type} [Numeric κ] (hκ : Numeric.Reduced κ) {c : Context κ} {m : Store κ}
    {q : Quantity (Operand κ)} {ys : List (Operand κ)} (h : HasExponent c m p f ys) : MovesUnits c m f p q ys where
  refused := root_refused_iff hκ h
  returned hys _ _ := power_moves hκ h hys

/-- **Powers are exact.** On machine numbers and on real ones a power moves units as it should; among real ones its
physical value is the power of the physical value, unless it is computed on whole numbers and does not fit. -/
theorem powers_spec :
    (∀ {f : Elementwise} {p : Fraction} {q : Quantity (Operand Float)} {ys : List (Operand Float)} {c : Context Float}
      {m : Store Float}, HasExponent c m p f ys → MovesUnits c m f p q ys) ∧
    ∀ {f : Elementwise} {p : Fraction} {q : Quantity (Operand ℝ)} {ys : List (Operand ℝ)} {c : Context ℝ} {m : Store ℝ},
      HasExponent c m p f ys → MovesUnits c m f p q ys ∧
        (q.value.IsNumeric m → (∀ y ∈ ys, y.IsMeasure m) → PowersFit f p q ys m → ∀ {y : Operand ℝ} {m' : Store ℝ},
          callWith (.each f) .plain (.quantity q :: ys) [] c m = .ok (y, m') →
            Raised f p ((Operand.quantity q).physical m) (y.physical m')) :=
  ⟨movesUnits reduced_float, fun h => ⟨movesUnits reduced_real h, fun hq hys hfit => power_raises h hq hys hfit⟩⟩

/-- the side of a square of three thousand square meters, in a scale that has no root; a length has none -/
theorem powers_square : (∃ (y : Operand ℝ) (m' : Store ℝ),
    callWith (.each (.real .sqrt)) .plain [.quantity ⟨.number 3, { length := 2 }, .ten 3⟩] [] (unnamed .smallerWins)
      ⟨[]⟩ = .ok (y, m') ∧ Raised (.real .sqrt) ⟨1, 2⟩ ⟨[], [3 * (Scale.ten 3).real]⟩ (y.physical m')) ∧
    (callWith (.each (.real .sqrt)) .plain [lengthIn .one (.number 3)] [] (unnamed .smallerWins) ⟨[]⟩).RefusesRoot := by
  have hexponent : HasExponent (unnamed .smallerWins) ⟨[]⟩ ⟨1, 2⟩ (.real .sqrt) [] := .own rfl
  refine ⟨⟨_, _, rfl, ?_⟩, ?_⟩
  · have hsquare := powers_spec.2 (q := ⟨.number 3, { length := 2 }, .ten 3⟩) hexponent
    exact hsquare.2 trivial nofun (fun h => by cases h.kind) rfl
  · have hlength := powers_spec.2 (q := ⟨.number 3, { length := 1 }, .one⟩) hexponent
    refine (hlength.1.refused fun a => ?_).2 ⟨.length, by decide⟩
    cases a <;> decide

/-- The reciprocal of a whole number of meters is a whole number, which is not the power of its physical value. -/
theorem not_raised_reciprocal : ∃ (y : Operand ℝ) (m' : Store ℝ),
    callWith (.each .reciprocal) .plain [lengthIn .one (.integer 2)] [] (unnamed .smallerWins) ⟨[]⟩ = .ok (y, m') ∧
      HasExponent (unnamed .smallerWins) ⟨[]⟩ ⟨-1, 1⟩ .reciprocal [] ∧
      ¬ Raised .reciprocal ⟨-1, 1⟩ ((lengthIn .one (.integer 2)).physical ⟨[]⟩) (y.physical m') := by
  refine ⟨_, _, rfl, .own rfl, ?_⟩
  rintro ⟨-, hentries⟩
  have hpower := (List.forall₂_cons.1 hentries).1 (.inr (.inl rfl))
  rw [Fraction.raise_of_whole rfl] at hpower
  change Cell.toNumber (.integer 0) * Scale.one.real =
    (Cell.toNumber (.integer 2) * Scale.one.real) ^ (-1 : ℤ) at hpower
  rw [Cell.toNumber_integer, Cell.toNumber_integer, Scale.real_one] at hpower
  norm_num at hpower

end Physical

end UnitAlgebra

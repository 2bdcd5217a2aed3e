/-
Folds of scaled cells. A fold is computed in some kind of cells, and on numbers that are all taken times a factor it
gives the fold times the factor, as far as the kind can hold what is exact: sums and products of whole numbers are right
up to multiples of `2^64`, those of truth values tell zero from the rest, and extrema are always exact.

Results:
- `simulates_add`, `simulates_extremum`: what one step of a fold knows of the exact fold.
- `Simulates.foldRows`, `Simulates.runningFolds`: what whole folds know of it.
-/
import UnitAlgebra.Proofs.Numeric.Sums
import UnitAlgebra.Proofs.Quantity.Whole
import UnitAlgebra.Proofs.Tensor.Folds
import UnitAlgebra.Proofs.Tensor.Related

namespace UnitAlgebra

/-! ## Exact numbers in cells -/

/-- real numbers with exact arithmetic and exact roots, none of them infinite -/
class Numeric.Analytic [Numeric ℝ] : Prop extends Numeric.Exact where
  isInfinite (x : ℝ) : Numeric.isInfinite x = false
  truncated (n : ℤ) : Numeric.truncated (n : ℝ) = n
  sqrt (x : ℝ) : Numeric.apply .sqrt x = Real.sqrt x

instance : Numeric.Analytic where
  isInfinite _ := rfl
  truncated n := by
    change towardZero (n : ℝ) = n
    simp [towardZero]
  sqrt _ := rfl

/-- the numbers that cells of a kind can hold -/
def Kind.Holds : Kind → ℝ → Prop
  | .flag, x => x = 0 ∨ x = 1
  | .integer, x => ∃ n : ℤ, x = n ∧ wrapped n = n
  | .real, _ => True

variable [Numeric ℝ]

namespace Cell

/-- what a sum or a product in a kind knows of the exact number: whole numbers wrap around, and truth values tell zero
from the rest -/
def Tells (k : Kind) (c : Cell ℝ) (x : ℝ) : Prop :=
  match k, c with
  | .real, .real y => y = x
  | .integer, .integer n => ∃ t : ℤ, x = t ∧ (n = t ∨ n = wrapped t)
  | .flag, .flag b => ∃ t : ℕ, x = t ∧ (b = true ↔ t ≠ 0)
  | _, _ => False

/-- a cell of a kind that holds the exact number -/
def Equals (k : Kind) (c : Cell ℝ) (x : ℝ) : Prop := c.kind = k ∧ c.toNumber = x

/-- a cell of a kind that holds the exact number if the kind can -/
def Renders (k : Kind) (c : Cell ℝ) (x : ℝ) : Prop := c.kind = k ∧ (k.Holds x → c.toNumber = x)

variable {k : Kind} {c d : Cell ℝ} {x y : ℝ}

omit [Numeric ℝ] in
theorem Tells.kind (h : c.Tells k x) : c.kind = k := by
  cases k <;> cases c <;> first | rfl | exact h.elim

section Laws

variable [Numeric.Exact]

theorem tells_toNumber (h : c.kind = k) : c.Tells k c.toNumber := by
  subst h
  cases c with
  | flag b =>
    refine ⟨if b then 1 else 0, ?_, by cases b <;> simp⟩
    rw [toNumber_flag]
    cases b <;> simp
  | integer n => exact ⟨n, toNumber_integer n, .inl rfl⟩
  | real x => exact rfl

/-- **What a kind holds, its sums and products tell.** -/
theorem Tells.toNumber_eq (h : c.Tells k x) (hx : k.Holds x) : c.toNumber = x := by
  cases k <;> cases c <;> try exact h.elim
  case flag.flag b =>
    obtain ⟨t, rfl, hb⟩ := h
    rw [toNumber_flag]
    rcases hx with hx | hx
    · have ht : t = 0 := by exact_mod_cast hx
      subst ht
      rw [if_neg fun h => hb.1 h rfl, Nat.cast_zero]
    · have ht : t = 1 := by exact_mod_cast hx
      subst ht
      rw [if_pos (hb.2 one_ne_zero), Nat.cast_one]
  case integer.integer n =>
    obtain ⟨t, rfl, hn⟩ := h
    obtain ⟨s, hs, hwrapped⟩ := hx
    obtain rfl : t = s := by exact_mod_cast hs
    rw [toNumber_integer]
    rcases hn with rfl | rfl
    · rfl
    · rw [hwrapped]
  case real.real y => exact h

theorem Tells.equals (h : c.Tells .real x) : c.Equals .real x := ⟨h.kind, h.toNumber_eq trivial⟩

omit [Numeric ℝ] [Numeric.Exact] in
theorem modEq_of_wraps {n t : ℤ} (h : n = t ∨ n = wrapped t) : n ≡ t [ZMOD 1 <<< 64] := by
  rcases h with rfl | rfl
  exacts [rfl, wrapped_modEq t]

theorem Tells.add (hc : c.Tells k x) (hd : d.Tells k y) :
    ∃ e, Elementwise.add.onTwo k c d = .ok e ∧ e.Tells k (x + y) := by
  cases k <;> cases c <;> try exact hc.elim
  all_goals cases d <;> try exact hd.elim
  case flag.flag.flag a b =>
    obtain ⟨s, rfl, ha⟩ := hc
    obtain ⟨t, rfl, hb⟩ := hd
    refine ⟨.flag (a || b), rfl, s + t, (Nat.cast_add s t).symm, ?_⟩
    rw [Bool.or_eq_true, ha, hb]
    omega
  case integer.integer.integer m n =>
    obtain ⟨s, rfl, hm⟩ := hc
    obtain ⟨t, rfl, hn⟩ := hd
    refine ⟨.integer (wrapped (m + n)), rfl, s + t, (Int.cast_add s t).symm, .inr (wrapped_congr ?_)⟩
    exact (modEq_of_wraps hm).add (modEq_of_wraps hn)
  case real.real.real a b =>
    obtain rfl : a = x := hc
    obtain rfl : b = y := hd
    exact ⟨_, rfl, Numeric.Exact.add a b⟩

theorem Tells.mul (hc : c.Tells k x) (hd : d.Tells k y) :
    ∃ e, Elementwise.multiply.onTwo k c d = .ok e ∧ e.Tells k (x * y) := by
  cases k <;> cases c <;> try exact hc.elim
  all_goals cases d <;> try exact hd.elim
  case flag.flag.flag a b =>
    obtain ⟨s, rfl, ha⟩ := hc
    obtain ⟨t, rfl, hb⟩ := hd
    refine ⟨.flag (a && b), rfl, s * t, (Nat.cast_mul s t).symm, ?_⟩
    rw [Bool.and_eq_true, ha, hb, ← mul_ne_zero_iff]
  case integer.integer.integer m n =>
    obtain ⟨s, rfl, hm⟩ := hc
    obtain ⟨t, rfl, hn⟩ := hd
    refine ⟨.integer (wrapped (m * n)), rfl, s * t, (Int.cast_mul s t).symm, .inr (wrapped_congr ?_)⟩
    exact (modEq_of_wraps hm).mul (modEq_of_wraps hn)
  case real.real.real a b =>
    obtain rfl : a = x := hc
    obtain rfl : b = y := hd
    exact ⟨_, rfl, Numeric.Exact.mul a b⟩

end Laws

/-- a number that a kind holds is kept by a cell that is taken to the kind -/
theorem toNumber_cast_of_holds [Numeric.Analytic] (h : k.Holds c.toNumber) : (c.cast k).toNumber = c.toNumber := by
  cases k with
  | real => exact toNumber_cast_real c
  | flag =>
    have hbool : c.toBool = true ↔ c.toNumber ≠ 0 := by
      cases c with
      | flag b => cases b <;> simp [toBool, toNumber_flag]
      | integer n => simp [toBool, toNumber_integer]
      | real x => simp [toBool, toNumber, ← Numeric.isZero_iff]
    change (Cell.flag c.toBool : Cell ℝ).toNumber = _
    rw [toNumber_flag]
    rcases h with h | h
    · rw [if_neg fun hb => hbool.1 hb h, h]
    · rw [if_pos (hbool.2 (h ▸ one_ne_zero)), h]
  | integer =>
    cases c with
    | flag b => exact toNumber_cast (Nat.zero_le _)
    | integer n => rfl
    | real x =>
      obtain ⟨n, hn, hwrapped⟩ := h
      obtain rfl : x = n := hn
      have hfinite : Numeric.isFinite (n : ℝ) = true := by
        simp [Numeric.isFinite, Numeric.Exact.isNaN, Numeric.Analytic.isInfinite]
      change (Cell.integer (Cell.real (n : ℝ)).toInt : Cell ℝ).toNumber = n
      rw [toInt, if_pos hfinite, Numeric.Analytic.truncated, hwrapped, toNumber_integer]

end Cell

/-! ## Steps of folds -/

/-- cells that know of an exact number what they are to know; and the number, times a factor -/
def Weighing (P : Cell ℝ → ℝ → Prop) (w : ℝ) (c c' : Cell ℝ) : Prop := ∃ x, P c x ∧ c' = .real (x * w)

/-- what cells of a kind know of exact numbers while a function is folded -/
structure Simulates (f : Elementwise) (k : Kind) (P : Cell ℝ → ℝ → Prop) : Prop where
  kind {c : Cell ℝ} {x : ℝ} : P c x → c.kind = k
  /-- a cell of the kind knows its own number -/
  cell {c : Cell ℝ} : c.kind = k → P c c.toNumber
  /-- and of an exact number that the kind holds, it knows all -/
  exact {c : Cell ℝ} {x : ℝ} : P c x → k.Holds x → c.toNumber = x
  step {c d : Cell ℝ} {x y : ℝ} : P c x → P d y → ∃ e z, f.onTwo k c d = .ok e ∧ P e z ∧
    ∀ w, 0 < w → f.onTwo .real (.real (x * w)) (.real (y * w)) = .ok (.real (z * w))
  neutral {a : Cell ℝ} : f.neutral? = some a → a.toNumber = 0 ∧ (a.cast k).toNumber = 0
  /-- what is folded in the kind is of no higher kind, and numbers are folded as numbers -/
  rank {into : Option Kind} {j : Kind} : f.kindOfFold into j = .ok k → j.rank ≤ k.rank
  real : f.kindOfFold none .real = .ok .real

section

variable [Numeric.Exact]

/-- **Sums** of whole numbers wrap around, and those of truth values are truth values. -/
theorem simulates_add (k : Kind) : Simulates .add k (Cell.Tells k) where
  kind := Cell.Tells.kind
  cell := Cell.tells_toNumber
  exact := Cell.Tells.toNumber_eq
  step {c d x y} hc hd := by
    obtain ⟨e, he, htells⟩ := hc.add hd
    refine ⟨e, x + y, he, htells, fun w _ => ?_⟩
    change Except.ok (Cell.real (Numeric.add (x * w) (y * w))) = _
    rw [Numeric.Exact.add, add_mul]
  neutral h := by
    cases h
    have hzero : (Cell.flag false : Cell ℝ).toNumber = 0 := by rw [Cell.toNumber_flag, if_neg Bool.false_ne_true]
    have hcast : ((Cell.flag false : Cell ℝ).cast k).toNumber = (Cell.flag false : Cell ℝ).toNumber :=
      Cell.toNumber_cast (Nat.zero_le _)
    exact ⟨hzero, hcast.trans hzero⟩
  rank {into j} h := by
    rcases into with _ | i
    · cases j <;> cases h <;> decide
    · cases i <;> cases j <;> cases h <;> decide
  real := rfl

/-- **Extrema** are always exact. -/
theorem simulates_extremum {f : Elementwise} (hf : f = .maximum ∨ f = .minimum) (k : Kind) :
    Simulates f k (Cell.Equals k) where
  kind h := h.1
  cell h := ⟨h, rfl⟩
  exact h _ := h.2
  step {c d x y} hc hd := by
    have hphysical : f.isPhysical = true := by rcases hf with rfl | rfl <;> rfl
    have harity : f.arity = 2 := by rcases hf with rfl | rfl <;> rfl
    have hlength : [c, d].length = f.arity := harity.symm
    have hcomputing : f.computing k = some k := by rcases hf with rfl | rfl <;> cases k <;> rfl
    have hfolding : f ∈ Elementwise.folding := by rcases hf with rfl | rfl <;> decide
    have hunwrapped : f.Unwrapped ([c, d].map (Cell.cast k)) := by rcases hf with rfl | rfl <;> trivial
    have hrank : ∀ b ∈ [c, d], b.kind.rank ≤ k.rank := by simp [hc.1, hd.1]
    obtain ⟨e, he, hkind⟩ := Elementwise.exists_onCells hfolding k c d
    obtain ⟨out, hout, e', e'', heq, rfl, hsame⟩ :=
      Elementwise.onCells_unwrapped hphysical hcomputing hlength hrank hunwrapped he
    cases heq
    rw [Elementwise.onCells_two, hc.2, hd.2, Except.ok.injEq] at hout
    refine ⟨e, e.toNumber, Elementwise.onTwo_eq he, ⟨hkind, rfl⟩, fun w hw => ?_⟩
    have hshared : (TensorFunction.each f).rule = .shared := by rcases hf with rfl | rfl <;> rfl
    have hweight : f.weight w = w := by rcases hf with rfl | rfl <;> rfl
    obtain ⟨a, b, ha, hb, hab⟩ := Elementwise.onNumbers_weighs hw x y hphysical harity hshared
    obtain rfl : a = e'' := by simpa [ha] using hout
    have hreal : b = .real (e.toNumber * w) := by
      rw [hweight, hsame, mul_one] at hab
      cases b with
      | real z => exact congrArg Cell.real hab
      | flag b => rcases hf with rfl | rfl <;> cases hb
      | integer n => rcases hf with rfl | rfl <;> cases hb
    refine Elementwise.onTwo_eq ?_
    rw [Elementwise.onCells_two]
    exact congrArg Except.ok (hb.trans (by rw [hreal]))
  neutral h := by rcases hf with rfl | rfl <;> cases h
  rank {into j} h := by
    rcases into with _ | i
    · rcases hf with rfl | rfl <;> cases j <;> cases h <;> decide
    · rcases hf with rfl | rfl <;> cases i <;> cases j <;> cases h <;> decide
  real := by rcases hf with rfl | rfl <;> rfl

end

/-! ## Folds of lanes -/

section Lanes

variable {f : Elementwise} {k : Kind} {P : Cell ℝ → ℝ → Prop} {w : ℝ} {cs cs' : List (Cell ℝ)}

theorem Elementwise.onTwo_cast_right (f : Elementwise) (k : Kind) (a b : Cell ℝ) :
    f.onTwo k a (b.cast k) = f.onTwo k a b := by
  unfold onTwo onCells
  simp only [List.map_cons, Cell.cast_cast]

/-- exact numbers have one sum, so rows need not be summed apart -/
theorem Tensor.foldRow_exact [Numeric.Exact] {a : Cell ℝ} (ha : a.kind = k) (row : List (Cell ℝ)) :
    foldRow f k a row = foldCells f k a row := by
  by_cases h : f = .add ∧ k = .real
  · obtain ⟨rfl, rfl⟩ := h
    obtain ⟨x, rfl⟩ : ∃ x, a = .real x := by
      cases a with
      | real x => exact ⟨x, rfl⟩
      | _ => cases ha
    rw [foldRow_add, foldCells_add]
    exact congrArg (fun y => Except.ok (Cell.real y)) (Numeric.add_rowSum x _)
  · exact foldRow_eq (fun hf hk => h ⟨hf, hk⟩) a row

/-- what folds begin with, related cell by cell -/
inductive Start.Rel (R : Cell ℝ → Cell ℝ → Prop) : Start ℝ → Start ℝ → Prop where
  | usual : Rel R .usual .usual
  | first : Rel R .first .first
  | given {a b : Cell ℝ} : R a b → Rel R (.given a) (.given b)

theorem Weighing.cast_real {c c' : Cell ℝ} (h : Weighing P w c c') : Weighing P w c (c'.cast .real) := by
  obtain ⟨x, hx, rfl⟩ := h
  exact ⟨x, hx, rfl⟩

namespace Simulates

variable (hf : Simulates f k P) (hw : 0 < w)

include hf

theorem weighing_neutral {a : Cell ℝ} (ha : f.neutral? = some a) (w : ℝ) : Weighing P w (a.cast k) (a.cast .real) := by
  obtain ⟨hzero, hcast⟩ := hf.neutral ha
  refine ⟨0, ?_, ?_⟩
  · have hown := hf.cell (a.kind_cast k)
    rwa [hcast] at hown
  · change Cell.real a.toNumber = _
    rw [hzero, zero_mul]

theorem cast_self {c c' : Cell ℝ} (h : Weighing P w c c') : Weighing P w (c.cast k) c' := by
  obtain ⟨x, hx, rfl⟩ := h
  have hkind := hf.kind hx
  subst hkind
  exact ⟨x, (Cell.cast_kind c).symm ▸ hx, rfl⟩

theorem cast [Numeric.Exact] {j : Kind} (hrank : j.rank ≤ k.rank) {c c' : Cell ℝ} (h : Weighing (Cell.Equals j) w c c') :
    Weighing P w (c.cast k) c' := by
  obtain ⟨x, ⟨rfl, rfl⟩, rfl⟩ := h
  refine ⟨c.toNumber, ?_, rfl⟩
  rw [← Cell.toNumber_cast hrank]
  exact hf.cell (c.kind_cast k)

include hw

theorem onTwo {a a' c c' : Cell ℝ} (ha : Weighing P w a a') (hc : Weighing P w (c.cast k) c') :
    ∃ e e', f.onTwo k a c = .ok e ∧ f.onTwo .real a' c' = .ok e' ∧ Weighing P w e e' := by
  obtain ⟨x, hx, rfl⟩ := ha
  obtain ⟨y, hy, rfl⟩ := hc
  obtain ⟨e, z, he, hz, hscaled⟩ := hf.step hx hy
  rw [f.onTwo_cast_right] at he
  exact ⟨e, _, he, hscaled w hw, z, hz, rfl⟩

/-- **Cells folded from one on.** -/
theorem foldCells {a a' : Cell ℝ} (ha : Weighing P w a a')
    (hcs : List.Forall₂ (fun c c' => Weighing P w (c.cast k) c') cs cs') :
    ∃ e e', Tensor.foldCells f k a cs = .ok e ∧ Tensor.foldCells f .real a' cs' = .ok e' ∧ Weighing P w e e' := by
  induction hcs generalizing a a' with
  | nil => exact ⟨a, a', rfl, rfl, ha⟩
  | cons hc _ ih =>
    obtain ⟨b, b', hb, hb', hbb'⟩ := hf.onTwo hw ha hc
    obtain ⟨e, e', he, he', hee'⟩ := ih hbb'
    refine ⟨e, e', ?_, ?_, hee'⟩
    · rw [Tensor.foldCells, List.foldlM_cons, hb]
      exact he
    · rw [Tensor.foldCells, List.foldlM_cons, hb']
      exact he'

theorem foldRow [Numeric.Exact] {a a' : Cell ℝ} (ha : Weighing P w a a')
    (hcs : List.Forall₂ (fun c c' => Weighing P w (c.cast k) c') cs cs') :
    ∃ e e', Tensor.foldRow f k a cs = .ok e ∧ Tensor.foldRow f .real a' cs' = .ok e' ∧ Weighing P w e e' := by
  obtain ⟨x, hx, rfl⟩ := ha
  have hreal : (Cell.real (x * w)).kind = .real := rfl
  rw [Tensor.foldRow_exact (hf.kind hx), Tensor.foldRow_exact hreal]
  exact hf.foldCells hw ⟨x, hx, rfl⟩ hcs

/-- **Rows folded from one cell on.** -/
theorem foldRowsFrom [Numeric.Exact] {a a' : Cell ℝ} (ha : Weighing P w a a') {rows rows' : List (List (Cell ℝ))}
    (hrows : List.Forall₂ (List.Forall₂ fun c c' => Weighing P w (c.cast k) c') rows rows') :
    ∃ e e', rows.foldlM (Tensor.foldRow f k) a = .ok e ∧ rows'.foldlM (Tensor.foldRow f .real) a' = .ok e' ∧
      Weighing P w e e' := by
  induction hrows generalizing a a' with
  | nil => exact ⟨a, a', rfl, rfl, ha⟩
  | cons hrow _ ih =>
    obtain ⟨b, b', hb, hb', hbb'⟩ := hf.foldRow hw ha hrow
    obtain ⟨e, e', he, he', hee'⟩ := ih hbb'
    refine ⟨e, e', ?_, ?_, hee'⟩
    · rw [List.foldlM_cons, hb]
      exact he
    · rw [List.foldlM_cons, hb']
      exact he'

omit hw in
/-- what a fold begins with, if that is not its first cell -/
theorem weighing_start {start start' : Start ℝ}
    (hstart : Start.Rel (fun a a' => Weighing P w (a.cast k) a') start start') :
    Option.Rel (fun a a' => Weighing P w (a.cast k) (a'.cast .real)) (start.cell? f) (start'.cell? f) := by
  cases hstart with
  | first => exact .none
  | given ha => exact .some ha.cast_real
  | usual =>
    change Option.Rel _ (f.neutral? : Option (Cell ℝ)) f.neutral?
    cases ha : (f.neutral? : Option (Cell ℝ)) with
    | none => exact .none
    | some a => exact .some (hf.weighing_neutral ha w)

/-- **Rows**, from what a fold begins with or from their first cell. -/
theorem foldRows [Numeric.Exact] {start start' : Start ℝ}
    (hstart : Start.Rel (fun a a' => Weighing P w (a.cast k) a') start start') {rows rows' : List (List (Cell ℝ))}
    (hrows : List.Forall₂ (List.Forall₂ fun c c' => Weighing P w (c.cast k) c') rows rows') {e : Cell ℝ}
    (h : Tensor.foldRows f k start rows = .ok e) :
    ∃ e', Tensor.foldRows f .real start' rows' = .ok e' ∧ Weighing P w e e' := by
  have hcell := hf.weighing_start hstart
  unfold Tensor.foldRows at h ⊢
  generalize start.cell? f = o at h hcell
  generalize start'.cell? f = o' at hcell ⊢
  cases hcell with
  | some ha =>
    obtain ⟨d, e', hd, he', hde'⟩ := hf.foldRowsFrom hw ha hrows
    cases hd.symm.trans h
    exact ⟨e', he', hde'⟩
  | none =>
    cases hrows with
    | nil => cases h
    | cons hrow hrest =>
      cases hrow with
      | nil => cases h
      | cons hc hcs =>
        obtain ⟨d, e', hd, he', hde'⟩ := hf.foldRowsFrom hw hc.cast_real (.cons hcs hrest)
        cases hd.symm.trans h
        exact ⟨e', he', hde'⟩

/-- **Running folds.** -/
theorem runningFolds (hcs : List.Forall₂ (fun c c' => Weighing P w (c.cast k) c') cs cs') {es : List (Cell ℝ)}
    (h : Tensor.runningFolds f k cs = .ok es) :
    ∃ es', Tensor.runningFolds f .real cs' = .ok es' ∧ List.Forall₂ (Weighing P w) es es' := by
  -- the last fold, and all of them from the last on
  have hrun : ∀ {cs cs' : List (Cell ℝ)}, List.Forall₂ (fun c c' => Weighing P w (c.cast k) c') cs cs' →
      ∀ {a a' : Cell ℝ} {done done' : List (Cell ℝ)}, Weighing P w a a' → List.Forall₂ (Weighing P w) done done' →
      ∃ b b' all all', cs.foldlM (fun (a, done) c => do
          let b ← f.onTwo k a c
          return (b, b :: done)) (a, done) = (.ok (b, all) : Outcome _) ∧
        cs'.foldlM (fun (a, done) c => do
          let b ← f.onTwo .real a c
          return (b, b :: done)) (a', done') = (.ok (b', all') : Outcome _) ∧ List.Forall₂ (Weighing P w) all all' := by
    intro cs cs' hcs
    induction hcs with
    | nil => exact fun ha hdone => ⟨_, _, _, _, rfl, rfl, hdone⟩
    | cons hc _ ih =>
      intro a a' done done' ha hdone
      obtain ⟨b, b', hb, hb', hbb'⟩ := hf.onTwo hw ha hc
      obtain ⟨e, e', all, all', hall, hall', hrelated⟩ := ih hbb' (.cons hbb' hdone)
      refine ⟨e, e', all, all', ?_, ?_, hrelated⟩
      · simp only [List.foldlM_cons, hb]
        exact hall
      · simp only [List.foldlM_cons, hb']
        exact hall'
  cases hcs with
  | nil =>
    cases h
    exact ⟨[], rfl, .nil⟩
  | cons hc hrest =>
    obtain ⟨b, b', all, all', hall, hall', hrelated⟩ := hrun hrest hc.cast_real (.cons hc.cast_real .nil)
    obtain ⟨_, hrun, h⟩ := Outcome.bind_eq_ok_iff.1 h
    cases hrun.symm.trans hall
    cases h
    exact ⟨_, Outcome.bind_eq_ok_iff.2 ⟨_, hall', rfl⟩, List.rel_reverse hrelated⟩

end Simulates

end Lanes

end UnitAlgebra

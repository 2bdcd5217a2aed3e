/-
Reductions of rows beside folds. A function of two operands that is reduced over a row gives what the function itself
gives, folded over the row from the left, with two exceptions: truth values are counted in sums and products, and the
numbers of a row are summed as a row. Fewer than eight numbers have the same sum both ways, and so have exact numbers.

Results:
- `foldCells_neutral`: a neutral cell in front changes nothing.
- `reduces_row`: what a reduction gives beside the fold.
- `Reduces.short`, `Reduces.exact`: when sums of numbers are the same.
-/
import UnitAlgebra.Proofs.Numeric.Sums
import UnitAlgebra.Proofs.Quantity.Whole
import UnitAlgebra.Proofs.Session.Memory
import UnitAlgebra.Proofs.Tensor.Folds

namespace UnitAlgebra.Tensor

variable {κ : Type} [Numeric κ]

/-! ## Neutral cells -/

/-- a cell in front of a row that is not seen behind the first two steps -/
theorem foldCells_front {f : Elementwise} {k : Kind} {e a b d : Cell κ} (hd : f.onTwo k e a = .ok d)
    (hnext : f.onTwo k d b = f.onTwo k a b) (cs : List (Cell κ)) :
    foldCells f k e (a :: b :: cs) = foldCells f k (a.cast k) (b :: cs) := by
  calc foldCells f k e (a :: b :: cs) = foldCells f k d (b :: cs) := by
        rw [foldCells, List.foldlM_cons, hd]
        rfl
    _ = foldCells f k (a.cast k) (b :: cs) := by
        rw [foldCells, foldCells, List.foldlM_cons, List.foldlM_cons, hnext, f.onTwo_cast]

/-- sums and products of whole numbers may begin with zero and one -/
theorem foldCells_whole {f : Elementwise} {e : Cell κ} (hf : f = .add ∧ e = .integer 0 ∨ f = .multiply ∧ e = .integer 1)
    {a b : Cell κ} (ha : a.kind = .integer) (hb : b.kind = .integer) (cs : List (Cell κ)) :
    foldCells f .integer e (a :: b :: cs) = foldCells f .integer (a.cast .integer) (b :: cs) := by
  obtain ⟨m, rfl⟩ : ∃ m, a = .integer m := by cases a <;> first | exact ⟨_, rfl⟩ | cases ha
  obtain ⟨n, rfl⟩ : ∃ n, b = .integer n := by cases b <;> first | exact ⟨_, rfl⟩ | cases hb
  have hwrapped : wrapped m ≡ m [ZMOD 1 <<< 64] := wrapped_modEq m
  rcases hf with ⟨rfl, rfl⟩ | ⟨rfl, rfl⟩
  · have hfirst : Elementwise.add.onTwo .integer (.integer 0 : Cell κ) (.integer m) = .ok (.integer (wrapped m)) :=
      congrArg (fun i => Except.ok (Cell.integer (wrapped i))) (Int.zero_add m)
    have hnext : Elementwise.add.onTwo .integer (.integer (wrapped m) : Cell κ) (.integer n) =
        Elementwise.add.onTwo .integer (.integer m) (.integer n) :=
      congrArg (fun i => Except.ok (Cell.integer i)) (wrapped_congr (hwrapped.add_right n))
    exact foldCells_front hfirst hnext cs
  · have hfirst : Elementwise.multiply.onTwo .integer (.integer 1 : Cell κ) (.integer m) =
        .ok (.integer (wrapped m)) := congrArg (fun i => Except.ok (Cell.integer (wrapped i))) (Int.one_mul m)
    have hnext : Elementwise.multiply.onTwo .integer (.integer (wrapped m) : Cell κ) (.integer n) =
        Elementwise.multiply.onTwo .integer (.integer m) (.integer n) :=
      congrArg (fun i => Except.ok (Cell.integer i)) (wrapped_congr (hwrapped.mul_right n))
    exact foldCells_front hfirst hnext cs

theorem foldCells_product [Numeric.Neutral κ] (x : κ) (cs : List (Cell κ)) :
    foldCells .multiply .real (.real Numeric.one) (.real x :: cs) = foldCells .multiply .real (.real x) cs := by
  have hfirst : Elementwise.multiply.onTwo .real (.real Numeric.one) (.real x) = .ok (.real x) :=
    congrArg (fun y => Except.ok (Cell.real y)) (Numeric.Neutral.one_mul x)
  rw [foldCells, List.foldlM_cons, hfirst]
  rfl

/-! ## Truth values -/

/-- truth values, counted in whole numbers that wrap around -/
theorem foldCells_count {n : Int} (hn : wrapped n = n) {cs : List (Cell κ)} (hcs : ∀ c ∈ cs, c.kind = .flag) :
    foldCells .add .integer (.integer n) cs = .ok (.integer (wrapped (n + cs.countP Cell.toBool))) := by
  induction cs generalizing n with
  | nil =>
    rw [List.countP_nil, Int.natCast_zero, Int.add_zero, hn]
    rfl
  | cons c cs ih =>
    obtain ⟨b, rfl⟩ : ∃ b, c = .flag b := by
      have hc := hcs c List.mem_cons_self
      cases c <;> first | exact ⟨_, rfl⟩ | cases hc
    have hwrapped : wrapped (wrapped (n + if b then 1 else 0)) = wrapped (n + if b then 1 else 0) :=
      wrapped_congr (wrapped_modEq _)
    have hcount : (Cell.flag b :: cs).countP Cell.toBool = (if b then 1 else 0) + cs.countP Cell.toBool := by
      rw [List.countP_cons, Nat.add_comm]
      rfl
    have hsum : n + ((Cell.flag b :: cs).countP Cell.toBool : Nat) =
        (n + if b then 1 else 0) + (cs.countP Cell.toBool : Nat) := by
      rw [hcount]
      cases b <;> simp [Int.add_assoc]
    rw [hsum, ← wrapped_congr ((wrapped_modEq _).add_right _)]
    exact ih hwrapped fun c hc => hcs c (List.mem_cons_of_mem _ hc)

theorem foldCells_allTrue (b : Bool) {cs : List (Cell κ)} (hcs : ∀ c ∈ cs, c.kind = .flag) :
    foldCells .multiply .integer (.integer (if b then 1 else 0)) cs =
      .ok (.integer (if b && cs.all Cell.toBool then 1 else 0)) := by
  induction cs generalizing b with
  | nil =>
    rw [List.all_nil, Bool.and_true]
    rfl
  | cons c cs ih =>
    obtain ⟨d, rfl⟩ : ∃ d, c = .flag d := by
      have hc := hcs c List.mem_cons_self
      cases c <;> first | exact ⟨_, rfl⟩ | cases hc
    have hproduct : Elementwise.multiply.onTwo .integer (.integer (if b then 1 else 0) : Cell κ) (.flag d) =
        .ok (.integer (if b && d then 1 else 0)) := by cases b <;> cases d <;> rfl
    rw [foldCells, List.foldlM_cons, hproduct, List.all_cons, ← Bool.and_assoc]
    exact ih (b && d) fun c hc => hcs c (List.mem_cons_of_mem _ hc)

theorem foldl_or (b : Bool) (l : List Bool) : l.foldl or b = (b :: l).any id := by
  induction l generalizing b with
  | nil => exact (Bool.or_false b).symm
  | cons c l ih =>
    rw [List.foldl_cons, ih]
    exact Bool.or_assoc b c _

theorem foldl_and (b : Bool) (l : List Bool) : l.foldl and b = (b :: l).all id := by
  induction l generalizing b with
  | nil => exact (Bool.and_true b).symm
  | cons c l ih =>
    rw [List.foldl_cons, ih]
    exact Bool.and_assoc b c _

/-- the operation itself tells of truth values only whether any or all are true -/
theorem foldCells_flags {f : Elementwise} {op : Bool → Bool → Bool} (hf : f = .add ∧ op = or ∨ f = .multiply ∧ op = and)
    (b : Bool) {cs : List (Cell κ)} (hcs : ∀ c ∈ cs, c.kind = .flag) :
    foldCells f .flag (.flag b) cs = .ok (.flag ((cs.map Cell.toBool).foldl op b)) := by
  induction cs generalizing b with
  | nil => rfl
  | cons c cs ih =>
    obtain ⟨d, rfl⟩ : ∃ d, c = .flag d := by
      have hc := hcs c List.mem_cons_self
      cases c <;> first | exact ⟨_, rfl⟩ | cases hc
    have hstep : f.onTwo .flag (.flag b : Cell κ) (.flag d) = .ok (.flag (op b d)) := by
      rcases hf with ⟨rfl, rfl⟩ | ⟨rfl, rfl⟩ <;> rfl
    rw [foldCells, List.foldlM_cons, hstep]
    exact ih (op b d) fun c hc => hcs c (List.mem_cons_of_mem _ hc)

/-! ## Rows -/

/-- what the reduction of a row gives, beside what the function gives when it is folded over the row: truth values are
counted, and numbers are summed as a row -/
def Reduces (f : Elementwise) (t : Tensor κ) (cell folded : Cell κ) : Prop :=
  match f, t.kind with
  | .add, .flag => cell = .integer (wrapped (t.grid.entries.countP Cell.toBool)) ∧
    folded = .flag (t.grid.entries.any Cell.toBool)
  | .multiply, .flag => cell = .integer (if t.grid.entries.all Cell.toBool then 1 else 0) ∧
    folded = .flag (t.grid.entries.all Cell.toBool)
  | .add, .real => cell = .real (Numeric.add Numeric.zero (Numeric.rowSum t.numbers.entries)) ∧
    ∃ x xs, t.numbers.entries = x :: xs ∧ folded = .real (Numeric.addAll x xs)
  | _, _ => cell = folded

section Rows

variable {t : Tensor κ} (ht : t.IsUniform) {a b : Cell κ} {cs : List (Cell κ)}
  (hcells : t.grid.entries = a :: b :: cs) {k : Kind} {cell : Cell κ}

include ht hcells

omit [Numeric κ] in
theorem kind_front : a.kind = t.kind ∧ b.kind = t.kind ∧ ∀ c ∈ b :: cs, c.kind = t.kind := by
  have hall : ∀ c ∈ a :: b :: cs, c.kind = t.kind := hcells ▸ ht
  exact ⟨hall a List.mem_cons_self, hall b (by simp), fun c hc => hall c (List.mem_cons_of_mem a hc)⟩

theorem reduces_add (hk : Elementwise.add.foldingKind t.kind = .ok k)
    (hcell : foldRows .add k .usual [t.grid.entries] = .ok cell) : ∃ j folded, Elementwise.add.closedKind t.kind = .ok j ∧
      foldCells .add j (a.cast j) (b :: cs) = .ok folded ∧ Reduces .add t cell folded := by
  obtain ⟨ha, hb, hrest⟩ := kind_front ht hcells
  have hflags : t.kind = .flag → ∀ c ∈ t.grid.entries, c.kind = .flag := fun h c hc => (ht c hc).trans h
  have hwhole : Elementwise.add = .add → Kind.integer ≠ .real := by decide
  rw [foldRows_cell (a := .flag false) rfl] at hcell
  unfold Reduces
  cases hkind : t.kind with
  | flag =>
    rw [hkind] at ha hrest hk
    cases hk
    rw [foldRow_eq hwhole] at hcell
    have hcount := foldCells_count (n := 0) rfl (hflags hkind)
    rw [Int.zero_add] at hcount
    cases hcount.symm.trans hcell
    obtain ⟨x, rfl⟩ : ∃ x, a = .flag x := by cases a <;> first | exact ⟨_, rfl⟩ | cases ha
    have hany : ((b :: cs).map Cell.toBool).foldl or x = t.grid.entries.any Cell.toBool := by
      rw [hcells, foldl_or]
      rw [List.any_cons, List.any_map, Function.id_comp]
      rfl
    exact ⟨.flag, _, rfl, foldCells_flags (.inl ⟨rfl, rfl⟩) x hrest, rfl, congrArg Cell.flag hany⟩
  | integer =>
    rw [hkind] at ha hb hk
    cases hk
    rw [foldRow_eq hwhole, hcells] at hcell
    exact ⟨.integer, cell, rfl, (foldCells_whole (.inl ⟨rfl, rfl⟩) ha hb cs).symm.trans hcell, rfl⟩
  | real =>
    rw [hkind] at ha hk
    cases hk
    rw [foldRow_add] at hcell
    cases hcell
    obtain ⟨x, rfl⟩ : ∃ x, a = .real x := by cases a <;> first | exact ⟨_, rfl⟩ | cases ha
    refine ⟨.real, _, rfl, foldCells_add x (b :: cs), rfl, x, _, ?_, rfl⟩
    exact congrArg (List.map Cell.toNumber) hcells

theorem reduces_multiply [Numeric.Neutral κ] (hk : Elementwise.multiply.foldingKind t.kind = .ok k)
    (hcell : foldRows .multiply k .usual [t.grid.entries] = .ok cell) :
    ∃ j folded, Elementwise.multiply.closedKind t.kind = .ok j ∧ foldCells .multiply j (a.cast j) (b :: cs) = .ok folded ∧
      Reduces .multiply t cell folded := by
  obtain ⟨ha, hb, hrest⟩ := kind_front ht hcells
  have hflags : t.kind = .flag → ∀ c ∈ t.grid.entries, c.kind = .flag := fun h c hc => (ht c hc).trans h
  have hadd : Elementwise.multiply = .add → k ≠ .real := fun h => by cases h
  rw [foldRows_cell (a := .flag true) rfl, foldRow_eq hadd] at hcell
  unfold Reduces
  cases hkind : t.kind with
  | flag =>
    rw [hkind] at ha hrest hk
    cases hk
    cases (foldCells_allTrue true (hflags hkind)).symm.trans hcell
    obtain ⟨x, rfl⟩ : ∃ x, a = .flag x := by cases a <;> first | exact ⟨_, rfl⟩ | cases ha
    have hall : ((b :: cs).map Cell.toBool).foldl and x = t.grid.entries.all Cell.toBool := by
      rw [hcells, foldl_and]
      rw [List.all_cons, List.all_map, Function.id_comp]
      rfl
    exact ⟨.flag, _, rfl, foldCells_flags (.inr ⟨rfl, rfl⟩) x hrest, by rw [Bool.true_and], congrArg Cell.flag hall⟩
  | integer =>
    rw [hkind] at ha hb hk
    cases hk
    rw [hcells] at hcell
    exact ⟨.integer, cell, rfl, (foldCells_whole (.inr ⟨rfl, rfl⟩) ha hb cs).symm.trans hcell, rfl⟩
  | real =>
    rw [hkind] at ha hk
    cases hk
    obtain ⟨x, rfl⟩ : ∃ x, a = .real x := by cases a <;> first | exact ⟨_, rfl⟩ | cases ha
    rw [hcells] at hcell
    exact ⟨.real, cell, rfl, (foldCells_product x (b :: cs)).symm.trans hcell, rfl⟩

omit ht in
/-- other functions have no neutral cell, so their reductions are folds -/
theorem reduces_other {f : Elementwise} (hf : f ∈ [.subtract, .divide, .maximum, .minimum])
    (hk : f.foldingKind t.kind = .ok k) (hcell : foldRows f k .usual [t.grid.entries] = .ok cell) :
    ∃ j folded, f.closedKind t.kind = .ok j ∧ foldCells f j (a.cast j) (b :: cs) = .ok folded ∧
      Reduces f t cell folded := by
  have hnone : Start.usual.cell? f = (none : Option (Cell κ)) ∧ f ≠ .add ∧ f.closedKind t.kind = f.foldingKind t.kind ∧
      Reduces f t cell cell := by
    simp only [List.mem_cons, List.not_mem_nil, or_false] at hf
    rcases hf with rfl | rfl | rfl | rfl <;> exact ⟨rfl, nofun, rfl, rfl⟩
  obtain ⟨hstart, hadd, hclosed, hsame⟩ := hnone
  rw [hcells, foldRows_first hstart, foldRow_eq fun h => absurd h hadd] at hcell
  exact ⟨k, cell, hclosed.trans hk, hcell, hsame⟩

/-- **Reductions of rows** beside folds. -/
theorem reduces_row [Numeric.Neutral κ] {f : Elementwise} (hf : f ∈ Elementwise.folding)
    (hk : f.foldingKind t.kind = .ok k) (hcell : foldRows f k .usual [t.grid.entries] = .ok cell) :
    ∃ j folded, f.closedKind t.kind = .ok j ∧ foldCells f j (a.cast j) (b :: cs) = .ok folded ∧
      Reduces f t cell folded := by
  simp only [Elementwise.folding, List.mem_cons, List.not_mem_nil, or_false] at hf
  rcases hf with rfl | rfl | rfl | rfl | rfl | rfl
  case inl => exact reduces_add ht hcells hk hcell
  case inr.inr.inl => exact reduces_multiply ht hcells hk hcell
  all_goals exact reduces_other hcells (by decide) hk hcell

end Rows

/-- Fewer than eight numbers have the sum that adding them from the left gives. -/
theorem Reduces.short [Numeric.Neutral κ] {t : Tensor κ} (hreal : t.kind = .real) (hshort : t.grid.entries.length < 8)
    {cell folded : Cell κ} (h : Reduces .add t cell folded) :
    ∃ x, cell = .real (Numeric.add Numeric.zero x) ∧ folded = .real x := by
  unfold Reduces at h
  rw [hreal] at h
  obtain ⟨rfl, x, xs, hnumbers, rfl⟩ := h
  have hlength : (x :: xs).length < 8 := by
    rw [← hnumbers]
    exact (List.length_map _).trans_lt hshort
  rw [hnumbers, Numeric.rowSum_short (Nat.lt_of_succ_lt_succ hlength)]
  exact ⟨_, rfl, rfl⟩

-- eight tenths are added in pairs, which loses less
example : Numeric.rowSum (List.replicate 8 (0.1 : Float)) = 0.8 ∧
    Numeric.addAll (0.1 : Float) (List.replicate 7 0.1) = 0.7999999999999999 := by decide +kernel

/-- Exact numbers have one sum. -/
theorem Reduces.exact [Numeric ℝ] [Numeric.Exact] {f : Elementwise} {t : Tensor ℝ} (hflags : t.kind ≠ .flag)
    {cell folded : Cell ℝ} (h : Reduces f t cell folded) : cell = folded := by
  unfold Reduces at h
  split at h
  · next hflag => exact absurd hflag hflags
  · next hflag => exact absurd hflag hflags
  · obtain ⟨rfl, x, xs, hnumbers, rfl⟩ := h
    rw [hnumbers, Numeric.add_rowSum, Numeric.addAll_eq_sum, Numeric.addAll_eq_sum, Numeric.Exact.zero, zero_add,
      List.sum_cons]
  · exact h

end UnitAlgebra.Tensor

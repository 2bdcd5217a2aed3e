/-
Folds of a row of cells. What two cells give is of the kind that the function computes in, so a fold from the first cell
on computes in one kind. Over its one axis a row is folded as a whole: numbers are summed before they are added.

Results:
- `Grid.select_point`: the place of a point on a row.
- `Grid.rowsOver_row`: over its one axis a row is one row.
- `Elementwise.exists_onCells`: what two cells give has the kind that the function computes in.
- `Elementwise.computing_of_closedKind`: a fold computes in one kind.
- `Tensor.reduce_row`: a row folded over its axis is one cell.
-/
import UnitAlgebra.Proofs.Tensor.Boxes
import UnitAlgebra.Proofs.Tensor.Rows
import UnitAlgebra.Tensor.Index
import UnitAlgebra.Tensor.Reduce

namespace UnitAlgebra

/-! ## Rows -/

namespace Grid

variable {α : Type}

theorem Filled.length_row {g : Grid α} (h : g.Filled) {n : Nat} (hn : g.shape = [n]) : g.entries.length = n := by
  rw [h, hn]
  exact Nat.mul_one n

theorem forall₂_places {l rest : List α} {i : Nat} (h : l.drop i = rest) :
    List.Forall₂ (fun j a => l[j]? = some a) (List.range' i rest.length) rest := by
  induction rest generalizing i with
  | nil => exact .nil
  | cons a rest ih =>
    have ha : l[i]? = some a := by
      have hget : (l.drop i)[0]? = l[i + 0]? := List.getElem?_drop
      rw [← Nat.add_zero i, ← hget, h]
      rfl
    have hrest : l.drop (i + 1) = rest := by
      rw [← List.drop_drop, h]
      rfl
    rw [List.length_cons, List.range'_succ]
    exact .cons ha (ih hrest)

/-- The place of a point on a row. -/
theorem select_point {g : Grid α} {n : Nat} (hn : g.shape = [n]) {i : Int} {j : Nat} (hi : Index.place n i = .ok j)
    {a : α} (ha : g.entries[j]? = some a) : g.select [.point i] = .ok (scalar a) := by
  have hkey : Selector.ofKey g.shape [.point i] = .ok [.fixed j] := by
    rw [hn]
    change (Index.place n i >>= fun p => .ok [Selector.fixed p]) = _
    rw [hi]
    rfl
  have hat : g.at? [j] = some a := by
    rw [at?, hn]
    change g.entries[j * 1 + 0]? = some a
    rw [Nat.mul_one, Nat.add_zero, ha]
  have hgrid : g.selectBy [.fixed j] [] = scalar a := by
    change (⟨[], [g.at? [j]].filterMap id⟩ : Grid α) = scalar a
    rw [hat]
    rfl
  rw [select, hkey]
  exact congrArg Except.ok hgrid

theorem place_natCast {n i : Nat} (hi : i < n) : Index.place n i = .ok i := by
  have haxis : axis? n i = some i := by
    rw [axis?, if_pos ⟨Int.natCast_nonneg i, Int.ofNat_lt.2 hi⟩, Int.toNat_natCast]
  rw [Index.place, haxis]

theorem lt_of_place {n j : Nat} {i : Int} (h : Index.place n i = .ok j) : j < n := by
  unfold Index.place axis? at h
  split at h
  · next k hk =>
    cases h
    split at hk
    · cases hk
      omega
    · split at hk
      · cases hk
        omega
      · cases hk
  · cases h

theorem lanes_row {g : Grid α} (h : g.Filled) {n : Nat} (hn : g.shape = [n]) : g.lanes [0] = scalar g.entries := by
  obtain ⟨shape, entries⟩ := g
  subst hn
  have hcells : (indices [n]).filterMap (Grid.at? ⟨[n], entries⟩) = entries := by
    calc (indices [n]).filterMap (Grid.at? ⟨[n], entries⟩)
        = (indices [n]).filterMap fun i => Grid.at? ⟨[n], entries⟩ (readPlace [n] i) :=
          List.filterMap_congr fun i hi => by rw [readPlace_self (mem_indices.1 hi)]
      _ = entries := congrArg Grid.entries (broadcast_self h)
  have hlane : (indices [n]).filterMap (fun j => Grid.at? ⟨[n], entries⟩ [j.getD 0 0]) = entries := by
    refine (List.filterMap_congr fun j hj => ?_).trans hcells
    obtain ⟨i, _, -, hrest, rfl⟩ := List.forall₂_cons_right_iff.1 (mem_indices.1 hj)
    cases hrest
    rfl
  change (⟨[], [(indices [n]).filterMap fun j => Grid.at? ⟨[n], entries⟩ [j.getD 0 0]]⟩ : Grid (List α)) = _
  rw [hlane]
  rfl

/-- Over its one axis a row is one row. -/
theorem rowsOver_row {g : Grid α} (h : g.Filled) {n : Nat} (hn : g.shape = [n]) :
    g.rowsOver [0] false = scalar [g.entries] := by
  have hinner : innerAxis g.shape [0] = 0 := by simp [innerAxis, hn]
  have hrank : g.rank = 1 := congrArg List.length hn
  have hkept : keepAxes g.shape [0] false = [] := by rw [hn]; rfl
  have hlanes : g.lanes (List.range' 0 (1 - 0)) = scalar g.entries := lanes_row h hn
  simp only [rowsOver, hinner, hrank, hkept, hlanes]
  rfl

end Grid

/-! ## Two cells -/

namespace Cell

variable {κ : Type} [Numeric κ]

theorem cast_cast (k : Kind) (c : Cell κ) : (c.cast k).cast k = c.cast k := by
  have h := cast_kind (c.cast k)
  rwa [kind_cast] at h

end Cell

namespace Elementwise

variable {κ : Type} [Numeric κ]

/-- functions whose results can be their operands again -/
def folding : List Elementwise := [add, subtract, multiply, divide, maximum, minimum]

theorem exists_onCells {f : Elementwise} (hf : f ∈ folding) (k : Kind) (a b : Cell κ) :
    ∃ cell : Cell κ, f.onCells k [a, b] = .ok [cell] ∧ cell.kind = k := by
  simp only [folding, List.mem_cons, List.not_mem_nil, or_false] at hf
  cases k <;> cases a <;> cases b <;> rcases hf with rfl | rfl | rfl | rfl | rfl | rfl <;> exact ⟨_, rfl, rfl⟩

theorem onTwo_eq {f : Elementwise} {k : Kind} {a b cell : Cell κ} (h : f.onCells k [a, b] = .ok [cell]) :
    f.onTwo k a b = .ok cell := by
  unfold onTwo
  rw [h]
  rfl

theorem kind_onTwo {f : Elementwise} (hf : f ∈ folding) {k : Kind} {a b cell : Cell κ} (h : f.onTwo k a b = .ok cell) :
    cell.kind = k := by
  obtain ⟨d, hd, hkind⟩ := exists_onCells hf k a b
  rw [onTwo_eq hd] at h
  cases h
  exact hkind

/-- a first cell is taken to the kind that the function computes in -/
theorem onTwo_cast (f : Elementwise) (k : Kind) (a b : Cell κ) : f.onTwo k (a.cast k) b = f.onTwo k a b := by
  unfold onTwo onCells
  simp only [List.map_cons, Cell.cast_cast]

/-- A function computes in one kind, whatever it is that the function is given first. -/
theorem computing_of_closedKind {f : Elementwise} (hf : f ∈ folding) {k₀ k : Kind} (hk : f.closedKind k₀ = .ok k) :
    f.computing (Kind.joinAll [k₀, k₀]) = some k ∧ f.computing (Kind.joinAll [k, k₀]) = some k := by
  simp only [folding, List.mem_cons, List.not_mem_nil, or_false] at hf
  cases k₀ <;> rcases hf with rfl | rfl | rfl | rfl | rfl | rfl <;> cases hk <;> exact ⟨rfl, rfl⟩

end Elementwise

/-! ## Folds -/

namespace Tensor

variable {κ : Type} [Numeric κ]

theorem foldCells_add (x : κ) (cs : List (Cell κ)) :
    foldCells .add .real (.real x) cs = .ok (.real (Numeric.addAll x (cs.map Cell.toNumber))) := by
  induction cs generalizing x with
  | nil => rfl
  | cons c cs ih => exact ih (Numeric.add x c.toNumber)

/-- numbers in a row are summed before they are added -/
theorem foldRow_add (a : Cell κ) (row : List (Cell κ)) :
    foldRow .add .real a row = .ok (.real (Numeric.add a.toNumber (Numeric.rowSum (row.map Cell.toNumber)))) := by
  cases a <;> rfl

/-- all else is folded cell by cell -/
theorem foldRow_eq {f : Elementwise} {k : Kind} (h : f = .add → k ≠ .real) (a : Cell κ) (row : List (Cell κ)) :
    foldRow f k a row = foldCells f k a row := by
  unfold foldRow
  split
  · exact absurd rfl (h rfl)
  · rfl

theorem foldRows_cell {f : Elementwise} {start : Start κ} {a : Cell κ} (ha : start.cell? f = some a) (k : Kind)
    (row : List (Cell κ)) : foldRows f k start [row] = foldRow f k (a.cast k) row := by
  unfold foldRows
  rw [ha]
  exact bind_pure _

theorem foldRows_first {f : Elementwise} {start : Start κ} (hstart : start.cell? f = none) (k : Kind) (c : Cell κ)
    (row : List (Cell κ)) : foldRows f k start [c :: row] = foldRow f k (c.cast k) row := by
  unfold foldRows
  rw [hstart]
  exact bind_pure _

/-- A row folded over its axis is one cell. -/
theorem reduce_row {f : Elementwise} {t r : Tensor κ} (ht : t.grid.Filled) {n : Nat} (hn : t.grid.shape = [n])
    (start : Start κ) :
    t.reduce f [0] false start none none = .ok r ↔ ∃ k cell, f.foldingKind t.kind = .ok k ∧
      foldRows f k start [t.grid.entries] = .ok cell ∧ r = ⟨k, .scalar cell⟩ := by
  have hrows : t.grid.rowsOver [0] false = .scalar [t.grid.entries] := Grid.rowsOver_row ht hn
  have hrun : t.reduce f [0] false start none none = (f.foldingKind t.kind >>= fun k =>
      [[t.grid.entries]].mapM (foldRows f k start) >>= fun cells => .ok ⟨k, [], cells⟩) := by
    unfold reduce
    simp only [rowsThrough, hrows]
    rfl
  rw [hrun, Outcome.bind_eq_ok_iff]
  refine exists_congr fun k => ?_
  simp only [List.mapM_cons, List.mapM_nil, Outcome.bind_eq_ok_iff]
  constructor
  · rintro ⟨hk, cells, ⟨cell, hcell, rest, hrest, hcells⟩, h⟩
    cases hrest
    cases hcells
    cases h
    exact ⟨cell, hk, hcell, rfl⟩
  · rintro ⟨cell, hk, hcell, rfl⟩
    exact ⟨hk, _, ⟨cell, hcell, [], rfl, rfl⟩, rfl⟩

end Tensor

end UnitAlgebra

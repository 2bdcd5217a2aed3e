/-
Elementwise functions row by row. The cells of one place, one from each operand, make a row; a function on tensors is the
function on all rows. So a law about a function on rows of numbers is a law about it on tensors.

Results:
- `mapM_eq_ok_iff`: what is made of every element of a list.
- `elementwise_eq_ok_iff`: a function on tensors is the function on all rows.
- `exists_row`: operands that are repeated over a box have a full row at every place of it.
- `elementwise_column`: a tensor beside single cells is computed cell by cell.
- `elementwise_scaled`: a scaling law for rows is one for tensors.
-/
import UnitAlgebra.Tensor.Elementwise
import UnitAlgebra.Proofs.Tensor.Boxes

namespace UnitAlgebra

/-! ## Outcomes -/

namespace Outcome

variable {α β : Type}

theorem bind_eq_ok_iff {o : Outcome α} {f : α → Outcome β} {b : β} :
    o >>= f = .ok b ↔ ∃ a, o = .ok a ∧ f a = .ok b := by
  cases o with
  | error fault => exact ⟨nofun, fun ⟨_, h, _⟩ => nomatch h⟩
  | ok a =>
    constructor
    · intro h
      exact ⟨a, rfl, h⟩
    · rintro ⟨_, ha, h⟩
      cases ha
      exact h

/-- What is made of every element of a list. -/
theorem mapM_eq_ok_iff {f : α → Outcome β} {l : List α} {bs : List β} :
    l.mapM f = .ok bs ↔ List.Forall₂ (fun a b => f a = .ok b) l bs := by
  induction l generalizing bs with
  | nil =>
    rw [List.mapM_nil, List.forall₂_nil_left_iff]
    exact ⟨fun h => (Except.ok.inj h).symm, fun h => h ▸ rfl⟩
  | cons a l ih =>
    rw [List.mapM_cons, List.forall₂_cons_left_iff, bind_eq_ok_iff]
    constructor
    · rintro ⟨b, hb, h⟩
      obtain ⟨rest, hrest, h⟩ := bind_eq_ok_iff.1 h
      cases h
      exact ⟨b, rest, hb, ih.1 hrest, rfl⟩
    · rintro ⟨b, rest, hb, hrest, rfl⟩
      exact ⟨b, hb, bind_eq_ok_iff.2 ⟨rest, ih.2 hrest, rfl⟩⟩

end Outcome

theorem exists_partner {α β : Type} {R : α → β → Prop} {as : List α} {bs : List β} (h : List.Forall₂ R as bs) {a : α}
    (ha : a ∈ as) : ∃ b ∈ bs, R a b := by
  induction h with
  | nil => cases ha
  | cons hab _ ih =>
    rcases List.mem_cons.1 ha with rfl | ha
    · exact ⟨_, List.mem_cons_self, hab⟩
    · obtain ⟨b, hb, hR⟩ := ih ha
      exact ⟨b, List.mem_cons_of_mem _ hb, hR⟩

theorem forall₂_heads {α β : Type} {S : α → List β → Prop} {R : α → β → Prop} {as : List α} {outs : List (List β)}
    (h : List.Forall₂ S as outs) (hone : ∀ a ∈ as, ∀ out, S a out → ∃ b, out = [b] ∧ R a b) :
    List.Forall₂ R as (outs.filterMap (·[0]?)) := by
  induction h with
  | nil => exact .nil
  | @cons a out as outs hout _ ih =>
    obtain ⟨b, rfl, hb⟩ := hone a List.mem_cons_self out hout
    exact .cons hb (ih fun x hx => hone x (List.mem_cons_of_mem a hx))

namespace Tensor

variable {κ : Type} [Numeric κ]

/-! ## Rows -/

/-- the cells of one place of a box, from operands that are repeated over it -/
def row (ts : List (Tensor κ)) (shape : List Nat) (i : Nat) : List (Cell κ) :=
  (ts.map fun t => (t.grid.broadcast shape).entries).filterMap (·[i]?)

/-- A function on tensors is the function on all rows. -/
theorem elementwise_eq_ok_iff {f : Elementwise} {ts rs : List (Tensor κ)} :
    elementwise f ts = .ok rs ↔ ∃ k shape cells, f.computing (Kind.joinAll (ts.map Tensor.kind)) = some k ∧
      Grid.sharedShapes (ts.map (·.grid.shape)) = some shape ∧
      List.Forall₂ (fun i c => f.onCells k (row ts shape i) = .ok c) (List.range (Grid.volume shape)) cells ∧
      rs = (List.range f.results).map fun j => ⟨f.resultKindAt k j, shape, cells.filterMap (·[j]?)⟩ := by
  unfold elementwise
  cases hk : f.computing (Kind.joinAll (ts.map Tensor.kind)) with
  | none => exact ⟨nofun, fun ⟨_, _, _, h, _⟩ => nomatch h⟩
  | some k =>
    cases hs : Grid.sharedShapes (ts.map (·.grid.shape)) with
    | none => exact ⟨nofun, fun ⟨_, _, _, _, h, _⟩ => nomatch h⟩
    | some shape =>
      simp only [Outcome.bind_eq_ok_iff, Outcome.mapM_eq_ok_iff, List.forall₂_map_left_iff]
      constructor
      · rintro ⟨cells, hcells, h⟩
        exact ⟨k, shape, cells, rfl, rfl, hcells, (Except.ok.inj h).symm⟩
      · rintro ⟨_, _, cells, hk, hs, hcells, rfl⟩
        cases hk
        cases hs
        exact ⟨cells, hcells, rfl⟩

omit [Numeric κ] in
/-- Operands that are repeated over a box have a full row at every place of it. -/
theorem exists_row {ts : List (Tensor κ)} {shape : List Nat} (hf : ∀ t ∈ ts, t.grid.Filled)
    (hs : ∀ t ∈ ts, Grid.Fits t.grid.shape shape) {i : Nat} (hi : i < Grid.volume shape) :
    List.Forall₂ (fun c t => (t.grid.broadcast shape).entries[i]? = some c) (row ts shape i) ts := by
  induction ts with
  | nil => exact .nil
  | cons t ts ih =>
    have hlt : i < (t.grid.broadcast shape).entries.length := by
      rwa [(hf t List.mem_cons_self).length_broadcast (hs t List.mem_cons_self)]
    have hget := List.getElem?_eq_getElem hlt
    have hrest := ih (fun u hu => hf u (List.mem_cons_of_mem t hu)) fun u hu => hs u (List.mem_cons_of_mem t hu)
    have hrow : row (t :: ts) shape i = (t.grid.broadcast shape).entries[i] :: row ts shape i := by
      simp only [row, List.map_cons, List.filterMap_cons, hget]
    rw [hrow]
    exact .cons hget hrest

omit [Numeric κ] in
/-- the cells of a row are determined by the operands -/
theorem row_eq {ts : List (Tensor κ)} {shape : List Nat} {i : Nat} {cs : List (Cell κ)}
    (h : List.Forall₂ (fun c t => (t.grid.broadcast shape).entries[i]? = some c) cs ts) : row ts shape i = cs := by
  induction h with
  | nil => rfl
  | cons hc _ ih =>
    simp only [row, List.map_cons, List.filterMap_cons, hc]
    exact congrArg (List.cons _) ih

/-- the cells of one place of the box that operands share -/
def IsRow (ts : List (Tensor κ)) (cs : List (Cell κ)) : Prop :=
  ∃ shape i, Grid.sharedShapes (ts.map (·.grid.shape)) = some shape ∧ i < Grid.volume shape ∧ cs = row ts shape i

/-! ## Columns -/

omit [Numeric κ] in
theorem sharedReversed_nil (shape : List Nat) : Grid.sharedReversed shape [] = some shape := by cases shape <;> rfl

omit [Numeric κ] in
/-- single values share the box of what they stand beside -/
theorem sharedShapes_singles (shape : List Nat) {shapes : List (List Nat)} (h : ∀ s ∈ shapes, s = []) :
    Grid.sharedShapes (shape :: shapes) = some shape := by
  have hright : Grid.sharedShape shape [] = some shape := by
    simp [Grid.sharedShape, sharedReversed_nil]
  have hleft : Grid.sharedShape [] shape = some shape := by simp [Grid.sharedShape, Grid.sharedReversed]
  have hrest : shapes.foldlM Grid.sharedShape shape = some shape := by
    induction shapes with
    | nil => rfl
    | cons s shapes ih =>
      rw [List.foldlM_cons, h s List.mem_cons_self, hright]
      exact ih fun t ht => h t (List.mem_cons_of_mem s ht)
  rw [Grid.sharedShapes, List.foldlM_cons, hleft]
  exact hrest

omit [Numeric κ] in
theorem singles_beside {ws : List (Tensor κ)} {cs l : List (Cell κ)} {shape : List Nat} {i : Nat}
    (hws : List.Forall₂ (fun w c => w.grid = .scalar c) ws cs)
    (hl : List.Forall₂ (fun c w => (w.grid.broadcast shape).entries[i]? = some c) l ws) : l = cs := by
  induction hws generalizing l with
  | nil =>
    cases hl
    rfl
  | cons hwc _ ih =>
    cases hl with
    | cons hc hrest =>
      rw [hwc] at hc
      rw [List.mem_singleton.1 (Grid.mem_of_mem_broadcast (List.mem_of_getElem? hc)), ih hrest]

/-- A full tensor beside single cells is computed cell by cell. -/
theorem elementwise_column {f : Elementwise} (hone : f.results = 1) {t : Tensor κ} (ht : t.grid.Filled)
    {ws : List (Tensor κ)} {cs : List (Cell κ)} (hws : List.Forall₂ (fun w c => w.grid = .scalar c) ws cs)
    {rs : List (Tensor κ)} : elementwise f (t :: ws) = .ok rs ↔
      ∃ k outs, f.computing (Kind.joinAll ((t :: ws).map Tensor.kind)) = some k ∧
        List.Forall₂ (fun c out => f.onCells k (c :: cs) = .ok out) t.grid.entries outs ∧
        rs = [⟨f.resultKindAt k 0, t.grid.shape, outs.filterMap (·[0]?)⟩] := by
  have hshapes : Grid.sharedShapes ((t :: ws).map (·.grid.shape)) = some t.grid.shape := by
    refine sharedShapes_singles _ fun s hs => ?_
    obtain ⟨w, hw, rfl⟩ := List.mem_map.1 hs
    obtain ⟨c, -, hc⟩ := exists_partner hws hw
    rw [hc]
    rfl
  have hfilled : ∀ u ∈ t :: ws, u.grid.Filled := by
    refine List.forall_mem_cons.2 ⟨ht, fun w hw => ?_⟩
    obtain ⟨c, -, hc⟩ := exists_partner hws hw
    rw [hc]
    exact Grid.filled_scalar c
  have hfits : ∀ u ∈ t :: ws, Grid.Fits u.grid.shape t.grid.shape := fun u hu =>
    Grid.fits_sharedShapes hshapes _ (List.mem_map_of_mem hu)
  have hlength : (List.range (Grid.volume t.grid.shape)).length = t.grid.entries.length := by rw [List.length_range, ht]
  have hrow : ∀ i (hi : i < t.grid.entries.length), row (t :: ws) t.grid.shape i = t.grid.entries[i] :: cs := by
    intro i hi
    have hall := exists_row hfilled hfits (i := i) (by rwa [← ht])
    rw [List.forall₂_cons_right_iff] at hall
    obtain ⟨c, l, hc, hl, hrow⟩ := hall
    rw [Grid.broadcast_self ht, List.getElem?_eq_getElem hi, Option.some.injEq] at hc
    rw [hrow, hc, singles_beside hws hl]
  have hrows : ∀ {k : Kind} {outs : List (List (Cell κ))},
      List.Forall₂ (fun i out => f.onCells k (row (t :: ws) t.grid.shape i) = .ok out)
        (List.range (Grid.volume t.grid.shape)) outs ↔
      List.Forall₂ (fun c out => f.onCells k (c :: cs) = .ok out) t.grid.entries outs := by
    intro k outs
    simp only [List.forall₂_iff_get, hlength, List.get_eq_getElem, List.getElem_range]
    refine and_congr_right fun _ => forall_congr' fun i => forall_congr' fun hi => ?_
    rw [hrow i (hlength ▸ hi)]
  rw [elementwise_eq_ok_iff]
  constructor
  · rintro ⟨k, shape, outs, hk, hs, houts, rfl⟩
    cases hshapes.symm.trans hs
    exact ⟨k, outs, hk, hrows.1 houts, by rw [hone]; rfl⟩
  · rintro ⟨k, outs, hk, houts, rfl⟩
    exact ⟨k, _, outs, hk, hshapes, hrows.2 houts, by rw [hone]; rfl⟩

/-! ## Tensors of numbers -/

/-- the numbers of a tensor -/
def numbers (t : Tensor κ) : Grid κ := t.grid.map Cell.toNumber

/-- numbers as a tensor -/
def ofNumbers (g : Grid κ) : Tensor κ := ⟨.real, g.map .real⟩

theorem numbers_ofNumbers (g : Grid κ) : (ofNumbers g).numbers = g := by
  simp [numbers, ofNumbers, Function.comp_def, Cell.toNumber, Grid.map]

/-- an operand and a factor for its numbers -/
abbrev Weighted (κ : Type) : Type := Tensor κ × κ

/-- the numbers of an operand, times its factor -/
def Weighted.tensor (q : Weighted κ) : Tensor κ := ofNumbers (q.1.numbers.map (Numeric.mul · q.2))

/-- a cell as a number, times a factor -/
def weigh (c : Cell κ) (q : Weighted κ) : Cell κ := .real (Numeric.mul c.toNumber q.2)

theorem grid_weighted (q : Weighted κ) : q.tensor.grid = q.1.grid.map (weigh · q) := by
  simp [Weighted.tensor, ofNumbers, numbers, Grid.map, weigh, Function.comp_def]

theorem joinAll_weighted {qs : List (Weighted κ)} : Kind.joinAll ((qs.map Weighted.tensor).map Tensor.kind) = .real := by
  have all : ∀ l : List (Weighted κ), ((l.map Weighted.tensor).map Tensor.kind).foldl Kind.join .real = .real := by
    intro l
    induction l with
    | nil => rfl
    | cons q l ih => exact ih
  cases qs with
  | nil => rfl
  | cons q qs => exact all qs

theorem row_weighted {qs : List (Weighted κ)} {shape : List Nat} {i : Nat} {cs : List (Cell κ)}
    (h : List.Forall₂ (fun c t => (t.grid.broadcast shape).entries[i]? = some c) cs (qs.map Prod.fst)) :
    row (qs.map Weighted.tensor) shape i = List.zipWith weigh cs qs := by
  refine row_eq ?_
  rw [List.forall₂_map_right_iff] at h ⊢
  induction h with
  | nil => exact .nil
  | cons hc _ ih =>
    refine .cons ?_ ih
    rw [grid_weighted, ← Grid.map_broadcast, Grid.map, List.getElem?_map, hc]
    rfl

/-- **Laws for rows are laws for tensors.** When a function on rows of cells gives, but for a factor, what it gives on
the weighted numbers, then so it does on tensors. -/
theorem elementwise_weighted {f : Elementwise} (hf : f.results = 1) (hreal : f.computing .real = some .real)
    {qs : List (Weighted κ)} (hfilled : ∀ q ∈ qs, q.1.grid.Filled) {g : κ → κ}
    (hlaw : ∀ k, f.computing (Kind.joinAll ((qs.map Prod.fst).map Tensor.kind)) = some k → ∀ cs out,
      IsRow (qs.map Prod.fst) cs → List.Forall₂ (fun c t => c ∈ t.grid.entries) cs (qs.map Prod.fst) →
      f.onCells k cs = .ok out → ∃ c d, out = [c] ∧ f.onCells .real (List.zipWith weigh cs qs) = .ok [d] ∧ d.toNumber = g c.toNumber)
    {rs : List (Tensor κ)} (h : elementwise f (qs.map Prod.fst) = .ok rs) :
    ∃ r t, rs = [r] ∧ elementwise f (qs.map Weighted.tensor) = .ok [t] ∧ t.numbers = r.numbers.map g := by
  obtain ⟨k, shape, outs, hk, hshape, houts, rfl⟩ := elementwise_eq_ok_iff.1 h
  have hfits : ∀ t ∈ qs.map Prod.fst, Grid.Fits t.grid.shape shape := fun t ht =>
    Grid.fits_sharedShapes hshape _ (List.mem_map_of_mem ht)
  have hfull : ∀ t ∈ qs.map Prod.fst, t.grid.Filled := by
    intro t ht
    obtain ⟨q, hq, rfl⟩ := List.mem_map.1 ht
    exact hfilled q hq
  -- every row gives one cell, and the weighted row the cell that belongs to it
  have hrows : ∀ i ∈ List.range (Grid.volume shape), ∀ out, f.onCells k (row (qs.map Prod.fst) shape i) = .ok out →
      ∃ c d, out = [c] ∧ f.onCells .real (row (qs.map Weighted.tensor) shape i) = .ok [d] ∧
        d.toNumber = g c.toNumber := by
    intro i hi out hout
    have hrow := exists_row hfull hfits (List.mem_range.1 hi)
    rw [row_weighted hrow]
    refine hlaw k hk _ out ⟨shape, i, hshape, List.mem_range.1 hi, rfl⟩ (hrow.imp fun c t hc => ?_) hout
    exact Grid.mem_of_mem_broadcast (List.mem_of_getElem? hc)
  have hcells : ∃ ds : List (Cell κ), List.Forall₂
      (fun i d => f.onCells .real (row (qs.map Weighted.tensor) shape i) = .ok d) (List.range (Grid.volume shape))
        (ds.map fun d => [d]) ∧ ds.map Cell.toNumber = (outs.filterMap (·[0]?)).map fun c => g c.toNumber := by
    clear h
    generalize List.range (Grid.volume shape) = is at houts hrows
    induction houts with
    | nil => exact ⟨[], .nil, rfl⟩
    | @cons i out is outs hout _ ih =>
      obtain ⟨c, d, rfl, hd, hnumber⟩ := hrows i List.mem_cons_self out hout
      obtain ⟨ds, hds, hrest⟩ := ih fun j hj => hrows j (List.mem_cons_of_mem i hj)
      exact ⟨d :: ds, .cons hd hds, congrArg₂ List.cons hnumber hrest⟩
  obtain ⟨ds, hds, hnumbers⟩ := hcells
  refine ⟨_, ⟨f.resultKindAt .real 0, shape, ds⟩, by rw [hf]; rfl, ?_, ?_⟩
  · refine elementwise_eq_ok_iff.2 ⟨.real, shape, ds.map fun d => [d], ?_, ?_, hds, ?_⟩
    · rw [joinAll_weighted, hreal]
    · rw [← hshape, List.map_map, List.map_map]
      rfl
    · rw [hf]
      simp [List.range_succ, List.filterMap_map]
  · simp only [numbers, Grid.map, hnumbers, List.map_map]
    rfl

end Tensor

end UnitAlgebra

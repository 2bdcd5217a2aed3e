/-
Scaled tensors. Where the numbers of a tensor are those of another times a factor, so are those of their folds, running
folds, statistics, products and joints, by the factor that belongs to them: a variance has the square of the factor, and
a dot product the product of two.

Results:
- `reduce_scaled`, `accumulate_scaled`: folds over axes and along an axis.
- `mean_scaled`, `variance_scaled`, `deviation_scaled`: statistics.
- `dot_scaled`: products that sum over an axis.
- `joined_scaled`: tensors that are put together.
-/
import UnitAlgebra.Proofs.Session.Memory
import UnitAlgebra.Proofs.Tensor.ScaledFolds
import UnitAlgebra.Quantity.ArrayFunction

namespace UnitAlgebra

variable [Numeric ℝ]

namespace Tensor

/-- the numbers of a tensor times a factor, as far as its cells know them -/
structure Scaled (P : Kind → Cell ℝ → ℝ → Prop) (w : ℝ) (t t' : Tensor ℝ) : Prop where
  kind : t'.kind = .real
  grid : t.grid.Related (Weighing (P t.kind) w) t'.grid

variable {P : Kind → Cell ℝ → ℝ → Prop} {w v : ℝ} {t t' r : Tensor ℝ} {axes : List Nat} {keep : Bool}

omit [Numeric ℝ] in
theorem Scaled.imp {Q : Kind → Cell ℝ → ℝ → Prop} (h : Scaled P w t t') (himp : ∀ c x, P t.kind c x → Q t.kind c x) :
    Scaled Q w t t' := by
  refine ⟨h.kind, h.grid.imp ?_⟩
  rintro c c' ⟨x, hx, rfl⟩
  exact ⟨x, himp c x hx, rfl⟩

/-! ## Folds -/

theorem scaled_ofNumbers (h : t.IsUniform) (w : ℝ) : Scaled Cell.Equals w t (ofNumbers (t.numbers.map (· * w))) := by
  refine ⟨rfl, rfl, ?_⟩
  rw [numbers, ofNumbers, Grid.map_map, Grid.map_map]
  refine List.forall₂_map_right_iff.2 (List.forall₂_same.2 fun c hc => ?_)
  exact ⟨c.toNumber, ⟨h c hc, rfl⟩, rfl⟩

omit [Numeric ℝ] in
theorem Scaled.uniform (h : Scaled P w t t') (hP : ∀ {k c x}, P k c x → c.kind = k) : t.IsUniform ∧ t'.IsUniform := by
  constructor
  · intro c hc
    obtain ⟨c', -, x, hx, -⟩ := exists_partner h.grid.entries hc
    exact hP hx
  · intro c' hc'
    obtain ⟨c, -, x, -, rfl⟩ := exists_partner h.grid.entries.flip hc'
    exact h.kind.symm

/-- **The numbers of a tensor, times a factor**, if its kind holds what is exact. -/
theorem Scaled.numbers (h : Scaled Cell.Renders w r t') (hw : w ≠ 0)
    (hholds : ∀ y ∈ t'.numbers.entries, r.kind.Holds (y / w)) : r.numbers.map (· * w) = t'.numbers := by
  obtain ⟨hshape, hentries⟩ := h.grid
  have hcells : ∀ {cs cs' : List (Cell ℝ)}, List.Forall₂ (Weighing (Cell.Renders r.kind) w) cs cs' →
      (∀ y ∈ cs'.map Cell.toNumber, r.kind.Holds (y / w)) →
      (cs.map Cell.toNumber).map (· * w) = cs'.map Cell.toNumber := by
    intro cs cs' hcs hall
    induction hcs with
    | nil => rfl
    | @cons c c' cs cs' hc _ ih =>
      obtain ⟨x, ⟨-, hx⟩, rfl⟩ := hc
      have hy := hall (x * w) List.mem_cons_self
      rw [mul_div_cancel_right₀ x hw] at hy
      refine congrArg₂ List.cons ?_ (ih fun y hy => hall y (List.mem_cons_of_mem _ hy))
      change c.toNumber * w = x * w
      rw [hx hy]
  exact congrArg₂ Grid.mk hshape (hcells hentries hholds)

theorem reduce_eq_ok_iff {f : Elementwise} {start : Start ℝ} {mask : Option (Grid Bool)} {into : Option Kind} :
    t.reduce f axes keep start mask into = .ok r ↔ ∃ k rows cells, f.kindOfFold into t.kind = .ok k ∧
      (1 < axes.length && !f.isReorderable) = false ∧ (mask.isSome && (start.cell? f).isNone) = false ∧
      rowsThrough t.grid axes keep mask = .ok rows ∧ rows.entries.mapM (foldRows f k start) = .ok cells ∧
      r = ⟨k, rows.shape, cells⟩ := by
  have hrun : t.reduce f axes keep start mask into = (f.kindOfFold into t.kind >>= fun k =>
      (if 1 < axes.length && !f.isReorderable then .error (.badValue none) else .ok ()) >>= fun _ =>
      (if mask.isSome && (start.cell? f).isNone then .error (.badValue none) else .ok ()) >>= fun _ =>
      rowsThrough t.grid axes keep mask >>= fun rows =>
      rows.entries.mapM (foldRows f k start) >>= fun cells => .ok ⟨k, rows.shape, cells⟩) := by
    unfold reduce
    refine bind_congr fun k => ?_
    cases 1 < axes.length && !f.isReorderable with
    | true => rfl
    | false => cases mask.isSome && (start.cell? f).isNone <;> rfl
  have hguard {b : Bool} {u : Unit} : (if b then Except.error (.badValue none) else .ok () : Outcome Unit) = .ok u ↔
      b = false := by cases b <;> simp
  simp only [hrun, Outcome.bind_eq_ok_iff, hguard]
  constructor
  · rintro ⟨k, hk, -, hreorder, -, hbegins, rows, hrows, cells, hcells, h⟩
    cases h
    exact ⟨k, rows, cells, hk, hreorder, hbegins, hrows, hcells, rfl⟩
  · rintro ⟨k, rows, cells, hk, hreorder, hbegins, hrows, hcells, rfl⟩
    exact ⟨k, hk, (), hreorder, (), hbegins, rows, hrows, cells, hcells, rfl⟩

omit [Numeric ℝ] in
theorem stretches_related {R : Cell ℝ → Cell ℝ → Prop} {row row' : List (Option (Cell ℝ))}
    (h : List.Forall₂ (Option.Rel R) row row') : List.Forall₂ (List.Forall₂ R) (stretches row) (stretches row') := by
  induction h with
  | nil => exact .nil
  | cons hab hrest ih =>
    cases hab with
    | none => exact ih
    | some hab =>
      cases hrest with
      | nil => exact .cons (.cons hab .nil) .nil
      | cons hcd _ =>
        unfold stretches
        cases hcd with
        | none => exact .cons (.cons hab .nil) ih
        | some _ =>
          revert ih
          generalize stretches (some _ :: _) = l
          generalize stretches (some _ :: _) = l'
          intro ih
          cases ih with
          | nil => exact .cons (.cons hab .nil) .nil
          | cons hfirst hlater => exact .cons (.cons hab hfirst) hlater

omit [Numeric ℝ] in
theorem rowsThrough_related {R : Cell ℝ → Cell ℝ → Prop} {g g' : Grid (Cell ℝ)} (hr : g.Related R g')
    {mask : Option (Grid Bool)} {rows : Grid (List (List (Cell ℝ)))} (h : rowsThrough g axes keep mask = .ok rows) :
    ∃ rows', rowsThrough g' axes keep mask = .ok rows' ∧ rows.Related (List.Forall₂ (List.Forall₂ R)) rows' := by
  cases mask with
  | none =>
    cases h
    exact ⟨_, rfl, hr.rowsOver axes keep⟩
  | some m =>
    unfold rowsThrough at h ⊢
    have hlet : ∀ a b (c : Bool), R a b → Option.Rel R (if c then some a else none) (if c then some b else none) := by
      rintro a b (_ | _) hab
      exacts [.none, .some hab]
    simp only at h ⊢
    split at h
    · next z hz =>
      cases h
      obtain ⟨z', hz', hrelated⟩ := hr.zipWith hlet hz
      rw [hz']
      refine ⟨_, rfl, (hrelated.rowsOver axes keep).map fun l l' hl => ?_⟩
      exact List.rel_flatMap hl fun _ _ hrow => stretches_related hrow
    · cases h

section Folds

variable [Numeric.Exact] {f : Elementwise} (hf : ∀ k, Simulates f k (P k)) (hw : 0 < w)

include hf hw

/-- **Folds over axes**, from whatever they begin with, over the cells that a mask lets through. -/
theorem reduce_scaled (ht : Scaled Cell.Equals w t t') {mask : Option (Grid Bool)} {start start' : Start ℝ}
    {into : Option Kind} (h : t.reduce f axes keep start mask into = .ok r)
    (hstart : Start.Rel (fun a a' => Weighing (P r.kind) w (a.cast r.kind) a') start start') :
    ∃ r', t'.reduce f axes keep start' mask none = .ok r' ∧ Scaled P w r r' := by
  obtain ⟨k, rows, cells, hk, hreorder, hbegins, hrows, hcells, rfl⟩ := reduce_eq_ok_iff.1 h
  have hraw := ht.grid.imp fun _ _ hc => (hf k).cast ((hf k).rank hk) hc
  obtain ⟨rows', hrows', hrelated⟩ := rowsThrough_related hraw hrows
  have hfold : ∀ l l', List.Forall₂ (List.Forall₂ fun c c' => Weighing (P k) w (c.cast k) c') l l' → ∀ {c},
      foldRows f k start l = .ok c → ∃ c', foldRows f .real start' l' = .ok c' ∧ Weighing (P k) w c c' :=
    fun l l' hl _ hc => (hf k).foldRows hw hstart hl hc
  obtain ⟨cells', hcells', hresults⟩ := hrelated.mapM hfold hcells
  have hcell : (start'.cell? f).isNone = (start.cell? f).isNone := by
    have hrel := (hf k).weighing_start hstart
    generalize start.cell? f = o at hrel ⊢
    generalize start'.cell? f = o' at hrel ⊢
    cases hrel <;> rfl
  refine ⟨⟨.real, rows'.shape, cells'⟩, ?_, rfl, hresults⟩
  exact reduce_eq_ok_iff.2
    ⟨.real, rows', cells', by rw [ht.kind, (hf k).real], hreorder, hcell ▸ hbegins, hrows', hcells', rfl⟩

/-- **Running folds along an axis.** -/
theorem accumulate_scaled (ht : Scaled Cell.Equals w t t') {a : Nat} {into : Option Kind}
    (h : t.accumulate f a into = .ok r) :
    ∃ r', t'.accumulate f a none = .ok r' ∧ Scaled P w r r' := by
  obtain ⟨k, hk, h⟩ := Outcome.bind_eq_ok_iff.1 h
  obtain ⟨done, hdone, h⟩ := Outcome.bind_eq_ok_iff.1 h
  cases h
  have hraw := ht.grid.imp fun _ _ hc => (hf k).cast ((hf k).rank hk) hc
  obtain ⟨done', hdone', hrelated⟩ := (hraw.lanes [a]).mapM (fun l l' hl _ hc => (hf k).runningFolds hw hl hc) hdone
  have hkind : f.kindOfFold none t'.kind = .ok .real := by rw [ht.kind]; exact (hf k).real
  refine ⟨_, Outcome.bind_eq_ok_iff.2 ⟨_, hkind, Outcome.bind_eq_ok_iff.2 ⟨_, hdone', rfl⟩⟩, rfl, ht.grid.shape, ?_⟩
  rw [← ht.grid.shape]
  refine forall₂_filterMap (fun i => ?_) _
  exact rel_bind (hrelated.at? (i.take a ++ i.drop (a + 1))) fun _ _ hl => forall₂_getElem? hl (i.getD a 0)

end Folds

/-! ## Rows -/

/-- a function with one result is the function on all rows -/
theorem elementwise_rows {f : Elementwise} (hone : f.results = 1) {ts ts' : List (Tensor ℝ)}
    (hshapes : ts.map (·.grid.shape) = ts'.map (·.grid.shape)) {k k' : Kind}
    (hk : f.computing (Kind.joinAll (ts.map Tensor.kind)) = some k)
    (hk' : f.computing (Kind.joinAll (ts'.map Tensor.kind)) = some k') {R : Cell ℝ → Cell ℝ → Prop}
    (hrow : ∀ shape i, Grid.sharedShapes (ts.map (·.grid.shape)) = some shape → i < Grid.volume shape → ∀ out,
      f.onCells k (row ts shape i) = .ok out →
      ∃ c c', out = [c] ∧ f.onCells k' (row ts' shape i) = .ok [c'] ∧ R c c')
    {rs : List (Tensor ℝ)} (h : elementwise f ts = .ok rs) :
    ∃ r r', rs = [r] ∧ elementwise f ts' = .ok [r'] ∧ r.kind = f.resultKindAt k 0 ∧ r'.kind = f.resultKindAt k' 0 ∧
      r.grid.Related R r'.grid := by
  obtain ⟨k₁, shape, outs, hk₁, hshape, houts, rfl⟩ := elementwise_eq_ok_iff.1 h
  cases hk.symm.trans hk₁
  have hrows : ∃ cs cs', outs = cs.map (fun c => [c]) ∧ List.Forall₂ (fun i out =>
      f.onCells k' (row ts' shape i) = .ok out) (List.range (Grid.volume shape)) (cs'.map fun c => [c]) ∧
        List.Forall₂ R cs cs' := by
    have hplaces := fun i hi => hrow shape i hshape (List.mem_range.1 hi)
    clear h
    generalize List.range (Grid.volume shape) = is at houts hplaces
    induction houts with
    | nil => exact ⟨[], [], rfl, .nil, .nil⟩
    | @cons i out is outs hout _ ih =>
      obtain ⟨c, c', rfl, hc', hcc'⟩ := hplaces i List.mem_cons_self out hout
      obtain ⟨cs, cs', rfl, hcs', hall⟩ := ih fun j hj => hplaces j (List.mem_cons_of_mem i hj)
      exact ⟨c :: cs, c' :: cs', rfl, .cons hc' hcs', .cons hcc' hall⟩
  obtain ⟨cs, cs', rfl, hcs', hall⟩ := hrows
  have hresult : ∀ (j : Kind) (ds : List (Cell ℝ)), ((List.range f.results).map fun i =>
      (⟨f.resultKindAt j i, shape, (ds.map fun c => [c]).filterMap (·[i]?)⟩ : Tensor ℝ)) =
        [⟨f.resultKindAt j 0, shape, ds⟩] := by
    intro j ds
    rw [hone]
    simp [List.range_succ, List.filterMap_map]
  refine ⟨_, ⟨f.resultKindAt k' 0, shape, cs'⟩, hresult k cs, ?_, rfl, rfl, rfl, hall⟩
  exact elementwise_eq_ok_iff.2
    ⟨k', shape, cs'.map fun c => [c], hk', hshapes ▸ hshape, hcs', (hresult k' cs').symm⟩

omit [Numeric ℝ] in
theorem row_related {R : Cell ℝ → Cell ℝ → Prop} {ts ts' : List (Tensor ℝ)}
    (h : List.Forall₂ (fun t t' => t.grid.Related R t'.grid) ts ts') (shape : List Nat) (i : Nat) :
    List.Forall₂ R (row ts shape i) (row ts' shape i) := by
  have hcolumns : List.Forall₂ (List.Forall₂ R) (ts.map fun t => (t.grid.broadcast shape).entries)
      (ts'.map fun t => (t.grid.broadcast shape).entries) :=
    List.forall₂_map_left_iff.2 (List.forall₂_map_right_iff.2 (h.imp fun _ _ ht => (ht.broadcast shape).entries))
  exact List.rel_filterMap (fun _ _ hl => forall₂_getElem? hl i) hcolumns

/-- the difference of the cells of a row; a single cell is kept -/
theorem subtract_row [Numeric.Exact] {cs cs' out : List (Cell ℝ)}
    (hcs : List.Forall₂ (Weighing (Cell.Equals .real) w) cs cs') (h : Elementwise.subtract.onCells .real cs = .ok out) :
    ∃ c c', out = [c] ∧ Elementwise.subtract.onCells .real cs' = .ok [c'] ∧ Weighing (Cell.Equals .real) w c c' := by
  rcases hcs with _ | ⟨⟨x, ⟨-, hx⟩, rfl⟩, _ | ⟨⟨y, ⟨-, hy⟩, rfl⟩, _ | ⟨_, _⟩⟩⟩
  · cases h
  · rw [Elementwise.onCells_one, hx] at h
    cases h
    exact ⟨_, _, rfl, rfl, x, ⟨rfl, rfl⟩, rfl⟩
  · rw [Elementwise.onCells_two, hx, hy] at h
    cases h
    refine ⟨_, _, rfl, rfl, x - y, ⟨rfl, Numeric.Exact.sub x y⟩, ?_⟩
    change Cell.real (Numeric.sub (x * w) (y * w)) = _
    rw [Numeric.Exact.sub, sub_mul]
  · cases h

/-! ## Statistics -/

section Statistics

variable [Numeric.Exact]

omit [Numeric.Exact] in
theorem mapNumbers_scaled {f : ℝ → ℝ} (hf : ∀ x, f (x * w) = f x * v) (ht : Scaled Cell.Equals w t t') :
    Scaled Cell.Equals v (t.mapNumbers f) (t'.mapNumbers f) := by
  refine ⟨rfl, ht.grid.map ?_⟩
  rintro c c' ⟨x, ⟨-, rfl⟩, rfl⟩
  exact ⟨f c.toNumber, ⟨rfl, rfl⟩, congrArg Cell.real (hf c.toNumber)⟩

omit [Numeric.Exact] in
theorem Scaled.cast_real (ht : Scaled Cell.Equals w t t') : Scaled Cell.Equals w (t.cast .real) (t'.cast .real) := by
  refine ⟨rfl, ht.grid.map ?_⟩
  rintro c c' ⟨x, ⟨-, rfl⟩, rfl⟩
  exact ⟨c.toNumber, ⟨Cell.kind_cast .real c, Cell.toNumber_cast_real c⟩, rfl⟩

variable (hw : 0 < w)

include hw

theorem sum_scaled (ht : Scaled Cell.Equals w t t') (h : t.sum axes keep = .ok r) :
    ∃ r', t'.sum axes keep = .ok r' ∧ Scaled Cell.Equals w r r' := by
  obtain ⟨r', hr', hscaled⟩ := reduce_scaled simulates_add hw ht.cast_real h .usual
  have hkind : r.kind = .real := by
    obtain ⟨k, _, _, hk, -, -, -, -, rfl⟩ := reduce_eq_ok_iff.1 h
    cases hk
    rfl
  refine ⟨r', hr', hscaled.imp fun c x hc => ?_⟩
  rw [hkind] at hc ⊢
  exact Cell.Tells.equals hc

theorem mean_scaled (ht : Scaled Cell.Equals w t t') (h : t.mean axes keep = .ok r) :
    ∃ r', t'.mean axes keep = .ok r' ∧ Scaled Cell.Equals w r r' := by
  obtain ⟨s, hs, h⟩ := Outcome.bind_eq_ok_iff.1 h
  cases h
  obtain ⟨s', hs', hscaled⟩ := sum_scaled hw ht hs
  have hspanned : t'.spanned axes = t.spanned axes := by rw [spanned, spanned, ht.grid.shape]
  refine ⟨_, Outcome.bind_eq_ok_iff.2 ⟨s', hs', rfl⟩, ?_⟩
  rw [hspanned]
  refine mapNumbers_scaled (fun x => ?_) hscaled
  rw [Numeric.Exact.div, Numeric.Exact.div, mul_div_right_comm]

omit hw in
theorem subtract_scaled {a a' b b' : Tensor ℝ} (ha : Scaled Cell.Equals w a a') (hb : Scaled Cell.Equals w b b')
    (hkinds : a.kind = .real ∧ b.kind = .real) {rs : List (Tensor ℝ)} (h : elementwise .subtract [a, b] = .ok rs) :
    ∃ r r', rs = [r] ∧ elementwise .subtract [a', b'] = .ok [r'] ∧ Scaled Cell.Equals w r r' := by
  have hall : List.Forall₂ (fun t t' => t.grid.Related (Weighing (Cell.Equals .real) w) t'.grid) [a, b] [a', b'] :=
    .cons (hkinds.1 ▸ ha.grid) (.cons (hkinds.2 ▸ hb.grid) .nil)
  have hshapes : [a, b].map (·.grid.shape) = [a', b'].map (·.grid.shape) := by
    simp [ha.grid.shape, hb.grid.shape]
  have hjoin : Kind.joinAll ([a, b].map Tensor.kind) = .real := by
    simp [hkinds.1, hkinds.2, Kind.joinAll, Kind.join]
  have hjoin' : Kind.joinAll ([a', b'].map Tensor.kind) = .real := by
    simp [ha.kind, hb.kind, Kind.joinAll, Kind.join]
  have hreal : Elementwise.subtract.computing .real = some .real := rfl
  obtain ⟨r, r', rfl, hr', hkind, hkind', hgrid⟩ := elementwise_rows rfl hshapes (by rw [hjoin, hreal])
    (by rw [hjoin', hreal]) (fun shape i _ _ out hout => subtract_row (row_related hall shape i) hout) h
  refine ⟨r, r', rfl, hr', hkind', ?_⟩
  rw [hkind]
  exact hgrid

omit [Numeric.Exact] hw in
theorem kind_mean {t r : Tensor ℝ} (h : t.mean axes keep = .ok r) : r.kind = .real := by
  obtain ⟨s, -, h⟩ := Outcome.bind_eq_ok_iff.1 h
  cases h
  rfl

theorem variance_scaled {lost : ℝ} (ht : Scaled Cell.Equals w t t') (h : t.variance axes keep lost = .ok r) :
    ∃ r', t'.variance axes keep lost = .ok r' ∧ Scaled Cell.Equals (w * w) r r' := by
  obtain ⟨centre, hcentre, h⟩ := Outcome.bind_eq_ok_iff.1 h
  obtain ⟨rs, hrs, h⟩ := Outcome.bind_eq_ok_iff.1 h
  obtain ⟨centre', hcentre', hmean⟩ := mean_scaled hw ht hcentre
  obtain ⟨distance, distance', rfl, hdistance', hscaled⟩ :=
    subtract_scaled ht.cast_real hmean ⟨rfl, kind_mean hcentre⟩ hrs
  obtain ⟨s, hs, h⟩ := Outcome.bind_eq_ok_iff.1 h
  cases h
  have hsquare : ∀ x : ℝ, Numeric.mul (x * w) (x * w) = Numeric.mul x x * (w * w) := by
    intro x
    rw [Numeric.Exact.mul, Numeric.Exact.mul, mul_mul_mul_comm]
  obtain ⟨s', hs', hsum⟩ := sum_scaled (mul_pos hw hw) (mapNumbers_scaled hsquare hscaled) hs
  have hspanned : t'.spanned axes = t.spanned axes := by rw [spanned, spanned, ht.grid.shape]
  refine ⟨_, Outcome.bind_eq_ok_iff.2 ⟨centre', hcentre', Outcome.bind_eq_ok_iff.2 ⟨_, hdistance',
    Outcome.bind_eq_ok_iff.2 ⟨s', hs', rfl⟩⟩⟩, ?_⟩
  rw [hspanned]
  refine mapNumbers_scaled (fun x => ?_) hsum
  rw [Numeric.Exact.div, Numeric.Exact.div, mul_div_right_comm]

end Statistics

section

variable [Numeric.Analytic]

theorem deviation_scaled (hw : 0 < w) {lost : ℝ} (ht : Scaled Cell.Equals w t t')
    (h : t.deviation axes keep lost = .ok r) :
    ∃ r', t'.deviation axes keep lost = .ok r' ∧ Scaled Cell.Equals w r r' := by
  obtain ⟨s, hs, h⟩ := Outcome.bind_eq_ok_iff.1 h
  cases h
  obtain ⟨s', hs', hscaled⟩ := variance_scaled hw ht hs
  refine ⟨_, Outcome.bind_eq_ok_iff.2 ⟨s', hs', rfl⟩, mapNumbers_scaled (fun x => ?_) hscaled⟩
  rw [Numeric.Analytic.sqrt, Numeric.Analytic.sqrt, Real.sqrt_mul' x (mul_self_nonneg w), Real.sqrt_mul_self hw.le]

end

/-! ## Products -/

section Products

variable [Numeric.Exact] {j j' k : Kind} {xs xs' ys ys' : List (Cell ℝ)}

theorem multiply_scaled (hj : j.rank ≤ k.rank) (hj' : j'.rank ≤ k.rank) {c c' d d' : Cell ℝ}
    (hc : Weighing (Cell.Equals j) w c c') (hd : Weighing (Cell.Equals j') v d d') :
    ∃ e e', Elementwise.multiply.onTwo k c d = .ok e ∧ Elementwise.multiply.onTwo .real c' d' = .ok e' ∧
      Weighing (Cell.Tells k) (w * v) e e' := by
  obtain ⟨x, ⟨rfl, rfl⟩, rfl⟩ := hc
  obtain ⟨y, ⟨rfl, rfl⟩, rfl⟩ := hd
  have hcast : ∀ {b : Cell ℝ}, b.kind.rank ≤ k.rank → (b.cast k).Tells k b.toNumber := by
    intro b hb
    rw [← Cell.toNumber_cast hb]
    exact Cell.tells_toNumber (b.kind_cast k)
  obtain ⟨e, he, htells⟩ := (hcast hj).mul (hcast hj')
  rw [Elementwise.onTwo_cast_right, Elementwise.onTwo_cast] at he
  refine ⟨e, .real (c.toNumber * w * (d.toNumber * v)), he, ?_, c.toNumber * d.toNumber, htells, ?_⟩
  · change Except.ok (Cell.real (Numeric.mul (c.toNumber * w) (d.toNumber * v))) = _
    rw [Numeric.Exact.mul]
  · rw [mul_mul_mul_comm]

/-- **The sum of the products of two rows.** -/
theorem pairing_scaled (hw : 0 < w) (hv : 0 < v) (hj : j.rank ≤ k.rank) (hj' : j'.rank ≤ k.rank)
    (hxs : List.Forall₂ (Weighing (Cell.Equals j) w) xs xs') (hys : List.Forall₂ (Weighing (Cell.Equals j') v) ys ys')
    {e : Cell ℝ} (h : pairing k xs ys = .ok e) :
    ∃ e', pairing .real xs' ys' = .ok e' ∧ Weighing (Cell.Tells k) (w * v) e e' := by
  obtain ⟨cs, hcs, h⟩ := Outcome.bind_eq_ok_iff.1 h
  obtain ⟨cs', hcs', hproducts⟩ := Outcome.forall₂_mapM (forall₂_zip hxs hys) (fun p q hpq e he => by
    obtain ⟨d, d', hd, hd', hdd'⟩ := multiply_scaled hj hj' hpq.1 hpq.2
    cases hd.symm.trans he
    exact ⟨d', hd', hdd'⟩) hcs
  cases hproducts with
  | nil =>
    cases h
    exact ⟨_, Outcome.bind_eq_ok_iff.2 ⟨[], hcs', rfl⟩, (simulates_add k).weighing_neutral rfl _⟩
  | cons hc hrest =>
    have hcasts := hrest.imp fun _ _ hab => (simulates_add k).cast_self hab
    obtain ⟨d, e', hd, he', hde'⟩ := (simulates_add k).foldCells (mul_pos hw hv) hc hcasts
    cases hd.symm.trans h
    exact ⟨e', Outcome.bind_eq_ok_iff.2 ⟨_, hcs', he'⟩, hde'⟩

omit [Numeric.Exact] in
theorem onCells_multiply {k : Kind} {c d e : Cell ℝ} (h : Elementwise.multiply.onTwo k c d = .ok e) :
    Elementwise.multiply.onCells k [c, d] = .ok [e] := by
  have hfolding : Elementwise.multiply ∈ Elementwise.folding := by decide
  obtain ⟨e', he', -⟩ := Elementwise.exists_onCells hfolding k c d
  cases h.symm.trans (Elementwise.onTwo_eq he')
  exact he'

/-- the product of the cells of a row; full operands have a cell each at every place -/
theorem multiply_row {a a' b b' : Tensor ℝ} (ha : Scaled Cell.Equals w a a') (hb : Scaled Cell.Equals v b b')
    (hfilled : a.grid.Filled ∧ b.grid.Filled) {shape : List Nat} {i : Nat}
    (hshape : Grid.sharedShapes ([a, b].map (·.grid.shape)) = some shape) (hi : i < Grid.volume shape)
    {out : List (Cell ℝ)} (h : Elementwise.multiply.onCells (a.kind.join b.kind) (row [a, b] shape i) = .ok out) :
    ∃ c c', out = [c] ∧ Elementwise.multiply.onCells .real (row [a', b'] shape i) = .ok [c'] ∧
      Weighing (Cell.Tells (a.kind.join b.kind)) (w * v) c c' := by
  have hfits : ∀ t ∈ [a, b], Grid.Fits t.grid.shape shape := fun t ht =>
    Grid.fits_sharedShapes hshape _ (List.mem_map_of_mem ht)
  obtain ⟨c, _, hc, hrest, hcells⟩ := List.forall₂_cons_right_iff.1 (exists_row (by simpa using hfilled) hfits hi)
  obtain ⟨d, _, hd, hnil, rfl⟩ := List.forall₂_cons_right_iff.1 hrest
  cases hnil
  obtain ⟨c', hc', hcc'⟩ := exists_getElem? (ha.grid.broadcast shape).entries hc
  obtain ⟨d', hd', hdd'⟩ := exists_getElem? (hb.grid.broadcast shape).entries hd
  have hrank : ∀ {j : Kind}, j ∈ [a.kind, b.kind] → j.rank ≤ (a.kind.join b.kind).rank := Kind.rank_le_joinAll
  obtain ⟨e, e', he, he', hee'⟩ := multiply_scaled (hrank (List.mem_cons_self)) (hrank (by simp)) hcc' hdd'
  rw [hcells] at h
  cases (onCells_multiply he).symm.trans h
  refine ⟨e, e', rfl, ?_, hee'⟩
  rw [row_eq (.cons hc' (.cons hd' .nil))]
  exact onCells_multiply he'

theorem product_scaled {a a' b b' : Tensor ℝ} (ha : Scaled Cell.Equals w a a') (hb : Scaled Cell.Equals v b b')
    (hfilled : a.grid.Filled ∧ b.grid.Filled) {rs : List (Tensor ℝ)} (h : elementwise .multiply [a, b] = .ok rs) :
    ∃ r r', rs = [r] ∧ elementwise .multiply [a', b'] = .ok [r'] ∧ Scaled Cell.Tells (w * v) r r' := by
  have hshapes : [a, b].map (·.grid.shape) = [a', b'].map (·.grid.shape) := by simp [ha.grid.shape, hb.grid.shape]
  have hjoin' : Kind.joinAll ([a', b'].map Tensor.kind) = .real := by
    simp [ha.kind, hb.kind, Kind.joinAll, Kind.join]
  have hcomputing : ∀ k, Elementwise.multiply.computing k = some k := fun k => by cases k <;> rfl
  obtain ⟨r, r', rfl, hr', hkind, hkind', hgrid⟩ := elementwise_rows rfl hshapes (hcomputing _)
    (by rw [hjoin', hcomputing]) (fun shape i hshape hi out => multiply_row ha hb hfilled hshape hi) h
  refine ⟨r, r', rfl, hr', hkind', ?_⟩
  rw [hkind]
  exact hgrid

/-- **Dot products.** -/
theorem dot_scaled (hw : 0 < w) (hv : 0 < v) {a a' b b' : Tensor ℝ} (ha : Scaled Cell.Equals w a a')
    (hb : Scaled Cell.Equals v b b') (hfilled : a.grid.Filled ∧ b.grid.Filled) (h : dot a b = .ok r) :
    ∃ r', dot a' b' = .ok r' ∧ Scaled Cell.Tells (w * v) r r' := by
  unfold dot at h ⊢
  rw [← ha.grid.rank, ← hb.grid.rank]
  split at h
  · next hnone =>
    rw [if_pos hnone]
    obtain ⟨rs, hrs, h⟩ := Outcome.bind_eq_ok_iff.1 h
    obtain ⟨s, s', rfl, hs', hscaled⟩ := product_scaled ha hb hfilled hrs
    cases h
    exact ⟨s', Outcome.bind_eq_ok_iff.2 ⟨[s'], hs', rfl⟩, hscaled⟩
  · next hsome =>
    rw [if_neg hsome]
    simp only at h ⊢
    rw [← ha.grid.shape, ← hb.grid.shape]
    split at h
    · cases h
    · next hextents =>
      rw [if_neg hextents]
      obtain ⟨cells, hcells, h⟩ := Outcome.bind_eq_ok_iff.1 h
      cases h
      have hrank : ∀ {j : Kind}, j ∈ [a.kind, b.kind] → j.rank ≤ (a.kind.join b.kind).rank := Kind.rank_le_joinAll
      have hrows := ha.grid.lanes [a.grid.rank - 1]
      have hcolumns := hb.grid.lanes [pairedAxis b.grid.rank]
      obtain ⟨cells', hcells', hrelated⟩ := Outcome.forall₂_flatMapM hrows.entries (fun x x' hx cs hcs =>
        Outcome.forall₂_mapM hcolumns.entries (fun y y' hy e he =>
          pairing_scaled hw hv (hrank (by simp)) (hrank (by simp)) hx hy he) hcs) hcells
      have hjoin : a'.kind.join b'.kind = .real := by rw [ha.kind, hb.kind]; rfl
      rw [hjoin]
      refine ⟨_, Outcome.bind_eq_ok_iff.2 ⟨cells', hcells', rfl⟩, rfl, ?_, hrelated⟩
      exact congrArg₂ (· ++ ·) hrows.shape hcolumns.shape

end Products

/-! ## Joints -/

omit [Numeric ℝ] in
theorem joinAll_of_real {ks : List Kind} (h : ∀ k ∈ ks, k = .real) : Kind.joinAll ks = .real := by
  cases ks with
  | nil => rfl
  | cons k ks => exact Kind.eq_real_of_le (h k List.mem_cons_self ▸ Kind.rank_le_joinAll List.mem_cons_self)

/-- **Joints**, whatever they are put together by. -/
theorem joined_scaled [Numeric.Exact] {ts ts' : List (Tensor ℝ)} (hts : List.Forall₂ (Scaled Cell.Equals w) ts ts')
    {join : List (Grid (Cell ℝ)) → Option (Grid (Cell ℝ))}
    (hjoin : ∀ {R : Cell ℝ → Cell ℝ → Prop} {gs gs' : List (Grid (Cell ℝ))}, List.Forall₂ (Grid.Related R) gs gs' →
      ∀ {z}, join gs = some z → ∃ z', join gs' = some z' ∧ z.Related R z')
    (h : Session.joined ts join = .ok r) : ∃ r', Session.joined ts' join = .ok r' ∧ Scaled Cell.Equals w r r' := by
  unfold Session.joined at h ⊢
  simp only at h ⊢
  have hreal : Kind.joinAll (ts'.map Tensor.kind) = .real := by
    refine joinAll_of_real fun k hk => ?_
    obtain ⟨t', ht', rfl⟩ := List.mem_map.1 hk
    obtain ⟨t, -, htt'⟩ := exists_partner hts.flip ht'
    exact htt'.kind
  rw [hreal]
  generalize hk : Kind.joinAll (ts.map Tensor.kind) = k at h
  have hgrids : List.Forall₂ (Grid.Related (Weighing (Cell.Equals k) w)) (ts.map fun t => (t.cast k).grid)
      (ts'.map fun t => (t.cast .real).grid) := by
    have hrank : ∀ t ∈ ts, t.kind.rank ≤ k.rank := fun t ht => hk ▸ Kind.rank_le_joinAll (List.mem_map_of_mem ht)
    clear hk hreal h
    induction hts with
    | nil => exact .nil
    | cons htt' _ ih =>
      refine .cons (htt'.grid.map ?_) (ih fun t ht => hrank t (List.mem_cons_of_mem _ ht))
      rintro c c' ⟨x, ⟨hc, rfl⟩, rfl⟩
      refine ⟨c.toNumber, ⟨c.kind_cast k, Cell.toNumber_cast ?_⟩, rfl⟩
      exact hc ▸ hrank _ List.mem_cons_self
  split at h
  · next z hz =>
    cases h
    obtain ⟨z', hz', hrelated⟩ := hjoin hgrids hz
    rw [hz']
    exact ⟨_, rfl, rfl, hrelated⟩
  · cases h

end Tensor

end UnitAlgebra

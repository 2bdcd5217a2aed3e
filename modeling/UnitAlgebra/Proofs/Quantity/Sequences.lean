/-
Arrays of single quantities. A list of numbers and arrays is read row by row, whole numbers and truth values becoming
numbers where others are; so an array that is made of quantities in their common unit has their physical values for
its rows.

Results:
- `numbers_of_list`: a list that is read shows the numbers of its elements.
- `sound_ofSequence`: an array of quantities keeps their physical values.
-/
import UnitAlgebra.Proofs.Quantity.FoldKinds
import UnitAlgebra.Proofs.Quantity.PhysicalArguments
import UnitAlgebra.Quantity.Access

namespace UnitAlgebra

variable {κ : Type} [Numeric κ]

namespace Operand

variable {m : Store κ} {v : Operand κ} {vs : List (Operand κ)}

omit [Numeric κ] in
/-- rows are put together by their boxes alone -/
theorem rows_of_shapes {α β : Type} {gs : List (Grid α)} {hs : List (Grid β)}
    (hshapes : gs.map Grid.shape = hs.map Grid.shape) {g : Grid α} (h : rows gs = .ok g) :
    g.entries = gs.flatMap Grid.entries ∧ rows hs = .ok ⟨g.shape, hs.flatMap Grid.entries⟩ := by
  have hall : ∀ shape, hs.all (·.shape = shape) = gs.all (·.shape = shape) := by
    intro shape
    have hmap := congrArg (fun l => l.all (· = shape)) hshapes
    rw [List.all_map, List.all_map] at hmap
    exact hmap.symm
  have hlength : gs.length = hs.length := by simpa using congrArg List.length hshapes
  rcases gs with _ | ⟨a, gs⟩ <;> rcases hs with _ | ⟨b, hs⟩
  · cases h
    exact ⟨rfl, rfl⟩
  · cases hlength
  · cases hlength
  · unfold rows at h ⊢
    simp only at h ⊢
    rw [List.map_cons, List.map_cons, List.cons.injEq] at hshapes
    rw [hall, ← hlength, ← hshapes.1]
    split at h
    · next hsame =>
      cases h
      rw [if_pos hsame]
      exact ⟨rfl, rfl⟩
    · cases h

theorem leaves_of_isNumeric (hv : v.IsNumeric m) : ∃ g, v.leaves m = .ok g ∧ g.shape = (v.tensor m).grid.shape ∧
    ∀ cells, g.entries.mapM (cell .asIs) = .ok cells → cells = (v.tensor m).grid.entries := by
  have hsingle {c : Cell κ} (hleaves : v.leaves m = .ok (.scalar v)) (htensor : (v.tensor m).grid = .scalar c)
      (hcell : ∀ c', v.cell .asIs = .ok c' → c' = c) : ∃ g, v.leaves m = .ok g ∧ g.shape = (v.tensor m).grid.shape ∧
        ∀ cells, g.entries.mapM (cell .asIs) = .ok cells → cells = (v.tensor m).grid.entries := by
    refine ⟨_, hleaves, by rw [htensor]; rfl, fun cells hcells => ?_⟩
    rw [Outcome.mapM_eq_ok_iff] at hcells
    rw [htensor]
    cases hcells with
    | cons hown hnone =>
      cases hnone
      rw [hcell _ hown]
      rfl
  cases v with
  | array w =>
    refine ⟨_, by rw [leaves], rfl, fun cells hcells => ?_⟩
    change ((m.read w).grid.entries.map item).mapM (cell .asIs) = _ at hcells
    rw [List.mapM_map, Outcome.mapM_eq_ok_iff] at hcells
    exact (List.forall₂_eq_eq_eq ▸ hcells.imp fun _ _ h => Except.ok.inj h : (m.read w).grid.entries = cells).symm
  | flag b => exact hsingle (by simp [leaves]) rfl fun c' h => by cases h; rfl
  | number y => exact hsingle (by simp [leaves]) rfl fun c' h => by cases h; rfl
  | item c => exact hsingle (by simp [leaves]) rfl fun c' h => by cases h; rfl
  | integer n =>
    refine hsingle (by simp [leaves]) rfl fun c' h => ?_
    change integerCell n = _ at h
    unfold integerCell at h
    split at h
    · cases h; rfl
    · cases h
  | _ => exact hv.elim

theorem leavesAll_of_isNumeric (hvs : ∀ v ∈ vs, v.IsNumeric m) : ∃ gs, leavesAll m vs = .ok gs ∧
    gs.map Grid.shape = vs.map (fun v => (v.tensor m).grid.shape) ∧
    ∀ cells, (gs.flatMap Grid.entries).mapM (cell .asIs) = .ok cells →
      cells = vs.flatMap fun v => (v.tensor m).grid.entries := by
  induction vs with
  | nil => exact ⟨[], rfl, rfl, fun cells h => by cases h; rfl⟩
  | cons v vs ih =>
    obtain ⟨g, hg, hshape, hcells⟩ := leaves_of_isNumeric (hvs v List.mem_cons_self)
    obtain ⟨gs, hgs, hshapes, hall⟩ := ih fun v hv => hvs v (List.mem_cons_of_mem _ hv)
    refine ⟨g :: gs, ?_, ?_, fun cells h => ?_⟩
    · rw [leavesAll, hg, hgs]
      rfl
    · rw [List.map_cons, List.map_cons, hshape, hshapes]
    · rw [List.flatMap_cons, List.mapM_append] at h
      obtain ⟨first, hfirst, h⟩ := Outcome.bind_eq_ok_iff.1 h
      obtain ⟨rest, hrest, h⟩ := Outcome.bind_eq_ok_iff.1 h
      cases h
      rw [List.flatMap_cons, hcells first hfirst, hall rest hrest]

end Operand

namespace Operand

variable [Numeric ℝ] [Numeric.Exact] {m : Store ℝ} {vs : List (Operand ℝ)}

/-- **A list of numbers and arrays is read row by row.** -/
theorem numbers_of_list (hvs : ∀ v ∈ vs, v.IsNumeric m) {t : Tensor ℝ} (h : (list vs).toTensor m .asIs = .ok t) :
    t.IsUniform ∧ rows (vs.map fun v => (v.tensor m).numbers) = .ok t.numbers := by
  obtain ⟨gs, hgs, hshapes, hentries⟩ := leavesAll_of_isNumeric hvs
  have hread : (list vs).toTensor m .asIs = (rows gs >>= fun g => g.entries.mapM (cell .asIs) >>= fun cells =>
      .ok ⟨Kind.joinAll (cells.map Cell.kind), g.shape, cells.map (Cell.cast (Kind.joinAll (cells.map Cell.kind)))⟩) := by
    change (leaves m (list vs) >>= _) = _
    rw [leaves, hgs]
    rfl
  rw [hread] at h
  obtain ⟨g, hg, h⟩ := Outcome.bind_eq_ok_iff.1 h
  obtain ⟨cells, hcells, h⟩ := Outcome.bind_eq_ok_iff.1 h
  cases h
  have hboxes : gs.map Grid.shape = (vs.map fun v => (v.tensor m).numbers).map Grid.shape := by
    rw [hshapes, List.map_map]
    rfl
  obtain ⟨hall, hrows⟩ := rows_of_shapes hboxes hg
  rw [hall] at hcells
  refine ⟨?_, ?_⟩
  · intro c hc
    obtain ⟨d, -, rfl⟩ := List.mem_map.1 hc
    exact d.kind_cast _
  · rw [hrows, Tensor.numbers]
    refine congrArg (fun l => Except.ok (Grid.mk g.shape l)) ?_
    have hnumbers : ((vs.map fun v => (v.tensor m).numbers).flatMap Grid.entries) = cells.map Cell.toNumber := by
      rw [hentries cells hcells, List.map_flatMap, List.flatMap_map]
      rfl
    rw [hnumbers, List.map_map]
    exact List.map_congr_left fun c hc => (Cell.toNumber_cast (Kind.rank_le_joinAll (List.mem_map_of_mem hc))).symm

end Operand

namespace Session

variable [Numeric ℝ] [Numeric.Exact] {c : Context ℝ} {m m' : Store ℝ}

theorem physical_of_aligned {xs vs : List (Operand ℝ)} {a : ℝ}
    (h : List.Forall₂ (fun x v => Aligned m x a v m') xs vs) : xs.map (Operand.physical m) =
      (vs.map fun v => (v.tensor m').numbers).map (Grid.map (· * a)) := by
  induction h with
  | nil => rfl
  | cons hxv _ ih => simp only [List.map_cons, ih, ← hxv.physical, Numeric.Exact.mul]

/-- **An array of quantities keeps their physical values**, each at its position. -/
theorem sound_ofSequence {xs : List (Operand ℝ)} {y : Operand ℝ} (hxs : ∀ x ∈ xs, x.IsMeasure m)
    (h : ofSequence xs c m = .ok (y, m')) : y.isQuantity = true ∧
      (∀ x ∈ xs, x.isQuantity = true → x.storedUnit.dimension = y.storedUnit.dimension) ∧
      Operand.rows (xs.map (Operand.physical m)) = .ok (y.physical m') := by
  unfold ofSequence at h
  rw [bind_of_ok (mapM_ofOperand xs c m)] at h
  obtain ⟨policy, m₁, hpolicy, h⟩ := bind_eq_ok_iff.1 h
  cases hpolicy
  obtain ⟨u, m₂, hu, h⟩ := bind_eq_ok_iff.1 h
  obtain ⟨hcommon, rfl⟩ := lift_eq_ok_iff.1 hu
  obtain ⟨vs, m₃, hvs, h⟩ := bind_eq_ok_iff.1 h
  obtain ⟨t, m₄, ht, h⟩ := bind_eq_ok_iff.1 h
  obtain ⟨z, m₅, hz, h⟩ := bind_eq_ok_iff.1 h
  cases h
  cases hz
  obtain ⟨hread, rfl⟩ := tensorOf_eq_ok_iff.1 ht
  have hdimension : ∀ x ∈ xs, (x.participant m).isBareZero = false → (x.participant m).dimension = u.dimension :=
    fun x hx => dimension_eq_of_commonUnit hcommon (List.mem_map_of_mem hx)
  obtain ⟨-, haligned⟩ := exists_alignedValues hxs hdimension hvs
  have hnumeric : ∀ v ∈ vs, v.IsNumeric m₃ := fun v hv => by
    obtain ⟨x, -, hxv⟩ := exists_partner haligned.flip hv
    exact hxv.numeric
  obtain ⟨-, hrows⟩ := Operand.numbers_of_list hnumeric hread
  refine ⟨rfl, fun x hx hquantity => ?_, ?_⟩
  · have hzero : (x.participant m).isBareZero = false := by cases x <;> first | rfl | cases hquantity
    rw [← x.unit_participant m]
    exact hdimension x hx hzero
  have hboxes : (vs.map fun v => (v.tensor m₃).numbers).map Grid.shape =
      ((vs.map fun v => (v.tensor m₃).numbers).map (Grid.map (· * u.scale.real))).map Grid.shape := by
    simp only [List.map_map]
    rfl
  obtain ⟨hentries, hscaled⟩ := Operand.rows_of_shapes hboxes hrows
  have hstored : (inUnitOf u (.array (m₃.alloc t).2)).stored (m₃.alloc t).1 = t := Store.read_alloc m₃ t
  change _ = Except.ok ((((inUnitOf u (.array (m₃.alloc t).2)).stored (m₃.alloc t).1).numbers).map (· * u.scale.real))
  rw [physical_of_aligned haligned, hscaled, hstored]
  refine congrArg (fun l => Except.ok (Grid.mk t.numbers.shape l)) ?_
  rw [hentries, List.map_flatMap, List.flatMap_map]
  rfl

end Session

end UnitAlgebra

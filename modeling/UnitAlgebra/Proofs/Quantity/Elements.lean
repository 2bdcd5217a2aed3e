/-
Single elements of a row. An element is read as an item in the unit of the row; a function of two operands updates it at
its place, and an operator reads it, computes, and assigns it again. Computed on the same operand, both leave the same
memory.

Results:
- `select_row`: an element, as it is read.
- `computeBare_beside`: a function of two single values.
- `updateAt_element`: an element that is updated at its place.
- `updateElement_eq`: an element that an operator changes.
- `apply_sum`, `apply_product`: the operation on an item, in the unit of the item.
-/
import UnitAlgebra.Proofs.Quantity.Dimensionless
import UnitAlgebra.Proofs.Quantity.Layers
import UnitAlgebra.Proofs.Quantity.Matching
import UnitAlgebra.Proofs.Tensor.Folds
import UnitAlgebra.Proofs.Tensor.Writes
import UnitAlgebra.Quantity.Access
import UnitAlgebra.Quantity.Operator

namespace UnitAlgebra

variable {κ : Type} [Numeric κ]

/-- the functions of the operators that update compute on floats beside any other kind -/
theorem Elementwise.computing_beside {f : Elementwise} (hf : f ∈ [.add, .subtract, .multiply, .divide]) (k : Kind) :
    f ∈ folding ∧ f.computing (Kind.joinAll [.real, k]) = some .real ∧ f.resultKind .real = .real := by
  simp only [List.mem_cons, List.not_mem_nil, or_false] at hf
  rcases hf with rfl | rfl | rfl | rfl <;> cases k <;> exact ⟨by decide, rfl, rfl⟩

namespace Session

variable {c : Context κ} {m m' : Store κ} {v : View} {n j : Nat} {i : Int} {x y : Operand κ}

/-! ## Reading -/

theorem elementAt_row (hv : v.buffer < m.buffers.length) (hn : v.shape = [n]) (hi : Index.place n i = .ok j)
    {cell : Cell κ} (hcell : (m.read v).grid.entries[j]? = some cell) :
    elementAt (.array v) (.integer i) c m = .ok (.item cell, m) := by
  obtain ⟨b, hb⟩ : ∃ b, m.buffer? v.buffer = some b := ⟨_, List.getElem?_eq_getElem hv⟩
  have hread (w : View) (hw : w.buffer = v.buffer) :
      m.read w = ⟨b.kind, w.places.map fun p => (b.cells[p]?).getD (.real Numeric.zero)⟩ := by
    rw [Store.read, hw, hb]
  rw [hread v rfl, Grid.map, List.getElem?_map, Option.map_eq_some_iff] at hcell
  obtain ⟨p, hp, hcell⟩ := hcell
  have hkey : (keyOf (.integer i) : Session κ (List Index)) c m = .ok ([.point i], m) := rfl
  have hplaces : (liftM (v.places.select [.point i]) : Session κ (Grid Nat)) c m = .ok (.scalar p, m) := by
    rw [Grid.select_point hn hi hp]
    rfl
  have hview : (readView ⟨v.buffer, .scalar p⟩ : Session κ (Tensor κ)) c m = .ok (⟨b.kind, .scalar cell⟩, m) := by
    rw [← hcell]
    exact congrArg (fun t => Except.ok (t, m)) (hread ⟨v.buffer, .scalar p⟩ rfl)
  rw [elementAt, bind_of_ok hkey, bind_of_ok hplaces]
  change (readView ⟨v.buffer, .scalar p⟩ >>= computed) c m = _
  rw [bind_of_ok hview, computed_scalar rfl]
  rfl

/-- An element of a quantity. -/
theorem select_row (hv : v.buffer < m.buffers.length) (hn : v.shape = [n]) (hi : Index.place n i = .ok j)
    {u : StorageUnit} {cell : Cell κ} (hcell : (m.read v).grid.entries[j]? = some cell) :
    select ⟨.array v, u.dimension, u.scale⟩ (.integer i) c m = .ok (inUnitOf u (.item cell), m) := by
  rw [select, bind_of_ok (elementAt_row hv hn hi hcell)]
  rfl

/-! ## Single values -/

/-- a stored value in a unit, as it takes part -/
def participantIn (u : StorageUnit) (x : Operand κ) : Participant κ := ⟨⟨x, u.dimension, u.scale⟩, false⟩

theorem alignedValue_participantIn (u : StorageUnit) (x : Operand κ) :
    UnitRule.alignedValue u (participantIn u x) c m = .ok (x, m) := by
  have hown : UnitRule.alignedValue u (participantIn u x) = (participantIn u x).quantity.valueIn u.scale := if_pos rfl
  rw [hown]
  exact Quantity.valueIn_same ⟨x, u.dimension, u.scale⟩ c m

theorem valueIn_single {q : Quantity (Operand κ)} {s : Scale} (hx : q.value.IsNumeric m) (hsingle : q.value.isArray = false)
    (h : q.valueIn s c m = .ok (y, m')) : m = m' ∧ y.IsNumeric m ∧ y.isArray = false ∧
      (y = q.value ∨ ∃ z, y = .number z ∨ y = .item (.real z)) := by
  by_cases hs : q.scale = s
  · rw [← hs, q.valueIn_same] at h
    cases h
    exact ⟨rfl, hx, hsingle, .inl rfl⟩
  · obtain ⟨value, d, t⟩ := q
    rw [Quantity.valueIn_of_ne hs] at h
    obtain ⟨r, -, h⟩ := Outcome.bind_eq_ok_iff.1 h
    have hplain {o : Outcome κ} (h : (liftM (o >>= fun z => .ok (.number (Numeric.mul z r))) : Session κ (Operand κ)) c m =
        .ok (y, m')) : m = m' ∧ ∃ z, y = .number z := by
      obtain ⟨hy, rfl⟩ := lift_eq_ok_iff.1 h
      obtain ⟨z, -, hz⟩ := Outcome.bind_eq_ok_iff.1 hy
      cases hz
      exact ⟨rfl, _, rfl⟩
    cases value with
    | flag b =>
      obtain ⟨rfl, z, rfl⟩ := hplain h
      exact ⟨rfl, trivial, rfl, .inr ⟨z, .inl rfl⟩⟩
    | integer k =>
      obtain ⟨rfl, z, rfl⟩ := hplain h
      exact ⟨rfl, trivial, rfl, .inr ⟨z, .inl rfl⟩⟩
    | number x =>
      cases h
      exact ⟨rfl, trivial, rfl, .inr ⟨_, .inl rfl⟩⟩
    | item cell =>
      have hproduct : Session.withNumber .mul (.item cell) r c m =
          .ok (.item (.real (Numeric.mul cell.toNumber r)), m) := by cases cell <;> rfl
      cases hproduct.symm.trans h
      exact ⟨rfl, trivial, rfl, .inr ⟨_, .inr rfl⟩⟩
    | array v => cases hsingle
    | _ => exact hx.elim

theorem alignedValue_single {u : StorageUnit} (hx : x.IsMeasure m) (hsingle : (bareValue x).isArray = false)
    (h : UnitRule.alignedValue u (x.participant m) c m = .ok (y, m')) : m = m' ∧ y.IsNumeric m ∧ y.isArray = false ∧
      (y = bareValue x ∨ ∃ z, y = .number z ∨ y = .item (.real z)) := by
  rw [← x.value_participant m] at hsingle ⊢
  unfold Operand.IsMeasure at hx
  rw [← x.value_participant m] at hx
  unfold UnitRule.alignedValue at h
  split at h
  · exact valueIn_single hx hsingle h
  · obtain ⟨rfl, rfl⟩ := pure_eq_ok_iff.1 h
    exact ⟨rfl, hx, hsingle, .inl rfl⟩

/-- a number that is read as one cell -/
structure ReadsCell (m : Store κ) (x : Operand κ) (cell : Cell κ) : Prop where
  numeric : x.IsNumeric m
  read : x.toTensor m .asIs = .ok (.scalar cell)

theorem readsCell_of_tensorOf (hx : x.IsNumeric m) (hsingle : x.isArray = false) {t : Tensor κ}
    (h : tensorOf x c m = .ok (t, m')) : m = m' ∧ ∃ cell, ReadsCell m x cell ∧ t = .scalar cell := by
  obtain ⟨hread, rfl⟩ := tensorOf_eq_ok_iff.1 h
  have hnarrow : x.isWide = false := by
    cases hw : x.isWide with
    | false => rfl
    | true =>
      rw [Operand.toTensor_of_wide hw] at hread
      cases hread
  have htensor : t = x.tensor m := Except.ok.inj (hread.symm.trans (Operand.toTensor_eq hx hnarrow))
  obtain ⟨cell, hcell⟩ : ∃ cell, x.tensor m = .scalar cell := by
    cases x <;> first | exact hx.elim | exact ⟨_, rfl⟩ | cases hsingle
  exact ⟨rfl, cell, ⟨hx, hread.trans (congrArg Except.ok (htensor.trans hcell))⟩, htensor.trans hcell⟩

/-- A function of two single values. -/
theorem computeBare_beside {f : Elementwise} (hf : f ∈ Elementwise.folding) {k : Kind} {a b cell : Cell κ}
    (hx : ReadsCell m x b) (hk : f.computing (Kind.joinAll [a.kind, b.kind]) = some k)
    (hcell : f.onCells k [a, b] = .ok [cell]) :
    computeBare (.each f) .plainly [] [.item a, x] c m = .ok ([.item cell], m) := by
  have hresults : f.results = 1 := by
    simp only [Elementwise.folding, List.mem_cons, List.not_mem_nil, or_false] at hf
    rcases hf with rfl | rfl | rfl | rfl | rfl | rfl <;> rfl
  have helement : Tensor.elementwise f [.scalar a, .scalar b] = .ok [⟨f.resultKindAt k 0, .scalar cell⟩] := by
    refine Tensor.elementwise_eq_ok_iff.2 ⟨k, [], [[cell]], hk, rfl, .cons hcell .nil, ?_⟩
    rw [hresults]
    rfl
  have hread : [.item a, x].mapM tensorOf c m = .ok ([.scalar a, .scalar b], m) := by
    have hfirst : tensorOf (.item a) c m = .ok (.scalar a, m) := by cases a <;> rfl
    rw [List.mapM_cons, bind_of_ok hfirst, List.mapM_cons, bind_of_ok (bind_of_ok (tensorOf_eq_ok_iff.2 ⟨hx.read, rfl⟩))]
    rfl
  obtain ⟨hnumeric, hx⟩ := hx
  have hplain : x.isOpaque = false ∧ x.isWide = false := by
    constructor
    · cases x <;> first | rfl | exact hnumeric.elim
    · cases hw : x.isWide with
      | false => rfl
      | true =>
        rw [Operand.toTensor_of_wide hw] at hx
        cases hx
  have hrun : plainResults f [.item a, x] c m = .ok (.tensors .broadcast [⟨f.resultKindAt k 0, .scalar cell⟩], m) := by
    have hnumbers : [.item a, x].any Operand.isOpaque = false := by
      rw [List.any_cons, List.any_cons, hplain.1]
      rfl
    have hwide : [.item a, x].any Operand.isWide = false := by
      rw [List.any_cons, List.any_cons, hplain.2]
      rfl
    unfold plainResults tensorsFor
    simp only [hnumbers, hwide, Bool.false_eq_true, if_false]
    rw [bind_of_ok hread, helement]
    rfl
  rw [computeBare_nil .plainly (by simp)]
  exact (bind_of_ok hrun).trans rfl

/-! ## Elements -/

/-- an element of floats in memory -/
theorem exists_element (hv : v.IsFloatArray m) (hn : v.shape = [n]) (hi : Index.place n i = .ok j) :
    ∃ p cell, v.places.entries[j]? = some p ∧ v.places.select [.point i] = .ok (.scalar p) ∧
      (m.read v).grid.entries[j]? = some cell ∧ m.read (View.place v.buffer p) = ⟨.real, .scalar cell⟩ := by
  obtain ⟨cells, hb, hrange⟩ := hv.inMemory
  have hlength : v.places.entries.length = n := hv.filled.length_row hn
  have hj : j < v.places.entries.length := hlength ▸ Grid.lt_of_place hi
  have hp : v.places.entries[j]? = some v.places.entries[j] := List.getElem?_eq_getElem hj
  have hread : m.read (View.place v.buffer v.places.entries[j]) =
      ⟨.real, .scalar ((cells[v.places.entries[j]]?).getD (.real Numeric.zero))⟩ := by
    rw [Store.read, View.place, hb]
    rfl
  exact ⟨_, _, hp, Grid.select_point hn hi hp, Store.entries_read hp hread (by rw [hb]; rfl), hread⟩

/-- An element that a function updates at its place. -/
theorem updateAt_element {f : Elementwise} (hf : f ∈ [.add, .subtract, .multiply, .divide]) (hv : v.IsFloatArray m)
    (hn : v.shape = [n]) (hi : Index.place n i = .ok j) (hx : x.IsNumeric m) (hsingle : x.isArray = false)
    (h : updateAt f v (.integer i) [x] c m = .ok ((), m')) : ∃ p old new b, v.places.entries[j]? = some p ∧
      (m.read v).grid.entries[j]? = some old ∧ ReadsCell m x b ∧ f.onCells .real [old, b] = .ok [new] ∧
      m' = m.write (View.place v.buffer p) (.scalar new) := by
  obtain ⟨p, old, hp, hselect, hold, hread⟩ := exists_element hv hn hi
  obtain ⟨cells, hb, -⟩ := hv.inMemory
  have hkey : (keyOf (.integer i) : Session κ (List Index)) c m = .ok ([.point i], m) := rfl
  unfold updateAt at h
  rw [bind_of_ok hkey, hselect, bind_of_ok (lift_eq_ok_iff.2 ⟨rfl, rfl⟩)] at h
  obtain ⟨ts, m₁, hts, h⟩ := bind_eq_ok_iff.1 h
  rw [List.mapM_cons, List.mapM_nil] at hts
  obtain ⟨t, m₂, ht, hts⟩ := bind_eq_ok_iff.1 hts
  obtain ⟨rfl, b, hb', rfl⟩ := readsCell_of_tensorOf hx hsingle ht
  cases hts
  obtain ⟨m₃, m₄, hget, h⟩ := bind_eq_ok_iff.1 h
  cases hget
  have hkind : m.kind v = .real := by rw [Store.kind, hb]
  obtain ⟨hfolding, hcomputing⟩ := Elementwise.computing_beside hf b.kind
  obtain ⟨new, hnew, -⟩ := Elementwise.exists_onCells hfolding .real old b
  refine ⟨p, old, new, b, hp, hold, hb', hnew, ?_⟩
  have hjoined : f.computing (Kind.joinAll (m.kind v :: [Tensor.scalar b].map Tensor.kind)) = some .real := by
    rw [hkind]
    exact hcomputing.1
  have hrank : ¬ (m.kind v).rank < (f.resultKind .real).rank := by
    rw [hkind, hcomputing.2]
    exact lt_irrefl _
  have hview : (readView (View.place v.buffer p) : Session κ (Tensor κ)) c m = .ok (⟨.real, .scalar old⟩, m) :=
    congrArg (fun t => Except.ok (t, m)) hread
  have hnext : (liftM (f.onCells .real [old, b]) : Session κ (List (Cell κ))) c m = .ok ([new], m) :=
    lift_eq_ok_iff.2 ⟨hnew, rfl⟩
  have hfits : [Tensor.scalar b].all (fun o => Grid.takes (Grid.scalar p).shape o.grid.shape) = true := rfl
  rw [hjoined] at h
  simp only [hrank, hfits, if_false, if_true] at h
  have hzip : (Grid.scalar p).entries.zipIdx = [(p, 0)] := rfl
  rw [hzip, List.forM_eq_forM, List.forM_cons, List.forM_nil] at h
  obtain ⟨_, m₁, hwrite, h⟩ := bind_eq_ok_iff.1 h
  cases h
  obtain ⟨t, m₂, ht, hwrite⟩ := bind_eq_ok_iff.1 hwrite
  cases hview.symm.trans ht
  obtain ⟨cells, m₃, hcells, hwrite⟩ := bind_eq_ok_iff.1 hwrite
  cases hnext.symm.trans hcells
  cases hwrite
  rfl

/-- a number that is assigned to an element, in its unit -/
theorem assign_element (hn : v.shape = [n]) (hi : Index.place n i = .ok j) {p : Nat}
    (hp : v.places.entries[j]? = some p) (u : StorageUnit) {new : Cell κ} (hnew : new.kind = .real) :
    assign ⟨.array v, u.dimension, u.scale⟩ (.integer i) (inUnitOf u (.item new)) c m =
      .ok ((), m.write (View.place v.buffer p) (.scalar new)) := by
  have hcommon : commonUnit c.policy (.plain "__setitem__") [participantIn u (.array v), participantIn u (.item new)] =
      .ok u := by
    rw [participantIn, participantIn, commonUnit_pair, if_pos rfl, ScalePolicy.resolve, ScalePolicy.resolve_same]
    rfl
  have hunit : UnitRule.unit .shared (.plain "__setitem__") [participantIn u (.array v), participantIn u (.item new)] c m =
      .ok (u, m) := (lift_eq_ok_iff (c := c)).2 ⟨hcommon, rfl⟩
  have hofOperand : Participant.ofOperand (inUnitOf u (.item new)) c m = .ok (participantIn u (.item new), m) := rfl
  have hplaces : (liftM (v.places.select [.point i]) : Session κ (Grid Nat)) c m = .ok (.scalar p, m) := by
    rw [Grid.select_point hn hi hp]
    rfl
  have helements : prepareElements (.array v) (.integer i) (.item new) c m =
      .ok (⟨[(View.place v.buffer p, .scalar new)], ()⟩, m) := by
    refine (bind_of_ok rfl).trans ((bind_of_ok hplaces).trans ?_)
    cases new <;> first | rfl | cases hnew
  have hprepared : prepareAssignment ⟨.array v, u.dimension, u.scale⟩ (.integer i) (inUnitOf u (.item new)) c m =
      .ok (⟨[(View.place v.buffer p, .scalar new)], ()⟩, m) :=
    (bind_of_ok hofOperand).trans ((bind_of_ok hunit).trans
      ((bind_of_ok (alignedValue_participantIn u (.item new))).trans helements))
  exact run_eq_ok_iff.2 ⟨_, m, hprepared, rfl, rfl⟩

/-! ## Operators on elements -/

/-- an element of a quantity changed by an operator, in place -/
def updateElement (o : Operator) (q : Quantity (Operand κ)) (key x : Operand κ) : Session κ Unit := do
  let element ← select q key
  assign q key (← update o element x)

/-- An element that an operator changes. -/
theorem updateElement_eq {o : Operator} {f : Elementwise} (hf : f ∈ [.add, .subtract, .multiply, .divide])
    (ho : o.function = .each f) (hv : v.buffer < m.buffers.length) (hn : v.shape = [n]) (hi : Index.place n i = .ok j)
    {p : Nat} (hp : v.places.entries[j]? = some p) {old new : Cell κ}
    (hold : (m.read v).grid.entries[j]? = some old) {u : StorageUnit}
    (hx : x.isSeries = false ∧ x.beginsWithQuantity = false)
    (happly : apply (.each f) .plainly [] [inUnitOf u (.item old), x] c m = .ok (inUnitOf u (.item new), m))
    (hnew : new.kind = .real) : updateElement o ⟨.array v, u.dimension, u.scale⟩ (.integer i) x c m =
      .ok ((), m.write (View.place v.buffer p) (.scalar new)) := by
  have hleft : operateLeft o ⟨.item old, u.dimension, u.scale⟩ x c m = .ok (inUnitOf u (.item new), m) := by
    have hkept : (o.yields && (x.isSeries || x.beginsWithQuantity)) = false := by
      rw [hx.1, hx.2, Bool.or_false, Bool.and_false]
    rw [← ho] at happly
    unfold operateLeft
    simp only [hkept, Bool.false_eq_true, if_false]
    cases o
    case eq =>
      cases ho
      simp at hf
    all_goals exact happly
  have hdeclined : updateLeft o ⟨.item old, u.dimension, u.scale⟩ x c m = .ok (.declined, m) := rfl
  have hoperate : operate o (inUnitOf u (.item old)) x c m = .ok (inUnitOf u (.item new), m) :=
    (bind_of_ok hleft).trans rfl
  have hupdate : update o (inUnitOf u (.item old)) x c m = .ok (inUnitOf u (.item new), m) :=
    (bind_of_ok hdeclined).trans hoperate
  exact (bind_of_ok (select_row hv hn hi hold)).trans ((bind_of_ok hupdate).trans (assign_element hn hi hp u hnew))

section Items

variable {f : Elementwise} {u : StorageUnit} {old new b : Cell κ} (hold : old.kind = .real)
  (hnew : f.onCells .real [old, b] = .ok [new])

include hold hnew

theorem apply_item (hf : f ∈ [.add, .subtract, .multiply, .divide]) (hx : x.isSeries = false)
    (hunit : (TensorFunction.each f).rule.unit (.plain f.name) [participantIn u (.item old), x.participant m] c m =
      .ok (u, m))
    (hvalues : (TensorFunction.each f).rule.values (TensorFunction.each f).alignment u
      [participantIn u (.item old), x.participant m] c m = .ok ([.item old, y], m)) (hy : ReadsCell m y b) :
    apply (.each f) .plainly [] [inUnitOf u (.item old), x] c m = .ok (inUnitOf u (.item new), m) := by
  obtain ⟨hfolding, hcomputing, -⟩ := Elementwise.computing_beside hf b.kind
  have hseries : ([inUnitOf u (.item old), x] ++ []).any Operand.isSeries = false := by
    rw [List.append_nil, List.any_cons, List.any_cons, hx]
    rfl
  have hcheck : (liftM (checkOutputs (.each f) u ([] : List (Operand κ))) : Session κ Unit) c m = .ok ((), m) := rfl
  have hbare : computeBare (.each f) .plainly [] [.item old, y] c m = .ok ([.item new], m) :=
    computeBare_beside hfolding hy (hold ▸ hcomputing) hnew
  rw [apply_quantities hseries rfl, bind_of_ok (mapM_ofOperand _ c m)]
  refine (bind_of_ok hunit).trans ((bind_of_ok hvalues).trans ((bind_of_ok hcheck).trans ((bind_of_ok hbare).trans ?_)))
  simp only [List.mem_cons, List.not_mem_nil, or_false] at hf
  rcases hf with rfl | rfl | rfl | rfl <;> rfl

theorem apply_sum (hf : f ∈ [.add, .subtract]) (hx : x.isSeries = false)
    (hunit : commonUnit c.policy (.plain f.name) [participantIn u (.item old), x.participant m] = .ok u)
    (hvalue : UnitRule.alignedValue u (x.participant m) c m = .ok (y, m)) (hy : ReadsCell m y b) :
    apply (.each f) .plainly [] [inUnitOf u (.item old), x] c m = .ok (inUnitOf u (.item new), m) := by
  have haligned : [participantIn u (.item old), x.participant m].mapM (UnitRule.alignedValue u) c m =
      .ok ([.item old, y], m) := by
    rw [List.mapM_cons, bind_of_ok (alignedValue_participantIn u _), List.mapM_cons, bind_of_ok (bind_of_ok hvalue)]
    rfl
  have hcommon : (liftM (commonUnit c.policy (.plain f.name) [participantIn u (.item old), x.participant m]) :
      Session κ StorageUnit) c m = .ok (u, m) := lift_eq_ok_iff.2 ⟨hunit, rfl⟩
  simp only [List.mem_cons, List.not_mem_nil, or_false] at hf
  rcases hf with rfl | rfl <;> exact apply_item hold hnew (by decide) hx hcommon haligned hy

theorem apply_product (hf : f ∈ [.multiply, .divide]) (hx : ReadsCell m x b) :
    apply (.each f) .plainly [] [inUnitOf u (.item old), x] c m = .ok (inUnitOf u (.item new), m) := by
  obtain ⟨hseries, hunit, hvalue⟩ : x.isSeries = false ∧ (x.participant m).unit = .one ∧
      (x.participant m).quantity.value = x := by
    have hnumeric := hx.numeric
    cases x <;> first | exact hnumeric.elim | exact ⟨rfl, rfl, rfl⟩
  have hvalues : (pure ([participantIn u (.item old), x.participant m].map (·.quantity.value)) :
      Session κ (List (Operand κ))) c m = .ok ([.item old, x], m) := by
    rw [List.map_cons, List.map_cons, hvalue]
    rfl
  simp only [List.mem_cons, List.not_mem_nil, or_false] at hf
  rcases hf with rfl | rfl
  · refine apply_item hold hnew (by decide) hseries ?_ hvalues hx
    exact bind_eq_ok_iff.2 ⟨u, m, lift_eq_ok_iff.2 ⟨hunit ▸ u.mul_one, rfl⟩, rfl⟩
  · refine apply_item hold hnew (by decide) hseries ?_ hvalues hx
    exact bind_eq_ok_iff.2 ⟨u, m, lift_eq_ok_iff.2 ⟨hunit ▸ u.div_one, rfl⟩, rfl⟩

end Items

end Session

end UnitAlgebra

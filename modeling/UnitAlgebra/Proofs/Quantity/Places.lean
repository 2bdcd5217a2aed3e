/-
Updates at chosen places of an array. The function is handed the array, the key and the operand alike as operands of its
unit rule, and writes into what the rule makes of the array. A sum in another scale than the array's own is computed on
a copy, which nobody sees; a product is written with the number that the operand stores, whatever its unit.

Results:
- `apart_updateAt`: an update of a copy changes nothing that was there before it.
- `updatedElement_of_sum`, `updatedElement_of_product`: an update of an element is what an operator leaves.
- `atPlaces_spec`: when an update is seen, and what is written.
- `atPlaces_not_inPlace`: lengths for which that is not what the operator on the element does.
-/
import Mathlib
import UnitAlgebra.Proofs.Numeric.Exact
import UnitAlgebra.Proofs.Quantity.Adding
import UnitAlgebra.Proofs.Quantity.Elements
import UnitAlgebra.Proofs.Quantity.Physical
import UnitAlgebra.Proofs.Quantity.Prepared
import UnitAlgebra.Quantity.Access
import UnitAlgebra.Quantity.Call
import UnitAlgebra.Quantity.Operator

namespace UnitAlgebra

variable {κ : Type} [Numeric κ]

namespace Session

variable {α β : Type} {c : Context κ} {m m' : Store κ}

/-! ## Runs apart from a part of memory -/

/-- the buffers of a memory stay as they are, also if they were there before -/
structure Apart (m₀ : Store κ) (act : Session κ α) : Prop where
  grows : ∀ {c m a m'}, m₀.Grows m → act c m = .ok (a, m') → m₀.Grows m'

omit [Numeric κ] in
theorem Adds.apart {act : Session κ α} (h : Adds act) (m₀ : Store κ) : Apart m₀ act :=
  ⟨fun hm hrun => hm.trans (h.grows hrun)⟩

omit [Numeric κ] in
theorem Apart.bind {m₀ : Store κ} {act : Session κ α} {f : α → Session κ β} (h : Apart m₀ act)
    (hf : ∀ a, Apart m₀ (f a)) : Apart m₀ (act >>= f) where
  grows hm hrun := by
    obtain ⟨a, m₁, ha, hb⟩ := bind_eq_ok_iff.1 hrun
    exact (hf a).grows (h.grows hm ha) hb

omit [Numeric κ] in
theorem Apart.forM {m₀ : Store κ} {f : α → Session κ PUnit} (h : ∀ a, Apart m₀ (f a)) (l : List α) :
    Apart m₀ (l.forM f) := by
  induction l with
  | nil => exact (adds_pure _).apart m₀
  | cons a l ih => exact (h a).bind fun _ => ih

theorem apart_writeView {m₀ : Store κ} {v : View} (hv : m₀.buffers.length ≤ v.buffer) (t : Tensor κ) :
    Apart m₀ (writeView v t) where
  grows {c m a m'} hm hrun := by
    have hwrite : m.write v t = m' := by
      cases hrun
      rfl
    rw [← hwrite]
    unfold Store.write
    split
    · next b _ =>
      obtain ⟨rest, hrest⟩ := hm
      rw [← hrest, List.set_append_right _ _ hv]
      exact List.prefix_append _ _
    · exact hm

/-- An update of what lies apart. -/
theorem apart_updateAt {m₀ : Store κ} {v : View} (hv : m₀.buffers.length ≤ v.buffer) (f : Elementwise) (key : Operand κ)
    (others : List (Operand κ)) : Apart m₀ (updateAt f v key others) := by
  unfold updateAt
  have hget : Adds (get : Session κ (Store κ)) := ⟨fun h => by
    cases h
    exact .refl _⟩
  refine ((adds_keyOf key).apart m₀).bind fun key => ((adds_lift _).apart m₀).bind fun places =>
    ((Adds.mapM adds_tensorOf others).apart m₀).bind fun others => (hget.apart m₀).bind fun kinds => ?_
  simp only
  split
  · exact (adds_throw _).apart m₀
  · split
    · exact (adds_throw _).apart m₀
    · split
      · have hread (w : View) : Adds (readView w : Session κ (Tensor κ)) := hget.bind fun _ => adds_pure _
        refine .forM (fun place => ((hread _).apart m₀).bind fun t => ((adds_lift _).apart m₀).bind fun cs => ?_) _
        split
        · refine apart_writeView ?_ _
          exact hv
        · exact (adds_throw _).apart m₀
      · exact (adds_throw _).apart m₀

/-! ## Updates of quantities -/

omit [Numeric κ] in
/-- a computed tensor is a cell, or an array of its own -/
theorem computed_isNew {t : Tensor κ} {y : Operand κ} (h : computed t c m = .ok (y, m')) :
    (∃ w, y = .array w ∧ w.buffer = m.buffers.length) ∨ y.isArray = false := by
  by_cases hs : ∃ cell, t.grid = .scalar cell
  · obtain ⟨cell, hgrid⟩ := hs
    rw [computed_scalar hgrid, pure_eq_ok_iff] at h
    obtain ⟨rfl, -⟩ := h
    exact Or.inr rfl
  · rw [computed_of_not_scalar fun cell hcell => hs ⟨cell, hcell⟩] at h
    cases h
    exact Or.inl ⟨_, rfl, rfl⟩

theorem valueIn_array {v : View} {d : Dimension} {s t : Scale} (hst : s ≠ t) {y : Operand κ}
    (h : Quantity.valueIn ⟨.array v, d, s⟩ t c m = .ok (y, m')) :
    (∃ w, y = .array w ∧ m.buffers.length ≤ w.buffer) ∨ y.isArray = false := by
  unfold Quantity.valueIn convert Scale.steps at h
  rw [if_neg hst] at h
  obtain ⟨z, m₁, hz, hlast⟩ := bind_eq_ok_iff.1 h
  obtain ⟨rfl, rfl⟩ := pure_eq_ok_iff.1 hlast
  obtain ⟨r, m₂, hr, hz⟩ := bind_eq_ok_iff.1 hz
  obtain ⟨-, rfl⟩ := lift_eq_ok_iff.1 hr
  obtain ⟨zs, m₃, hzs, hz⟩ := bind_eq_ok_iff.1 hz
  split at hz
  · next w =>
    obtain ⟨rfl, rfl⟩ := pure_eq_ok_iff.1 hz
    obtain ⟨ts, m₄, hts, hzs⟩ := bind_eq_ok_iff.1 hzs
    obtain ⟨rs, m₅, hrs, hzs⟩ := bind_eq_ok_iff.1 hzs
    obtain ⟨-, rfl⟩ := lift_eq_ok_iff.1 hrs
    have hgrows : m.Grows m₄ := (Adds.mapM adds_tensorOf _).grows hts
    rcases rs with _ | ⟨t, rs⟩
    · cases hzs
    · rw [List.mapM_cons] at hzs
      obtain ⟨w', m₆, hw, hrest⟩ := bind_eq_ok_iff.1 hzs
      obtain ⟨ws, m₇, -, hrest⟩ := bind_eq_ok_iff.1 hrest
      obtain ⟨hcons, -⟩ := pure_eq_ok_iff.1 hrest
      cases hcons
      rcases computed_isNew hw with ⟨view, rfl, hbuffer⟩ | harray
      · exact Or.inl ⟨view, rfl, hbuffer ▸ hgrows.length_le⟩
      · exact Or.inr harray
  · obtain ⟨rfl, -⟩ := pure_eq_ok_iff.1 hz
    exact Or.inr rfl

variable {f : Elementwise} {v : View} {d : Dimension} {s : Scale} {key x y : Operand κ}

/-- an array quantity, the key and the other operand as they take part -/
def takingPart (m : Store κ) (q : Quantity (Operand κ)) (key x : Operand κ) : List (Participant κ) :=
  [⟨q, false⟩, key.participant m, x.participant m]

/-- a run at chosen places, step by step -/
theorem atPlaces_steps {q : Quantity (Operand κ)} (hf : f ∈ [.add, .subtract, .multiply, .divide])
    (hkey : key.isSeries = false) (hx : x.isSeries = false)
    (h : callWith (.each f) .at_ [.quantity q, key, x] [] c m = .ok (y, m')) : ∃ u m₁ vs m₂ zs,
      (TensorFunction.each f).rule.unit (.plain f.name) (takingPart m q key x) c m = .ok (u, m₁) ∧
      (TensorFunction.each f).rule.values .toResult u (takingPart m q key x) c m₁ = .ok (vs, m₂) ∧
      computeBare (.each f) .atPlaces [] vs c m₂ = .ok (zs, m') ∧ y = together (zs.map (inUnitOf u)) := by
  rw [callWith_of_arranged (fun _ => .atPlaces) rfl] at h
  have hseries : ([.quantity q, key, x] : List (Operand κ)).any Operand.isSeries = false := by
    rw [List.any_cons, List.any_cons, List.any_cons, hkey, hx]
    rfl
  have hquantity : ([.quantity q, key, x] : List (Operand κ)).any Operand.isQuantity = true := by
    simp [Operand.isQuantity, Operand.quantity?]
  rw [apply_quantities hseries hquantity] at h
  obtain ⟨ps, _, hps, h⟩ := bind_eq_ok_iff.1 h
  rw [mapM_ofOperand] at hps
  cases hps
  obtain ⟨u, m₁, hu, h⟩ := bind_eq_ok_iff.1 h
  obtain ⟨vs, m₂, hv, h⟩ := bind_eq_ok_iff.1 h
  obtain ⟨_, _, hcheck, h⟩ := bind_eq_ok_iff.1 h
  obtain ⟨-, rfl⟩ := lift_eq_ok_iff.1 hcheck
  obtain ⟨zs, _, hzs, h⟩ := bind_eq_ok_iff.1 h
  obtain ⟨rfl, rfl⟩ := pure_eq_ok_iff.1 h
  simp only [List.mem_cons, List.not_mem_nil, or_false] at hf
  rcases hf with rfl | rfl | rfl | rfl <;> exact ⟨u, m₁, vs, m₂, zs, hu, hv, hzs, rfl⟩

/-- bare operands are updated at chosen places if the first is an array, and nothing is given back -/
theorem computeBare_atPlaces {xs zs : List (Operand κ)} (h : computeBare (.each f) .atPlaces [] xs c m = .ok (zs, m')) :
    ∃ w key others, xs = .array w :: key :: others ∧ updateAt f w key others c m = .ok ((), m') ∧ zs = [] := by
  rcases xs with _ | ⟨x, _ | ⟨key, others⟩⟩
  · cases h
  · cases x <;> cases h
  · cases x with
    | array w =>
      obtain ⟨p, m₁, hp, rfl, rfl⟩ := run_eq_ok_iff.1 h
      simp only [prepareBare] at hp
      split at hp
      · obtain ⟨_, _, hupdate, hp⟩ := bind_eq_ok_iff.1 hp
        obtain ⟨rfl, rfl⟩ := pure_eq_ok_iff.1 hp
        exact ⟨w, key, others, rfl, hupdate, rfl⟩
      · cases hp
    | _ => cases h

omit [Numeric κ] in
theorem foldlM_keeps {g : β → α → Outcome β} {l : List α} {a b : β}
    (h : l.foldlM (fun a x => (liftM (g a x) : Session κ β)) a c m = .ok (b, m')) : m = m' := by
  induction l generalizing a with
  | nil => exact (pure_eq_ok_iff.1 h).2
  | cons x l ih =>
    rw [List.foldlM_cons] at h
    obtain ⟨a', _, ha, h⟩ := bind_eq_ok_iff.1 h
    obtain ⟨-, rfl⟩ := lift_eq_ok_iff.1 ha
    exact ih h

theorem values_of_sum (hf : f ∈ [.add, .subtract]) {q : Quantity (Operand κ)} {u : StorageUnit}
    (hd : q.dimension = u.dimension) {vs : List (Operand κ)}
    (h : (TensorFunction.each f).rule.values .toResult u (takingPart m q key x) c m = .ok (vs, m')) :
    ∃ y key' x' m₁, vs = [y, key', x'] ∧ q.valueIn u.scale c m = .ok (y, m₁) ∧
      [key, x].mapM (fun z => UnitRule.alignedValue u (z.participant m)) c m₁ = .ok ([key', x'], m') := by
  have hvalues : (TensorFunction.each f).rule.values .toResult u (takingPart m q key x) =
      (takingPart m q key x).mapM (UnitRule.alignedValue u) := by
    simp only [List.mem_cons, List.not_mem_nil, or_false] at hf
    rcases hf with rfl | rfl <;> rfl
  have hown : UnitRule.alignedValue u ⟨q, false⟩ = q.valueIn u.scale := if_pos hd
  rw [hvalues, takingPart, List.mapM_cons, hown, bind_eq_ok_iff] at h
  obtain ⟨y, m₁, hy, h⟩ := h
  obtain ⟨ys, m₂, hys, h⟩ := bind_eq_ok_iff.1 h
  obtain ⟨rfl, rfl⟩ := pure_eq_ok_iff.1 h
  have hmap : [key.participant m, x.participant m].mapM (UnitRule.alignedValue u) =
      [key, x].mapM (fun z => UnitRule.alignedValue u (z.participant m)) := by
    simp only [List.mapM_cons, List.mapM_nil]
  rw [hmap] at hys
  have htwo := hys
  rw [List.mapM_cons, bind_eq_ok_iff] at htwo
  obtain ⟨key', m₃, -, htwo⟩ := htwo
  rw [List.mapM_cons] at htwo
  obtain ⟨rest, m₄, hrest, htwo⟩ := bind_eq_ok_iff.1 htwo
  obtain ⟨rfl, -⟩ := pure_eq_ok_iff.1 htwo
  obtain ⟨x', m₅, -, hrest⟩ := bind_eq_ok_iff.1 hrest
  obtain ⟨none, m₆, hnone, hrest⟩ := bind_eq_ok_iff.1 hrest
  obtain ⟨rfl, -⟩ := pure_eq_ok_iff.1 hrest
  obtain ⟨rfl, -⟩ := pure_eq_ok_iff.1 hnone
  exact ⟨y, key', x', m₁, rfl, hy, hys⟩

theorem unit_of_sum (hf : f ∈ [.add, .subtract]) {ps : List (Participant κ)} {u : StorageUnit}
    (h : (TensorFunction.each f).rule.unit (.plain f.name) ps c m = .ok (u, m')) :
    commonUnit c.policy (.plain f.name) ps = .ok u ∧ m = m' := by
  have hshared : (TensorFunction.each f).rule.unit (.plain f.name) ps c m =
      (liftM (commonUnit c.policy (.plain f.name) ps) : Session κ _) c m := by
    simp only [List.mem_cons, List.not_mem_nil, or_false] at hf
    rcases hf with rfl | rfl <;> rfl
  rw [hshared] at h
  exact lift_eq_ok_iff.1 h

/-- the values of a product at chosen places are the stored ones -/
theorem values_of_product (hf : f ∈ [.multiply, .divide]) {q : Quantity (Operand κ)} {u : StorageUnit} {m₁ : Store κ}
    (hu : (TensorFunction.each f).rule.unit (.plain f.name) (takingPart m q key x) c m = .ok (u, m₁))
    {vs : List (Operand κ)}
    (h : (TensorFunction.each f).rule.values .toResult u (takingPart m q key x) c m₁ = .ok (vs, m')) :
    vs = [q.value, bareValue key, bareValue x] ∧ m = m' := by
  have hvalues : (TensorFunction.each f).rule.values .toResult u (takingPart m q key x) =
      pure [q.value, bareValue key, bareValue x] := by
    rw [← Operand.value_participant m key, ← Operand.value_participant m x]
    simp only [List.mem_cons, List.not_mem_nil, or_false] at hf
    rcases hf with rfl | rfl <;> rfl
  have hunit : m = m₁ := by
    simp only [List.mem_cons, List.not_mem_nil, or_false] at hf
    rcases hf with rfl | rfl <;> exact foldlM_keeps hu
  rw [hvalues] at h
  obtain ⟨rfl, rfl⟩ := pure_eq_ok_iff.1 h
  exact ⟨rfl, hunit⟩

/-! ## Updates of elements -/

/-- an element of a row of floats, at its place in memory -/
structure ElementOf (m : Store κ) (v : View) (i : Int) (p : Nat) : Prop where
  floats : v.IsFloatArray m
  uniform : (m.read v).IsUniform
  place : ∃ n j, v.shape = [n] ∧ Index.place n i = .ok j ∧ v.places.entries[j]? = some p

/-- an operator has changed an element: it leaves this memory, where all else is as it was -/
structure UpdatedElement (o : Operator) (v : View) (p : Nat) (u : StorageUnit) (i : Int) (x : Operand κ) (c : Context κ)
    (m m' : Store κ) : Prop where
  element : updateElement o ⟨.array v, u.dimension, u.scale⟩ (.integer i) x c m = .ok ((), m')
  others : ∀ w, (View.place v.buffer p).Disjoint w → m'.read w = m.read w

variable {i : Int} {p : Nat} {o : Operator} {u : StorageUnit}

/-- An element that a function has updated at its place, as the operator changes it. -/
theorem updatedElement_of_updateAt (hf : f ∈ [.add, .subtract, .multiply, .divide]) (ho : o.function = .each f)
    (hi : ElementOf m v i p) (hx : x.isSeries = false ∧ x.beginsWithQuantity = false) (hy : y.IsNumeric m)
    (hsingle : y.isArray = false) (h : updateAt f v (.integer i) [y] c m = .ok ((), m'))
    (happly : ∀ {old new b : Cell κ}, old.kind = .real → f.onCells .real [old, b] = .ok [new] → ReadsCell m y b →
      apply (.each f) .plainly [] [inUnitOf u (.item old), x] c m = .ok (inUnitOf u (.item new), m)) :
    UpdatedElement o v p u i x c m m' := by
  obtain ⟨hv, huniform, n, j, hn, hplace, hp⟩ := hi
  obtain ⟨p', old, new, b, hp', hold, hb, hnew, rfl⟩ := updateAt_element hf hv hn hplace hy hsingle h
  obtain rfl : p' = p := Option.some.inj (hp'.symm.trans hp)
  obtain ⟨cells, hbuffer, -⟩ := hv.inMemory
  have hlive : v.buffer < m.buffers.length := (List.getElem?_eq_some_iff.1 hbuffer).1
  have hkind : old.kind = .real := by
    rw [huniform old (List.mem_of_getElem? hold), Store.read, hbuffer]
  have hreal : new.kind = .real := by
    obtain ⟨cell, hcell, hcellKind⟩ := Elementwise.exists_onCells (Elementwise.computing_beside hf b.kind).1 .real old b
    cases hnew.symm.trans hcell
    exact hcellKind
  exact ⟨updateElement_eq hf ho hlive hn hplace hp hold hx (happly hkind hnew hb) hreal,
    fun w hw => Store.read_write_disjoint hw _⟩

theorem operates_of_isMeasure (hx : x.IsMeasure m) : x.isSeries = false ∧ x.beginsWithQuantity = false := by
  cases x <;> first | exact ⟨rfl, rfl⟩ | exact hx.elim

/-- a whole number that is still a key once it has been aligned is the same one -/
theorem alignedValue_key {x' : Operand κ} {others : List (Operand κ)}
    {m₁ : Store κ} (h : UnitRule.alignedValue u ((Operand.integer i).participant m) c m = .ok (x', m₁))
    (hupdate : updateAt f v x' others c m = .ok ((), m')) : x' = .integer i := by
  obtain ⟨-, -, -, rfl | ⟨z, rfl | rfl⟩⟩ := alignedValue_single (x := .integer i) trivial rfl h
  · rfl
  · cases hupdate
  · cases hupdate

theorem updatedElement_of_sum (hf : f ∈ [.add, .subtract]) (ho : o.function = .each f) (hi : ElementOf m v i p)
    (hx : x.IsMeasure m) (hsingle : (bareValue x).isArray = false)
    (hcommon : commonUnit c.policy (.plain f.name)
      (takingPart m ⟨.array v, u.dimension, u.scale⟩ (.integer i) x) = .ok u) {key' x' : Operand κ} {m₁ : Store κ}
    (haligned : [.integer i, x].mapM (fun z => UnitRule.alignedValue u (z.participant m)) c m = .ok ([key', x'], m₁))
    (hrun : computeBare (.each f) .atPlaces [] [.array v, key', x'] c m₁ = .ok ([], m')) :
    UpdatedElement o v p u i x c m m' := by
  have hmem : f ∈ [.add, .subtract] ++ [.multiply, .divide] := List.mem_append_left _ hf
  obtain ⟨w, key, others, hlist, hupdate, -⟩ := computeBare_atPlaces hrun
  cases hlist
  rw [List.mapM_cons, List.mapM_cons, List.mapM_nil] at haligned
  obtain ⟨key, m₂, hkey, haligned⟩ := bind_eq_ok_iff.1 haligned
  obtain ⟨xs, m₃, hxs, haligned⟩ := bind_eq_ok_iff.1 haligned
  obtain ⟨y, m₄, hy, hxs⟩ := bind_eq_ok_iff.1 hxs
  cases hxs
  cases haligned
  obtain ⟨rfl, -⟩ := alignedValue_single (x := .integer i) trivial rfl hkey
  obtain ⟨rfl, hnumeric, hone, -⟩ := alignedValue_single hx hsingle hy
  obtain rfl := alignedValue_key hkey hupdate
  obtain ⟨hseries, hbegins⟩ := operates_of_isMeasure hx
  have hcommon (old : Cell κ) : commonUnit c.policy (.plain f.name) [participantIn u (.item old), x.participant m] =
      .ok u :=
    commonUnit_of_subset rfl rfl rfl (List.subset_cons_self _ _) hcommon
  exact updatedElement_of_updateAt hmem ho hi ⟨hseries, hbegins⟩ hnumeric hone hupdate
    fun hold hnew hb => apply_sum hold hnew hf hseries (hcommon _) hy hb

/-- a product, which is always seen -/
theorem updatedElement_of_product (hf : f ∈ [.multiply, .divide]) (ho : o.function = .each f) (hi : ElementOf m v i p)
    (hx : x.IsMeasure m) (hsingle : (bareValue x).isArray = false)
    (hrun : computeBare (.each f) .atPlaces [] [.array v, .integer i, bareValue x] c m = .ok ([], m')) :
    UpdatedElement o v p u i (bareValue x) c m m' := by
  have hmem : f ∈ [.add, .subtract] ++ [.multiply, .divide] := List.mem_append_right _ hf
  obtain ⟨w, key, others, hlist, hupdate, -⟩ := computeBare_atPlaces hrun
  cases hlist
  have hbare : bareValue (bareValue x) = bareValue x := by
    unfold Operand.IsMeasure at hx
    cases hvalue : bareValue x <;> rw [hvalue] at hx <;> first | rfl | exact hx.elim
  have hmeasure : (bareValue x).IsMeasure m := by
    rw [Operand.IsMeasure, hbare]
    exact hx
  exact updatedElement_of_updateAt hmem ho hi (operates_of_isMeasure hmeasure) hx hsingle hupdate
    fun hold hnew hb => apply_product hold hnew hf hb

section Written

variable (hkey : key.isSeries = false) (hx : x.isSeries = false)
  (h : callWith (.each f) .at_ [.quantity ⟨.array v, d, s⟩, key, x] [] c m = .ok (y, m'))

include hkey hx h

theorem written_of_product (hf : f ∈ [.multiply, .divide]) :
    computeBare (.each f) .atPlaces [] [.array v, bareValue key, bareValue x] c m = .ok ([], m') := by
  have hmem : f ∈ [.add, .subtract] ++ [.multiply, .divide] := List.mem_append_right _ hf
  obtain ⟨u, m₁, vs, m₂, zs, hu, hvs, hzs, rfl⟩ := atPlaces_steps hmem hkey hx h
  obtain ⟨w, k, others, hlist, hupdate, rfl⟩ := computeBare_atPlaces hzs
  obtain ⟨rfl, rfl⟩ := values_of_product hf hu hvs
  exact hzs

/-- a sum is written in the scale of the array, and lost in any other -/
theorem written_of_sum (hf : f ∈ [.add, .subtract]) :
    ∃ u, commonUnit c.policy (.plain f.name) (takingPart m ⟨.array v, d, s⟩ key x) = .ok u ∧ u.dimension = d ∧
      if u.scale = s then ∃ key' x' m₁, m.Grows m₁ ∧
        [key, x].mapM (fun z => UnitRule.alignedValue u (z.participant m)) c m = .ok ([key', x'], m₁) ∧
        computeBare (.each f) .atPlaces [] [.array v, key', x'] c m₁ = .ok ([], m')
      else ∀ w : View, w.buffer < m.buffers.length → m'.read w = m.read w := by
  have hmem : f ∈ [.add, .subtract] ++ [.multiply, .divide] := List.mem_append_left _ hf
  obtain ⟨u, m₁, vs, m₂, zs, hu, hvs, hzs, rfl⟩ := atPlaces_steps hmem hkey hx h
  obtain ⟨w, k, others, hlist, hupdate, rfl⟩ := computeBare_atPlaces hzs
  obtain ⟨hcommon, rfl⟩ := unit_of_sum hf hu
  have hd : d = u.dimension := dimension_eq_of_commonUnit hcommon List.mem_cons_self rfl
  obtain ⟨y, key', x', m₃, rfl, hy, hrest⟩ := values_of_sum hf hd hvs
  refine ⟨u, hcommon, hd.symm, ?_⟩
  have hadds := (Adds.mapM (fun z => adds_alignedValue u (z.participant m)) [key, x]).grows hrest
  split
  · next hs =>
    rw [hs] at hy
    have hown := Quantity.valueIn_same ⟨.array v, d, s⟩ c m
    rw [hown] at hy
    cases hy
    exact ⟨key', x', m₂, hadds, hrest, hzs⟩
  · next hs =>
    rcases valueIn_array (Ne.symm hs) hy with ⟨w', rfl, hbuffer⟩ | harray
    · cases hlist
      have hgrows : m.Grows m₂ := ((adds_convert _ _).grows hy).trans hadds
      exact fun w hw => ((apart_updateAt hbuffer f _ _).grows hgrows hupdate).read hw
    · cases hlist
      cases harray

end Written

/-- **Updates at chosen places.** Nothing is given back. A product or quotient is written with the number that the
operand stores, whatever its unit. A sum or difference is written if the common unit of all operands is the array's own;
in any other scale it is lost, and every array shows what it showed. What is written at an element of a row of floats is
what the operator leaves there, with the operand or with the number that it stores, and all else is as it was. -/
theorem atPlaces_spec (hf : f ∈ [.add, .subtract, .multiply, .divide]) (hkey : key.isSeries = false)
    (hx : x.isSeries = false)
    (h : callWith (.each f) .at_ [.quantity ⟨.array v, d, s⟩, key, x] [] c m = .ok (y, m')) :
    y = .absent ∧
    (f ∈ [.multiply, .divide] →
      computeBare (.each f) .atPlaces [] [.array v, bareValue key, bareValue x] c m = .ok ([], m')) ∧
    (f ∈ [.add, .subtract] → ∃ u, commonUnit c.policy (.plain f.name) (takingPart m ⟨.array v, d, s⟩ key x) = .ok u ∧
      u.dimension = d ∧
      if u.scale = s then ∃ key' x' m₁, m.Grows m₁ ∧
        [key, x].mapM (fun z => UnitRule.alignedValue u (z.participant m)) c m = .ok ([key', x'], m₁) ∧
        computeBare (.each f) .atPlaces [] [.array v, key', x'] c m₁ = .ok ([], m')
      else ∀ w : View, w.buffer < m.buffers.length → m'.read w = m.read w) ∧
    ∀ {i : Int} {p : Nat} {o : Operator}, key = .integer i → ElementOf m v i p → o.function = .each f →
      x.IsMeasure m → (bareValue x).isArray = false →
      (f ∈ [.multiply, .divide] → UpdatedElement o v p ⟨d, s⟩ i (bareValue x) c m m') ∧
      (f ∈ [.add, .subtract] → commonUnit c.policy (.plain f.name) (takingPart m ⟨.array v, d, s⟩ key x) = .ok ⟨d, s⟩ →
        UpdatedElement o v p ⟨d, s⟩ i x c m m') := by
  have habsent : y = .absent := by
    obtain ⟨u, m₁, vs, m₂, zs, -, -, hzs, rfl⟩ := atPlaces_steps hf hkey hx h
    obtain ⟨w, k, others, -, -, rfl⟩ := computeBare_atPlaces hzs
    rfl
  refine ⟨habsent, written_of_product hkey hx h, written_of_sum hkey hx h, ?_⟩
  rintro i p o rfl hi ho hmeasure hsingle
  refine ⟨fun hproduct => ?_, fun hsum hcommon => ?_⟩
  · exact updatedElement_of_product hproduct ho hi hmeasure hsingle (written_of_product hkey hx h hproduct)
  · obtain ⟨u, hu, -, hwritten⟩ := written_of_sum hkey hx h hsum
    cases hcommon.symm.trans hu
    rw [if_pos rfl] at hwritten
    obtain ⟨key', x', m₁, -, haligned, hrun⟩ := hwritten
    exact updatedElement_of_sum hsum ho hi hmeasure hsingle hcommon haligned hrun

/-! ## Kilometers and meters -/

/-- a memory of two numbers -/
def twoNumbers (x y : κ) : Store κ := ⟨[⟨.real, [.real x, .real y]⟩]⟩

/-- the view of both -/
def bothNumbers : View := ⟨0, ⟨[2], [0, 1]⟩⟩

/-- both numbers as kilometers -/
def kilometers (κ : Type) : Quantity (Operand κ) := ⟨.array bothNumbers, { length := 1 }, .ten 3⟩

def meters (x : κ) : Operand κ := .quantity ⟨.number x, { length := 1 }, .one⟩

/-- nothing but a policy in force -/
def underPolicy (p : ScalePolicy) : Context κ := ⟨p, .empty [] []⟩

/-- 500 meters added to one kilometer -/
theorem atPlaces_spec_kilometers : ∃ m',
    callWith (.each .add) .at_ [.quantity (kilometers ℝ), .integer 0, meters 500] [] (underPolicy .smallerWins)
      (twoNumbers 1 2) = .ok (.absent, m') ∧ m'.read bothNumbers = (twoNumbers 1 2).read bothNumbers := by
  obtain ⟨m', hrun⟩ : ∃ m', callWith (.each .add) .at_ [.quantity (kilometers ℝ), .integer 0, meters 500] []
      (underPolicy .smallerWins) (twoNumbers 1 2) = .ok (.absent, m') := ⟨_, rfl⟩
  obtain ⟨u, hu, -, hlost⟩ := (atPlaces_spec (by decide) (by rfl) (by rfl) hrun).2.2.1 (by decide)
  cases hu
  exact ⟨m', hrun, hlost bothNumbers (by decide)⟩

/-- **Not the operator on the element.** 500 meters added to one kilometer are lost, where the operator leaves 1.5
kilometers; two kilometers times three meters become six kilometers, where the operator refuses the unit. -/
theorem atPlaces_not_inPlace :
    (∃ m', callWith (.each .add) .at_ [.quantity (kilometers ℝ), .integer 0, meters 500] [] (underPolicy .smallerWins)
        (twoNumbers 1 2) = .ok (.absent, m') ∧ m'.read bothNumbers = ⟨.real, ⟨[2], [.real 1, .real 2]⟩⟩) ∧
    (∃ m', updateElement .add (kilometers ℝ) (.integer 0) (meters 500) (underPolicy .smallerWins) (twoNumbers 1 2) =
        .ok ((), m') ∧ m'.read bothNumbers = ⟨.real, ⟨[2], [.real 1.5, .real 2]⟩⟩) ∧
    (∃ m', callWith (.each .multiply) .at_ [.quantity (kilometers Float), .integer 1, meters 3.0] []
        (underPolicy .smallerWins) (twoNumbers 1.0 2.0) = .ok (.absent, m') ∧
      (m'.read bothNumbers).numbers.entries = [1.0, 6.0]) ∧
    updateElement .mul (kilometers Float) (.integer 1) (meters 3.0) (underPolicy .smallerWins) (twoNumbers 1.0 2.0) =
      .error (.mismatch { length := 1 } { length := 2 } (.apply "__setitem__" (.nth 1 "argument"))) := by
  refine ⟨⟨_, rfl, rfl⟩, ?_, ⟨_, rfl, by decide +kernel⟩, rfl⟩
  have hsum : ∃ m', updateElement .add (kilometers ℝ) (.integer 0) (meters 500) (underPolicy .smallerWins)
        (twoNumbers 1 2) = .ok ((), m') ∧ m'.read bothNumbers =
      ⟨.real, ⟨[2], [.real ((1 * (Scale.ten 3).real + 500) * (Scale.ten (-3)).real), .real 2]⟩⟩ := ⟨_, rfl, rfl⟩
  have hthousand : (Scale.ten 3).real = 1000 := by
    change (2 : ℝ) ^ (3 : ℤ) * ((3 : ℝ) ^ (0 : ℤ) * ((5 : ℝ) ^ (3 : ℤ) * (Real.pi ^ (0 : ℤ) * 1))) = 1000
    norm_num
  have hthousandth : (Scale.ten (-3)).real = 1 / 1000 := by
    change (2 : ℝ) ^ (-3 : ℤ) * ((3 : ℝ) ^ (0 : ℤ) * ((5 : ℝ) ^ (-3 : ℤ) * (Real.pi ^ (0 : ℤ) * 1))) = 1 / 1000
    norm_num
  have hvalue : ((1 * (Scale.ten 3).real + 500) * (Scale.ten (-3)).real : ℝ) = 1.5 := by
    rw [hthousand, hthousandth]
    norm_num
  rwa [hvalue] at hsum

end Session

end UnitAlgebra

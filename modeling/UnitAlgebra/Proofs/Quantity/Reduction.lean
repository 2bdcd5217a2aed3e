/-
Reductions of rows. A function of two operands that is folded over a row sees one operand in its unit rule, so the
result has the unit of the row. Folding the operation itself over the elements gives the unit that the operation gives:
for products and quotients that is a power of the unit of the elements. The values are the same but for truth values,
which a reduction counts, and for numbers, which it sums as a row.

Results:
- `StorageUnit.isPower_self_iff`: only the unit of bare numbers is another power of itself.
- `call_items`: the operation on two items.
- `reduce_row`: a reduction has the unit of the row.
- `foldElements_row`: a fold has a power of it.
- `reduce_spec`: what either gives, and when the two are the same.
- `reduce_not_fold`: lengths for which they are not.
-/
import Mathlib
import UnitAlgebra.Proofs.Decimal.Neutral
import UnitAlgebra.Proofs.Quantity.Layers
import UnitAlgebra.Proofs.Quantity.Places
import UnitAlgebra.Proofs.Tensor.Reductions
import UnitAlgebra.Quantity.Access
import UnitAlgebra.Quantity.Call

namespace UnitAlgebra

/-! ## Powers of units -/

namespace StorageUnit

/-- a unit with the exponents of a power of another -/
structure IsPower (w : StorageUnit) (n : Int) (u : StorageUnit) : Prop where
  dimension : ∀ a, (w.dimension.get a).val = n * (u.dimension.get a).val
  scale : ∀ b, (w.scale.get b).val = n * (u.scale.get b).val

theorem IsPower.unique {n : Int} {u v w : StorageUnit} (hv : v.IsPower n u) (hw : w.IsPower n u) : v = w := by
  have hd : v.dimension = w.dimension :=
    Dimension.ext_get fun a => Exponent.ext ((hv.dimension a).trans (hw.dimension a).symm)
  have hs : v.scale = w.scale := Scale.ext_get fun b => Exponent.ext ((hv.scale b).trans (hw.scale b).symm)
  obtain ⟨d, s⟩ := v
  obtain ⟨d', s'⟩ := w
  exact congrArg₂ StorageUnit.mk hd hs

/-- only the unit of bare numbers is another power of itself -/
theorem isPower_self_iff {n : Int} {u : StorageUnit} : u.IsPower n u ↔ n = 1 ∨ u = .one := by
  constructor
  · intro h
    refine or_iff_not_imp_left.2 fun hn => ?_
    have hzero {e : Exponent} (he : e.val = n * e.val) : e = 0 := by
      have hproduct : (n - 1) * e.val = 0 := by rw [sub_mul, ← he, one_mul, sub_self]
      exact Exponent.ext ((mul_eq_zero.1 hproduct).resolve_left (sub_ne_zero.2 hn))
    have hd : u.dimension = .one := Dimension.ext_get fun a => (hzero (h.dimension a)).trans (by cases a <;> rfl)
    have hs : u.scale = .one := Scale.ext_get fun b => (hzero (h.scale b)).trans (by cases b <;> rfl)
    obtain ⟨d, s⟩ := u
    exact congrArg₂ StorageUnit.mk hd hs
  · rintro (rfl | rfl)
    · exact ⟨fun _ => (one_mul _).symm, fun _ => (one_mul _).symm⟩
    · exact ⟨fun a => by cases a <;> exact (mul_zero n).symm, fun b => by cases b <;> exact (mul_zero n).symm⟩

theorem isPower_one (u : StorageUnit) : u.IsPower 1 u := isPower_self_iff.2 (Or.inl rfl)

/-- between two powers of a unit there are all powers -/
theorem IsPower.exists_between {u v w : StorageUnit} {p q n : Int} (hv : v.IsPower p u) (hw : w.IsPower q u)
    (hn : p ≤ n ∧ n ≤ q ∨ q ≤ n ∧ n ≤ p) : ∃ x : StorageUnit, x.IsPower n u := by
  have hrange {e : Int} (hp : InRange (p * e)) (hq : InRange (q * e)) : InRange (n * e) := by
    have hbetween : p * e ≤ n * e ∧ n * e ≤ q * e ∨ q * e ≤ n * e ∧ n * e ≤ p * e := by
      rcases le_total 0 e with he | he
      · exact hn.imp (fun h => ⟨Int.mul_le_mul_of_nonneg_right h.1 he, Int.mul_le_mul_of_nonneg_right h.2 he⟩)
          fun h => ⟨Int.mul_le_mul_of_nonneg_right h.1 he, Int.mul_le_mul_of_nonneg_right h.2 he⟩
      · exact hn.symm.imp (fun h => ⟨Int.mul_le_mul_of_nonpos_right h.2 he, Int.mul_le_mul_of_nonpos_right h.1 he⟩)
          fun h => ⟨Int.mul_le_mul_of_nonpos_right h.2 he, Int.mul_le_mul_of_nonpos_right h.1 he⟩
    unfold InRange at *
    omega
  obtain ⟨d, -, hd⟩ := (Dimension.reaches_pow u.dimension n).exists_of_inRange fun a =>
    hrange (hv.dimension a ▸ (v.dimension.get a).bounded) (hw.dimension a ▸ (w.dimension.get a).bounded)
  obtain ⟨s, -, hs⟩ := (Scale.reaches_pow u.scale n).exists_of_inRange fun b =>
    hrange (hv.scale b ▸ (v.scale.get b).bounded) (hw.scale b ▸ (w.scale.get b).bounded)
  exact ⟨⟨d, s⟩, hd, hs⟩

end StorageUnit

namespace Elementwise

/-- what every further operand adds to the exponents of the result -/
def exponentGain : Elementwise → Int
  | multiply => 1
  | divide => -1
  | _ => 0

/-- the power of the common unit of so many operands that the result of a fold has -/
def foldExponent (f : Elementwise) (n : Nat) : Int :=
  match f with
  | multiply => n
  | divide => 2 - n
  | _ => 1

theorem foldExponent_eq (f : Elementwise) (n : Nat) : f.foldExponent n = 1 + (n - 1) * f.exponentGain := by
  cases f <;> simp only [foldExponent, exponentGain] <;> ring

theorem foldExponent_eq_one_iff {f : Elementwise} {n : Nat} (hn : 2 ≤ n) :
    f.foldExponent n = 1 ↔ f ∉ [.multiply, .divide] := by
  cases f <;> simp [foldExponent] <;> omega

/-- the unit of a function of two operands, which share their unit unless it is a product or a quotient -/
def unitOfTwo (f : Elementwise) (w u : StorageUnit) : Outcome StorageUnit :=
  match f with
  | multiply => w.mul u
  | divide => w.div u
  | _ => .ok w

theorem unitOfTwo_eq_ok_iff (f : Elementwise) {n : Int} {u v w : StorageUnit} (hv : v.IsPower n u) :
    f.unitOfTwo v u = .ok w ↔ w.IsPower (n + f.exponentGain) u := by
  have hsame : (.ok v : Outcome StorageUnit) = .ok w ↔ w.IsPower (n + 0) u := by
    rw [add_zero, Except.ok.injEq]
    exact ⟨fun h => h ▸ hv, hv.unique⟩
  cases f
  case multiply =>
    have hsum (e : Int) : n * e + e = (n + 1) * e := by ring
    have hmul : v.mul u = .ok w ↔ w.IsPower (n + 1) u := by
      simp only [StorageUnit.mul_eq_ok_iff, hv.dimension, hv.scale, hsum]
      exact ⟨fun h => ⟨h.1, h.2⟩, fun h => ⟨h.dimension, h.scale⟩⟩
    exact hmul
  case divide =>
    have hdifference (e : Int) : n * e - e = (n + -1) * e := by ring
    have hdiv : v.div u = .ok w ↔ w.IsPower (n + -1) u := by
      simp only [StorageUnit.div_eq_ok_iff, hv.dimension, hv.scale, hdifference]
      exact ⟨fun h => ⟨h.1, h.2⟩, fun h => ⟨h.dimension, h.scale⟩⟩
    exact hdiv
  all_goals exact hsame

theorem givesQuantity_of_folding {f : Elementwise} (hf : f ∈ folding) :
    (TensorFunction.each f).givesQuantity = true := by
  simp only [folding, List.mem_cons, List.not_mem_nil, or_false] at hf
  rcases hf with rfl | rfl | rfl | rfl | rfl | rfl <;> rfl

/-- the operands of the function share a unit, which the result has too -/
structure SharesUnit (f : Elementwise) : Prop where
  rule : (TensorFunction.each f).rule = .shared
  alignment : (TensorFunction.each f).alignment = .toResult
  unitOfTwo : ∀ w u, f.unitOfTwo w u = .ok w
  exponentGain : f.exponentGain = 0

theorem sharesUnit_of_folding {f : Elementwise} (hf : f ∈ folding) : f.SharesUnit ∨ f = .multiply ∨ f = .divide := by
  simp only [folding, List.mem_cons, List.not_mem_nil, or_false] at hf
  rcases hf with rfl | rfl | rfl | rfl | rfl | rfl
  case inr.inr.inl => exact Or.inr (Or.inl rfl)
  case inr.inr.inr.inl => exact Or.inr (Or.inr rfl)
  all_goals exact Or.inl ⟨rfl, rfl, fun _ _ => rfl, rfl⟩

end Elementwise

/-! ## Two items -/

namespace Session

variable {κ : Type} [Numeric κ] {c : Context κ} {m m' : Store κ}

theorem readsCell_item (b : Cell κ) : ReadsCell m (.item b) b := ⟨trivial, by cases b <;> rfl⟩

section Units

variable {f : Elementwise} {u w : StorageUnit}

/-- the unit of a function of two quantities, of one unit unless it is a product or a quotient -/
theorem unit_of_two (hf : f ∈ Elementwise.folding) (hshared : f.SharesUnit → w = u) (wording : Wording)
    (x y : Operand κ) :
    (TensorFunction.each f).rule.unit wording [participantIn w x, participantIn u y] c m =
      (liftM (f.unitOfTwo w u) : Session κ StorageUnit) c m := by
  rcases Elementwise.sharesUnit_of_folding hf with hf | rfl | rfl
  · obtain rfl : w = u := hshared hf
    have hcommon : commonUnit c.policy wording [participantIn w x, participantIn w y] = .ok w := by
      rw [participantIn, participantIn, commonUnit_pair, if_pos rfl, ScalePolicy.resolve, ScalePolicy.resolve_same]
      rfl
    rw [hf.rule, hf.unitOfTwo, ← hcommon]
    rfl
  · have hfold : [participantIn u y].foldlM (fun v p => (liftM (v.mul p.unit) : Session κ StorageUnit)) w =
      liftM (w.mul u) := bind_pure _
    exact congrArg (fun act => act c m) hfold
  · have hfold : [participantIn u y].foldlM (fun v p => (liftM (v.div p.unit) : Session κ StorageUnit)) w =
      liftM (w.div u) := bind_pure _
    exact congrArg (fun act => act c m) hfold

theorem values_of_two (hf : f ∈ Elementwise.folding) (hshared : f.SharesUnit → w = u)
    {v : StorageUnit} (hv : f.unitOfTwo w u = .ok v) (x y : Operand κ) :
    (TensorFunction.each f).rule.values (TensorFunction.each f).alignment v [participantIn w x, participantIn u y] c m =
      .ok ([x, y], m) := by
  rcases Elementwise.sharesUnit_of_folding hf with hf | rfl | rfl
  · obtain rfl : w = u := hshared hf
    obtain rfl : w = v := Except.ok.inj ((hf.unitOfTwo w w).symm.trans hv)
    rw [hf.rule, hf.alignment]
    change ([participantIn w x, participantIn w y].mapM (UnitRule.alignedValue w)) c m = _
    simp only [List.mapM_cons, List.mapM_nil]
    rw [bind_of_ok (alignedValue_participantIn w x), bind_of_ok (bind_of_ok (alignedValue_participantIn w y))]
    rfl
  · rfl
  · rfl

theorem unit_of_one (hf : f ∈ Elementwise.folding) (wording : Wording) (x : Operand κ) :
    (TensorFunction.each f).rule.unit wording [participantIn u x] c m = .ok (u, m) := by
  rcases Elementwise.sharesUnit_of_folding hf with hf | rfl | rfl
  · have hcommon : commonUnit c.policy wording [participantIn u x] = .ok u := by
      change matching c.policy wording u [(u, 0)] = .ok u
      rw [matching, if_pos rfl, ScalePolicy.resolve, ScalePolicy.resolve_same]
      rfl
    rw [hf.rule]
    exact congrArg (fun o => (liftM o : Session κ StorageUnit) c m) hcommon
  · rfl
  · rfl

theorem values_of_one (hf : f ∈ Elementwise.folding) (x : Operand κ) :
    (TensorFunction.each f).rule.values (TensorFunction.each f).alignment u [participantIn u x] c m = .ok ([x], m) := by
  rcases Elementwise.sharesUnit_of_folding hf with hf | rfl | rfl
  · rw [hf.rule, hf.alignment]
    change [participantIn u x].mapM (UnitRule.alignedValue u) c m = _
    rw [List.mapM_cons, bind_of_ok (alignedValue_participantIn u x)]
    rfl
  · rfl
  · rfl

end Units

/-- **Two items.** -/
theorem call_items {f : Elementwise} (hf : f ∈ Elementwise.folding) {k : Kind} {a b : Cell κ}
    (hk : f.computing (Kind.joinAll [a.kind, b.kind]) = some k) {u w : StorageUnit} (hshared : f.SharesUnit → w = u)
    {z : Operand κ} : call f [inUnitOf w (.item a), inUnitOf u (.item b)] c m = .ok (z, m') ↔
      m' = m ∧ ∃ v cell, f.unitOfTwo w u = .ok v ∧ f.onTwo k a b = .ok cell ∧ z = inUnitOf v (.item cell) := by
  obtain ⟨cell, hcell, -⟩ := Elementwise.exists_onCells hf k a b
  have hrun : call f [inUnitOf w (.item a), inUnitOf u (.item b)] c m =
      (f.unitOfTwo w u >>= fun v => .ok (inUnitOf v (.item cell), m)) := by
    have hparticipants : [inUnitOf w (.item a), inUnitOf u (.item b)].map (Operand.participant m) =
      [participantIn w (.item a), participantIn u (.item b)] := rfl
    rw [call, apply_quantities rfl rfl, bind_of_ok (mapM_ofOperand _ c m), hparticipants]
    have hunit := unit_of_two (c := c) (m := m) hf hshared (.plain (TensorFunction.each f).name) (.item a) (.item b)
    cases hv : f.unitOfTwo w u with
    | error fault =>
      rw [hv] at hunit
      rw [bind_of_error hunit]
      rfl
    | ok v =>
      rw [hv] at hunit
      have hcheck : (liftM (checkOutputs (.each f) v ([] : List (Operand κ))) : Session κ Unit) c m = .ok ((), m) := rfl
      rw [bind_of_ok hunit, bind_of_ok (values_of_two hf hshared hv _ _), bind_of_ok hcheck,
        List.map_nil, bind_of_ok (computeBare_beside hf (readsCell_item b) hk hcell), Elementwise.givesQuantity_of_folding hf]
      rfl
  rw [hrun, Outcome.bind_eq_ok_iff]
  constructor
  · rintro ⟨v, hv, h⟩
    cases h
    exact ⟨rfl, v, cell, hv, Elementwise.onTwo_eq hcell, rfl⟩
  · rintro ⟨rfl, v, d, hv, hd, rfl⟩
    rw [Elementwise.onTwo_eq hcell] at hd
    cases hd
    exact ⟨v, hv, rfl⟩

/-! ## Rows -/

variable {f : Elementwise} {v : View} {n : Nat}

theorem computeBare_row (hf : f ∈ Elementwise.folding) (hv : (Operand.array v).IsNumeric m) (hn : v.shape = [n])
    {given : Option (Operand κ)} {start : Start κ} (hstart : startOf given c m = .ok (start, m))
    {zs : List (Operand κ)} :
    computeBare (.each f) (.folded ⟨.integer 0, false, given, none⟩) [] [.array v] c m = .ok (zs, m') ↔
      m' = m ∧ ∃ k cell, f.foldingKind (m.read v).kind = .ok k ∧
        Tensor.foldRows f k start [(m.read v).grid.entries] = .ok cell ∧ zs = [.item cell] := by
  have hshape : (m.read v).grid.shape = [n] := (m.shape_read v).trans hn
  have hfoldable : f.foldable = true := by
    simp only [Elementwise.folding, List.mem_cons, List.not_mem_nil, or_false] at hf
    rcases hf with rfl | rfl | rfl | rfl | rfl | rfl <;> rfl
  have haxes : Tensor.axesOf (m.read v).grid.rank (.integer 0 : Operand κ) = .ok [0] := by
    rw [Grid.rank, hshape]
    rfl
  have hread : tensorOf (.array v) c m = .ok (m.read v, m) := rfl
  have hlift : (liftM (Except.ok [0] : Outcome (List Nat)) : Session κ (List Nat)) c m = .ok ([0], m) := rfl
  have hrun : computeBare (.each f) (.folded ⟨.integer 0, false, given, none⟩) [] [.array v] c m =
      ((liftM ((m.read v).reduce f [0] false start none none) : Session κ _) >>= fun t => [t].mapM computed) c m := by
    rw [computeBare_nil (.folded _) (by simp)]
    simp only [resultsOf, hfoldable, if_true, bind_assoc, pure_bind]
    rw [bind_of_ok hread, haxes, bind_of_ok hlift, bind_of_ok hstart]
    rfl
  rw [hrun, bind_eq_ok_iff]
  constructor
  · rintro ⟨r, m₁, hr, h⟩
    obtain ⟨hreduce, rfl⟩ := lift_eq_ok_iff.1 hr
    obtain ⟨k, cell, hk, hcell, rfl⟩ := (Tensor.reduce_row hv.filled hshape start).1 hreduce
    cases h
    exact ⟨rfl, k, cell, hk, hcell, rfl⟩
  · rintro ⟨rfl, k, cell, hk, hcell, rfl⟩
    exact ⟨_, _, lift_eq_ok_iff.2 ⟨(Tensor.reduce_row hv.filled hshape start).2 ⟨k, cell, hk, hcell, rfl⟩, rfl⟩, rfl⟩

theorem apply_one (hf : f ∈ Elementwise.folding) (way : Way κ) (u : StorageUnit) (x : Operand κ) :
    apply (.each f) way [] [inUnitOf u x] c m = (computeBare (.each f) way [] [x] >>= fun zs =>
      (pure (together (zs.map (inUnitOf u))) : Session κ (Operand κ))) c m := by
  have hparticipants : [inUnitOf u x].map (Operand.participant m) = [participantIn u x] := rfl
  have hcheck : (liftM (checkOutputs (.each f) u ([] : List (Operand κ))) : Session κ Unit) c m = .ok ((), m) := rfl
  rw [apply_quantities rfl rfl, bind_of_ok (mapM_ofOperand _ c m), hparticipants, bind_of_ok (unit_of_one hf _ _),
    bind_of_ok (values_of_one hf _), bind_of_ok hcheck, List.map_nil, Elementwise.givesQuantity_of_folding hf]
  rfl

/-- **Reductions of rows.** A reduction has the unit of the row. -/
theorem reduce_row (hf : f ∈ Elementwise.folding) (hv : (Operand.array v).IsNumeric m) (hn : v.shape = [n])
    {given : Option (Operand κ)} {start : Start κ} (hstart : startOf given c m = .ok (start, m))
    {u : StorageUnit} {y : Operand κ} :
    apply (.each f) (.folded ⟨.integer 0, false, given, none⟩) [] [inUnitOf u (.array v)] c m = .ok (y, m') ↔
      m' = m ∧ ∃ k cell, f.foldingKind (m.read v).kind = .ok k ∧
        Tensor.foldRows f k start [(m.read v).grid.entries] = .ok cell ∧ y = inUnitOf u (.item cell) := by
  rw [apply_one hf, bind_eq_ok_iff]
  constructor
  · rintro ⟨zs, m₁, hzs, h⟩
    obtain ⟨rfl, k, cell, hk, hcell, rfl⟩ := (computeBare_row hf hv hn hstart).1 hzs
    obtain ⟨rfl, rfl⟩ := pure_eq_ok_iff.1 h
    exact ⟨rfl, k, cell, hk, hcell, rfl⟩
  · rintro ⟨rfl, k, cell, hk, hcell, rfl⟩
    exact ⟨_, _, (computeBare_row hf hv hn hstart).2 ⟨rfl, k, cell, hk, hcell, rfl⟩, rfl⟩

/-! ## Folding the operation -/

/-- what has been folded, and the next element -/
def foldNext (f : Elementwise) (q : Quantity (Operand κ)) (folded : Operand κ) (i : Nat) : Session κ (Operand κ) := do
  call f [folded, ← select q (.integer i)]

/-- a function of two operands folded over the first elements of a quantity, from the left -/
def foldElements (f : Elementwise) (q : Quantity (Operand κ)) (n : Nat) : Session κ (Operand κ) := do
  (List.range' 1 (n - 1)).foldlM (foldNext f q) (← select q (.integer 0))

theorem select_natCast (hv : (Operand.array v).IsNumeric m) (hn : v.shape = [n]) {u : StorageUnit} {i : Nat}
    {cell : Cell κ} (hi : (m.read v).grid.entries[i]? = some cell) :
    select ⟨.array v, u.dimension, u.scale⟩ (.integer i) c m = .ok (inUnitOf u (.item cell), m) := by
  have hlt : i < n := by
    rw [← hv.filled.length_row ((m.shape_read v).trans hn)]
    exact (List.getElem?_eq_some_iff.1 hi).1
  exact select_row hv.1 hn (Grid.place_natCast hlt) hi

section Folds

variable (hf : f ∈ Elementwise.folding) (hv : (Operand.array v).IsNumeric m) (hn : v.shape = [n]) {u : StorageUnit}
  {k : Kind} (hk : f.closedKind (m.read v).kind = .ok k)

include hf hv hn hk

theorem foldNext_row {w : StorageUnit} {e : Int} (hw : w.IsPower e u) (hshared : f.SharesUnit → e = 1) {a b : Cell κ}
    (ha : a.kind = k ∨ a.kind = (m.read v).kind) {i : Nat}
    (hi : (m.read v).grid.entries[i]? = some b) {z : Operand κ} :
    foldNext f ⟨.array v, u.dimension, u.scale⟩ (inUnitOf w (.item a)) i c m = .ok (z, m') ↔
      m' = m ∧ ∃ x cell, x.IsPower (e + f.exponentGain) u ∧ f.onTwo k a b = .ok cell ∧ z = inUnitOf x (.item cell) := by
  have hb : b.kind = (m.read v).kind := hv.uniform b (List.mem_of_getElem? hi)
  have hcomputing : f.computing (Kind.joinAll [a.kind, b.kind]) = some k := by
    rw [hb]
    rcases ha with ha | ha <;> rw [ha]
    · exact (Elementwise.computing_of_closedKind hf hk).2
    · exact (Elementwise.computing_of_closedKind hf hk).1
  have hsame : f.SharesUnit → w = u := fun h => by
    rw [hshared h] at hw
    exact hw.unique u.isPower_one
  rw [foldNext, bind_of_ok (select_natCast hv hn hi), call_items hf hcomputing hsame]
  simp only [Elementwise.unitOfTwo_eq_ok_iff f hw]

theorem foldRest_row {is : List Nat} {cs : List (Cell κ)}
    (his : List.Forall₂ (fun i b => (m.read v).grid.entries[i]? = some b) is cs) {w : StorageUnit} {e : Int}
    (hw : w.IsPower e u) (hshared : f.SharesUnit → e = 1) {a : Cell κ} (ha : a.kind = k) {z : Operand κ} :
    is.foldlM (foldNext f ⟨.array v, u.dimension, u.scale⟩) (inUnitOf w (.item a)) c m = .ok (z, m') ↔
      m' = m ∧ ∃ x cell, x.IsPower (e + cs.length * f.exponentGain) u ∧ Tensor.foldCells f k a cs = .ok cell ∧
        z = inUnitOf x (.item cell) := by
  induction his generalizing w e a with
  | nil =>
    have hunit (x : StorageUnit) : x.IsPower (e + ([] : List (Cell κ)).length * f.exponentGain) u ↔ w = x := by
      rw [List.length_nil, Nat.cast_zero, zero_mul, add_zero]
      exact ⟨hw.unique, fun h => h ▸ hw⟩
    rw [List.foldlM_nil, pure_eq_ok_iff]
    simp only [hunit]
    constructor
    · rintro ⟨rfl, rfl⟩
      exact ⟨rfl, w, a, rfl, rfl, rfl⟩
    · rintro ⟨rfl, x, cell, rfl, hcell, rfl⟩
      cases hcell
      exact ⟨rfl, rfl⟩
  | @cons i b is cs hi _ ih =>
    have hgain : e + (b :: cs).length * f.exponentGain = e + f.exponentGain + cs.length * f.exponentGain := by
      rw [List.length_cons]
      push_cast
      ring
    have hnext : f.SharesUnit → e + f.exponentGain = 1 := fun h => by rw [hshared h, h.exponentGain, add_zero]
    rw [List.foldlM_cons, bind_eq_ok_iff, hgain]
    constructor
    · rintro ⟨_, _, hstep, hrest⟩
      obtain ⟨rfl, x, d, hx, hd, rfl⟩ := (foldNext_row hf hv hn hk hw hshared (Or.inl ha) hi).1 hstep
      obtain ⟨rfl, y, cell, hy, hcell, rfl⟩ := (ih hx hnext (Elementwise.kind_onTwo hf hd)).1 hrest
      refine ⟨rfl, y, cell, hy, ?_, rfl⟩
      exact Outcome.bind_eq_ok_iff.2 ⟨d, hd, hcell⟩
    · rintro ⟨rfl, y, cell, hy, hfold, rfl⟩
      obtain ⟨d, hd, hcell⟩ := Outcome.bind_eq_ok_iff.1 hfold
      -- the unit of what has been folded lies between the first and the last
      obtain ⟨x, hx⟩ : ∃ x : StorageUnit, x.IsPower (e + f.exponentGain) u := by
        refine hw.exists_between hy ?_
        rcases le_total 0 f.exponentGain with h | h
        · have hmore : 0 ≤ cs.length * f.exponentGain := Int.mul_nonneg (Int.natCast_nonneg _) h
          omega
        · have hless : cs.length * f.exponentGain ≤ 0 := Int.mul_nonpos_of_nonneg_of_nonpos (Int.natCast_nonneg _) h
          omega
      exact ⟨_, _, (foldNext_row hf hv hn hk hw hshared (Or.inl ha) hi).2 ⟨rfl, x, d, hx, hd, rfl⟩,
        (ih hx hnext (Elementwise.kind_onTwo hf hd)).2 ⟨rfl, y, cell, hy, hcell, rfl⟩⟩

/-- the first element counts as a cell of the kind that the fold computes in -/
theorem foldFirst_row {a b : Cell κ} (ha : a.kind = (m.read v).kind) {i : Nat}
    (hi : (m.read v).grid.entries[i]? = some b) {is : List Nat} {z : Operand κ} :
    (i :: is).foldlM (foldNext f ⟨.array v, u.dimension, u.scale⟩) (inUnitOf u (.item a)) c m = .ok (z, m') ↔
      (i :: is).foldlM (foldNext f ⟨.array v, u.dimension, u.scale⟩) (inUnitOf u (.item (a.cast k))) c m =
        .ok (z, m') := by
  rw [List.foldlM_cons, List.foldlM_cons, bind_eq_ok_iff, bind_eq_ok_iff]
  refine exists_congr fun y => exists_congr fun m₁ => and_congr_left' ?_
  rw [foldNext_row hf hv hn hk u.isPower_one (fun _ => rfl) (Or.inr ha) hi,
    foldNext_row hf hv hn hk u.isPower_one (fun _ => rfl) (Or.inl (Cell.kind_cast k a)) hi,
    f.onTwo_cast]

/-- **Folds of rows.** The unit is a power of the unit of the row. -/
theorem foldElements_row {a b : Cell κ} {cs : List (Cell κ)} (hcells : (m.read v).grid.entries = a :: b :: cs)
    {z : Operand κ} : foldElements f ⟨.array v, u.dimension, u.scale⟩ n c m = .ok (z, m') ↔
      m' = m ∧ ∃ x cell, x.IsPower (1 + (n - 1) * f.exponentGain) u ∧
        Tensor.foldCells f k (a.cast k) (b :: cs) = .ok cell ∧ z = inUnitOf x (.item cell) := by
  have hlength : n = cs.length + 2 := by
    have hrow : (m.read v).grid.entries.length = n := hv.filled.length_row ((m.shape_read v).trans hn)
    rw [← hrow, hcells]
    rfl
  have hplaces : List.Forall₂ (fun j x => (m.read v).grid.entries[j]? = some x)
      (List.range' 1 (b :: cs).length) (b :: cs) := Grid.forall₂_places (by rw [hcells]; rfl)
  have ha : a.kind = (m.read v).kind := hv.uniform a (by rw [Operand.tensor, hcells]; exact List.mem_cons_self)
  have hindices : List.range' 1 (n - 1) = 1 :: List.range' 2 cs.length := by
    rw [hlength]
    exact List.range'_succ
  have hexponent : 1 + ((n : Int) - 1) * f.exponentGain = 1 + (b :: cs).length * f.exponentGain := by
    rw [hlength, List.length_cons]
    push_cast
    ring
  have hfirst : select ⟨.array v, u.dimension, u.scale⟩ (.integer 0) c m = .ok (inUnitOf u (.item a), m) :=
    select_natCast hv hn (i := 0) (by rw [hcells]; rfl)
  rw [foldElements, bind_of_ok hfirst, hindices,
    foldFirst_row hf hv hn hk ha (by rw [hcells]; rfl), hexponent]
  exact foldRest_row hf hv hn hk hplaces u.isPower_one (fun _ => rfl) (Cell.kind_cast k a)

end Folds

/-! ## Reductions and folds -/

/-- **Reductions against folds.** A reduction of two or more elements has their unit. The operation folded over them
from the left has a power of that unit: the power for products is the number of elements, and for quotients what is left
of it. The value is that of the fold unless truth values are counted or numbers are summed. So the two are the same for
differences and extrema, for sums of which the value is the same, and for products and quotients of bare numbers that
are not counted. -/
theorem reduce_spec [Numeric.Neutral κ] (hf : f ∈ Elementwise.folding) (hv : (Operand.array v).IsNumeric m)
    (hn : v.shape = [n]) (htwo : 2 ≤ n) {d : Dimension} {s : Scale} {y : Operand κ}
    (h : callWith (.each f) .reduce [.quantity ⟨.array v, d, s⟩] [] c m = .ok (y, m')) :
    ∃ cell folded, y = inUnitOf ⟨d, s⟩ (.item cell) ∧ m' = m ∧ (m.read v).Reduces f cell folded ∧
      (∀ z m₁, foldElements f ⟨.array v, d, s⟩ n c m = .ok (z, m₁) ↔
        m₁ = m ∧ ∃ u : StorageUnit, u.IsPower (f.foldExponent n) ⟨d, s⟩ ∧ z = inUnitOf u (.item folded)) ∧
      (foldElements f ⟨.array v, d, s⟩ n c m = .ok (y, m') ↔
        cell = folded ∧ (f ∉ [.multiply, .divide] ∨ d = .one ∧ s = .one)) := by
  obtain ⟨a, b, cs, hcells⟩ : ∃ a b cs, (m.read v).grid.entries = a :: b :: cs := by
    have hrow : (m.read v).grid.entries.length = n := hv.filled.length_row ((m.shape_read v).trans hn)
    rw [← hrow] at htwo
    match hentries : (m.read v).grid.entries, htwo with
    | a :: b :: cs, _ => exact ⟨a, b, cs, rfl⟩
  rw [callWith_of_arranged (fun into => .folded ⟨.integer 0, false, none, into⟩) rfl] at h
  obtain ⟨hm, k, cell, hk, hcell, hy⟩ := (reduce_row (u := ⟨d, s⟩) hf hv hn (pure_eq_ok_iff.2 ⟨rfl, rfl⟩)).1 h
  obtain ⟨j, folded, hj, hfolded, hreduces⟩ := Tensor.reduces_row hv.uniform hcells hf hk hcell
  have hfold : ∀ z m₁, foldElements f ⟨.array v, d, s⟩ n c m = .ok (z, m₁) ↔
      m₁ = m ∧ ∃ u : StorageUnit, u.IsPower (f.foldExponent n) ⟨d, s⟩ ∧ z = inUnitOf u (.item folded) := by
    intro z m₁
    rw [foldElements_row (u := ⟨d, s⟩) hf hv hn hj hcells, f.foldExponent_eq]
    refine and_congr_right' (exists_congr fun u => ?_)
    constructor
    · rintro ⟨folded', hu, hfolded', hz⟩
      cases hfolded.symm.trans hfolded'
      exact ⟨hu, hz⟩
    · rintro ⟨hu, hz⟩
      exact ⟨folded, hu, hfolded, hz⟩
  refine ⟨cell, folded, hy, hm, hreduces, hfold, ?_⟩
  rw [hfold, hy, ← Elementwise.foldExponent_eq_one_iff htwo]
  have hone : d = .one ∧ s = .one ↔ (⟨d, s⟩ : StorageUnit) = .one := StorageUnit.mk.injEq .. ▸ Iff.rfl
  rw [hone, ← StorageUnit.isPower_self_iff]
  constructor
  · rintro ⟨-, u, hu, heq⟩
    cases heq
    exact ⟨rfl, hu⟩
  · rintro ⟨rfl, hu⟩
    exact ⟨hm, ⟨d, s⟩, hu, rfl⟩

/-- two numbers as meters -/
def twoLengths (κ : Type) : Quantity (Operand κ) := ⟨.array bothNumbers, { length := 1 }, .one⟩

theorem isNumeric_bothNumbers (x y : κ) : (Operand.array bothNumbers).IsNumeric (twoNumbers x y) := by
  refine ⟨Nat.zero_lt_one, rfl, fun cell hcell => ?_⟩
  rcases List.mem_cons.1 hcell with rfl | hcell
  · rfl
  · cases List.mem_singleton.1 hcell
    rfl

/-- two meters and three, multiplied -/
theorem reduce_spec_lengths : ∃ y m',
    callWith (.each .multiply) .reduce [.quantity (twoLengths Float)] [] (underPolicy .strict) (twoNumbers 2.0 3.0) =
      .ok (y, m') ∧
    foldElements .multiply (twoLengths Float) 2 (underPolicy .strict) (twoNumbers 2.0 3.0) ≠ .ok (y, m') := by
  obtain ⟨y, m', hrun⟩ : ∃ y m', callWith (.each .multiply) .reduce [.quantity (twoLengths Float)] []
      (underPolicy .strict) (twoNumbers 2.0 3.0) = .ok (y, m') := ⟨_, _, rfl⟩
  obtain ⟨cell, folded, -, -, -, -, hsame⟩ := reduce_spec (by decide) (isNumeric_bothNumbers _ _) rfl (le_refl 2) hrun
  refine ⟨y, m', hrun, fun h => ?_⟩
  exact absurd (hsame.1 h).2 (by decide)

/-- **Not the unit of the fold.** Two meters times three are six meters as a reduction, and six square meters by the
operation on the elements. -/
theorem reduce_not_fold :
    callWith (.each .multiply) .reduce [.quantity (twoLengths Float)] [] (underPolicy .strict) (twoNumbers 2.0 3.0) =
      .ok (.quantity ⟨.item (.real 6.0), { length := 1 }, .one⟩, twoNumbers 2.0 3.0) ∧
    foldElements .multiply (twoLengths Float) 2 (underPolicy .strict) (twoNumbers 2.0 3.0) =
      .ok (.quantity ⟨.item (.real 6.0), { length := 2 }, .one⟩, twoNumbers 2.0 3.0) := by
  have hsix : (2.0 * 3.0 : Float) = 6.0 := by decide +kernel
  rw [← hsix]
  exact ⟨rfl, rfl⟩

end Session

end UnitAlgebra

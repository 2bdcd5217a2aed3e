/-
Values in units without an offset. To make a quantity of a value in such a unit is to multiply its numbers by the factor
of the unit, and so it is linear in them; the product of the value with one of the unit comes to the same numbers in the
same storage unit. Units with an offset are those of affine names on their own, so that this holds for every other
expression.

Results:
- `toTensor_numbers`: a list that can be read as it is can be read as numbers, with the same result.
- `of_numbers`: a quantity of a value has the numbers of the value times the factor.
- `mul_one_numbers`: and so has the product of the value with one of the unit.
- `offsets_of_lone_units`: which expressions have an offset, and that all others are linear.
-/
import UnitAlgebra.Proofs.Expression.Offsets
import UnitAlgebra.Proofs.Expression.Strictness
import UnitAlgebra.Proofs.Quantity.Layers
import UnitAlgebra.Proofs.Quantity.Whole
import UnitAlgebra.Proofs.Tensor.Related

namespace UnitAlgebra

/-! ## Products with the unit of bare numbers -/

theorem StorageUnit.one_mul_eq (u : StorageUnit) : one.mul u = .ok u := by
  have hd : Dimension.one.mul u.dimension = .ok u.dimension :=
    (Dimension.reaches_mul _ _).eq_ok_iff.2 fun a => by cases a <;> exact (zero_add _).symm
  have hs : Scale.one.mul u.scale = .ok u.scale :=
    (Scale.reaches_mul _ _).eq_ok_iff.2 fun b => by cases b <;> exact (zero_add _).symm
  rw [mul, show one.dimension = .one from rfl, show one.scale = .one from rfl, hd, hs]
  rfl

/-! ## The numbers of values -/

/-- the numbers of a value: a number or an array, or a list or tuple of such that makes up a full grid -/
def Operand.Holds {κ : Type} [Numeric κ] (m : Store κ) (x : Operand κ) (numbers : Grid κ) : Prop :=
  match x with
  | .list _ | .tuple _ =>
    x.beginsWithQuantity = false ∧ ∃ t, x.toTensor m .asIs = .ok t ∧ t.grid.Filled ∧ t.numbers = numbers
  | _ => x.IsNumeric m ∧ (x.tensor m).numbers = numbers

section Exact

variable [Numeric ℝ]

/-- the run gives a quantity in the storage unit, with the numbers -/
def Session.Measures (act : Session ℝ (Operand ℝ)) (c : Context ℝ) (m : Store ℝ) (u : StorageUnit)
    (numbers : Grid ℝ) : Prop :=
  ∃ q m', act c m = .ok (.quantity q, m') ∧ (⟨q.dimension, q.scale⟩ : StorageUnit) = u ∧
    (q.value.tensor m').numbers = numbers

variable [Numeric.Exact] {m : Store ℝ} {x : Operand ℝ} {numbers : Grid ℝ}

theorem Cell.map_toNumber_joinAll (cells : List (Cell ℝ)) :
    (cells.map (cast (Kind.joinAll (cells.map kind)))).map toNumber = cells.map toNumber := by
  rw [List.map_map]
  exact List.map_congr_left fun c hc => toNumber_cast (Kind.rank_le_joinAll (List.mem_map_of_mem hc))

omit [Numeric.Exact] in
theorem Tensor.filled_of_numbers {s t : Tensor ℝ} (h : s.numbers = t.numbers) (ht : t.grid.Filled) : s.grid.Filled := by
  have hnumbers : s.numbers.Filled := h ▸ ht.map Cell.toNumber
  simpa [Grid.Filled, numbers, Grid.map] using hnumbers

namespace Operand

theorem cell_numbers {c : Cell ℝ} (h : x.cell .asIs = .ok c) :
    ∃ d, x.cell .numbers = .ok d ∧ d.toNumber = c.toNumber := by
  cases x with
  | integer n =>
    change (if wrapped n = n then _ else _) = _ at h
    split at h
    · cases h
      refine ⟨.real n, ?_, (Cell.toNumber_integer n).symm⟩
      change (Numeric.ofInt n).map Cell.real = _
      rw [Numeric.ofInt, Numeric.Exact.ofInt?]
      rfl
    · cases h
  | flag b => exact ⟨c, h, rfl⟩
  | number y => exact ⟨c, h, rfl⟩
  | item cell => exact ⟨c, h, rfl⟩
  | _ => cases h

/-- A list that can be read as it is can be read as numbers, with the same result. -/
theorem toTensor_numbers {t : Tensor ℝ} (ha : x.isArray = false) (h : x.toTensor m .asIs = .ok t) :
    ∃ t', x.toTensor m .numbers = .ok t' ∧ t'.numbers = t.numbers ∧ t'.IsUniform := by
  have hread (reading : Reading) : x.toTensor m reading = (do
      let g ← x.leaves m
      let cells ← g.entries.mapM (cell reading)
      let kind := if reading = .numbers then Kind.real else Kind.joinAll (cells.map Cell.kind)
      return ⟨kind, g.shape, cells.map (Cell.cast kind)⟩) := by
    cases x <;> first | rfl | cases ha
  rw [hread] at h
  obtain ⟨g, hg, h⟩ := Outcome.bind_eq_ok_iff.1 h
  obtain ⟨cells, hcells, h⟩ := Outcome.bind_eq_ok_iff.1 h
  cases h
  have hentries : List.Forall₂ Eq g.entries g.entries := List.forall₂_refl _
  have hcell : ∀ a b : Operand ℝ, a = b → ∀ {c}, a.cell .asIs = .ok c →
      ∃ d, b.cell .numbers = .ok d ∧ d.toNumber = c.toNumber := by
    rintro a _ rfl c hc
    exact cell_numbers hc
  obtain ⟨ds, hds, hrelated⟩ := Outcome.forall₂_mapM hentries hcell hcells
  have hsame : ds.map Cell.toNumber = cells.map Cell.toNumber := by
    rw [← List.forall₂_eq_eq_eq, List.forall₂_map_left_iff, List.forall₂_map_right_iff]
    exact hrelated.flip
  refine ⟨⟨.real, g.shape, ds.map (Cell.cast .real)⟩, ?_, ?_, ?_⟩
  · rw [hread, hg]
    change (g.entries.mapM (cell .numbers) >>= _) = _
    rw [hds]
    rfl
  · have hreal : (ds.map (Cell.cast .real)).map Cell.toNumber = ds.map Cell.toNumber := by
      rw [List.map_map]
      exact List.map_congr_left fun d _ => Cell.toNumber_cast_real d
    exact congrArg (Grid.mk g.shape) (hreal.trans (hsame.trans (Cell.map_toNumber_joinAll cells).symm))
  · intro c hc
    obtain ⟨d, -, rfl⟩ := List.mem_map.1 hc
    exact Cell.kind_cast .real d

end Operand

namespace Session

variable {c : Context ℝ} {m' : Store ℝ} {u : UnitMeaning ℝ}

/-! ## Quantities of values -/

/-- lists are kept as arrays of their numbers, and other values as they are -/
theorem exists_kept (hx : x.Holds m numbers) : ∃ y m', Quantity.kept x c m = .ok (y, m') ∧ y.IsNumeric m' ∧
    (y.tensor m').numbers = numbers := by
  have hlisted {t : Tensor ℝ} (ha : x.isArray = false) (h : x.toTensor m .asIs = .ok t) (hfilled : t.grid.Filled)
      (hkept : Quantity.kept x = (do newArray (← x.toTensor (← get) .numbers))) :
      ∃ y m', Quantity.kept x c m = .ok (y, m') ∧ y.IsNumeric m' ∧ (y.tensor m').numbers = t.numbers := by
    obtain ⟨t', ht', hnumbers, huniform⟩ := Operand.toTensor_numbers ha h
    have hshown : (Operand.array (m.alloc t').2).tensor (m.alloc t').1 = t' := Store.read_alloc m t'
    refine ⟨.array (m.alloc t').2, (m.alloc t').1, ?_, ⟨by simp [Store.alloc], ?_, ?_⟩, by rw [hshown, hnumbers]⟩
    · rw [hkept]
      exact bind_eq_ok_iff.2 ⟨m, m, rfl, bind_eq_ok_iff.2 ⟨t', m, lift_eq_ok_iff.2 ⟨ht', rfl⟩, rfl⟩⟩
    · simpa [Grid.Filled, Store.alloc] using Tensor.filled_of_numbers hnumbers hfilled
    · rwa [Store.read_alloc]
  cases x with
  | list xs =>
    obtain ⟨-, t, ht, hfilled, rfl⟩ := hx
    exact hlisted rfl ht hfilled rfl
  | tuple xs =>
    obtain ⟨-, t, ht, hfilled, rfl⟩ := hx
    exact hlisted rfl ht hfilled rfl
  | flag b => exact ⟨_, m, rfl, hx⟩
  | integer n => exact ⟨_, m, rfl, hx⟩
  | number y => exact ⟨_, m, rfl, hx⟩
  | item cell => exact ⟨_, m, rfl, hx⟩
  | array v => exact ⟨_, m, rfl, hx⟩
  | _ => exact hx.1.elim

theorem map_factor_of_isOne {a : ℝ} (h : Numeric.isOne a = true) (g : Grid ℝ) : g.map (· * a) = g := by
  have ha : a = 1 := by
    rw [← Numeric.Exact.one]
    exact (Numeric.Exact.eq a Numeric.one).1 h
  simp [ha, Grid.map]

theorem numbers_times (t : Tensor ℝ) (a : ℝ) : (t.times a).numbers = t.numbers.map (· * a) := by
  rw [Tensor.times, Tensor.numbers_ofNumbers]
  simp only [Numeric.Exact.mul]

/-- values are taken into storage times the factor of their unit, if it has no offset -/
theorem exists_convert_toStorage (hu : ¬ u.HasOffset) (hx : x.IsNumeric m) : ∃ y m',
    convert x u.toStorage c m = .ok (y, m') ∧ (y.tensor m').numbers = (x.tensor m).numbers.map (· * u.factor) := by
  have hoffset : Numeric.isZero u.offset = true := by simpa [UnitMeaning.HasOffset] using hu
  by_cases hone : Numeric.isOne u.factor = true
  · -- the value is stored as it is
    have hsteps : u.toStorage = [] := by rw [UnitMeaning.toStorage, if_pos hone, if_pos hoffset]; rfl
    rw [hsteps]
    exact ⟨x, m, rfl, (map_factor_of_isOne hone _).symm⟩
  · have hsteps : u.toStorage = [.times u.factor] := by
      rw [UnitMeaning.toStorage, if_neg hone, if_pos hoffset]
      rfl
    rcases withNumber_cases hx u.factor c with ⟨y, m', hy⟩ | ⟨-, n, -, hlarge⟩
    · rw [hsteps, convert, List.foldlM_cons]
      refine ⟨y, m', bind_eq_ok_iff.2 ⟨y, m', hy, rfl⟩, ?_⟩
      rw [(withNumber_spec hx hy).2.tensor, numbers_times]
    · -- every whole number is a real number
      rw [Numeric.Exact.ofInt?] at hlarge
      cases hlarge

/-- **A quantity of a value** has the numbers of the value times the factor, if its unit has no offset. -/
theorem of_numbers (hu : ¬ u.HasOffset) (hx : x.Holds m numbers) :
    Measures (do return .quantity (← Quantity.of x u)) c m u.storageUnit (numbers.map (· * u.factor)) := by
  obtain ⟨y, m₁, hkept, hy, rfl⟩ := exists_kept (c := c) hx
  obtain ⟨z, m₂, hconvert, hnumbers⟩ := exists_convert_toStorage (c := c) hu hy
  refine ⟨⟨z, u.dimension, u.scale⟩, m₂, bind_eq_ok_iff.2 ⟨⟨z, u.dimension, u.scale⟩, m₂, ?_, rfl⟩, rfl, hnumbers⟩
  rw [Quantity.of, bind_of_ok hkept]
  exact bind_eq_ok_iff.2 ⟨z, m₂, hconvert, rfl⟩

/-! ## Products with one of a unit -/

theorem exists_tensorsFor (hx : x.Holds m numbers) (a : ℝ) : ∃ t : Tensor ℝ,
    tensorsFor .multiply [x, .number a] c m = .ok ([t, .scalar (.real a)], m) ∧
      t.grid.Filled ∧ t.numbers = numbers := by
  have hnumber : tensorOf (.number a) c m = .ok (.scalar (.real a), m) :=
    tensorOf_eq_ok_iff.2 ⟨Operand.toTensor_eq (x := .number a) trivial rfl, rfl⟩
  have hnarrow {t : Tensor ℝ} (hw : x.isWide = false) (h : x.toTensor m .asIs = .ok t) :
      tensorsFor .multiply [x, .number a] c m = .ok ([t, .scalar (.real a)], m) := by
    have hwide : [x, .number a].any Operand.isWide = false := by
      rw [List.any_cons, hw]
      rfl
    rw [tensorsFor, hwide, if_neg Bool.false_ne_true, List.mapM_cons, bind_of_ok (tensorOf_eq_ok_iff.2 ⟨h, rfl⟩),
      List.mapM_cons, bind_assoc, bind_of_ok hnumber]
    rfl
  have hnumeric (h : x.IsNumeric m ∧ (x.tensor m).numbers = numbers) (hw : x.isWide = false) : ∃ t : Tensor ℝ,
      tensorsFor .multiply [x, .number a] c m = .ok ([t, .scalar (.real a)], m) ∧ t.grid.Filled ∧ t.numbers = numbers :=
    ⟨x.tensor m, hnarrow hw (Operand.toTensor_eq h.1 hw), h.1.filled, h.2⟩
  cases x with
  | list xs =>
    obtain ⟨-, t, ht, hfilled, hnumbers⟩ := hx
    exact ⟨t, hnarrow rfl ht, hfilled, hnumbers⟩
  | tuple xs =>
    obtain ⟨-, t, ht, hfilled, hnumbers⟩ := hx
    exact ⟨t, hnarrow rfl ht, hfilled, hnumbers⟩
  | flag b => exact hnumeric hx rfl
  | number y => exact hnumeric hx rfl
  | item cell => exact hnumeric hx rfl
  | array v => exact hnumeric hx rfl
  | integer n =>
    cases hw : (Operand.integer n : Operand ℝ).isWide with
    | false => exact hnumeric hx hw
    | true =>
      -- a whole number that no cell can hold is the real number that it is
      have hown : (wideTensor .multiply (some .real) n : Outcome (Tensor ℝ)) = .ok (.scalar (.real n)) := by
        rw [wideTensor, if_pos rfl, Numeric.ofInt, Numeric.Exact.ofInt?]
        rfl
      refine ⟨.scalar (.real n), ?_, Grid.filled_scalar _, ?_⟩
      · have hwide : [.integer n, .number a].any Operand.isWide = true := by
          rw [List.any_cons, hw]
          rfl
        have hothers : [.integer n, .number a].filter (fun x : Operand ℝ => !x.isWide) = [.number a] := by
          rw [List.filter_cons_of_neg (by simp [hw]), List.filter_cons_of_pos rfl]
          rfl
        rw [tensorsFor, hwide, if_pos rfl, hothers]
        refine bind_eq_ok_iff.2 ⟨[.scalar (.real a)], m, bind_eq_ok_iff.2 ⟨_, _, hnumber, rfl⟩, ?_⟩
        rw [List.mapM_cons]
        refine bind_eq_ok_iff.2 ⟨.scalar (.real n), m, ?_, rfl⟩
        change (if _ then _ else _ : Session ℝ (Tensor ℝ)) c m = _
        rw [if_pos hw]
        exact lift_eq_ok_iff.2 ⟨hown, rfl⟩
      · rw [← hx.2]
        change Grid.scalar (n : ℝ) = Grid.scalar (Cell.integer n).toNumber
        rw [Cell.toNumber_integer]
  | _ => exact hx.1.elim

theorem computeBare_times (hx : x.Holds m numbers) (a : ℝ) : ∃ y m',
    computeBare (.each .multiply) .plainly [] [x, .number a] c m = .ok ([y], m') ∧
      (y.tensor m').numbers = numbers.map (· * a) := by
  obtain ⟨t, ht, hfilled, rfl⟩ := exists_tensorsFor (c := c) hx a
  obtain ⟨y, m', hy⟩ := exists_computed (t.times a) c m
  have hopaque : [x, .number a].any Operand.isOpaque = false := by
    cases x <;> first | rfl | exact hx.1.elim
  have hplain : plainResults .multiply [x, .number a] c m = .ok (.tensors .broadcast [t.times a], m) := by
    rw [plainResults, hopaque, if_neg Bool.false_ne_true, bind_of_ok ht, Tensor.elementwise_times hfilled]
    · rfl
    · intro n h
      cases h
  refine ⟨y, m', ?_, ?_⟩
  · rw [computeBare_nil .plainly (by simp)]
    refine bind_eq_ok_iff.2 ⟨_, m, hplain, ?_⟩
    change [t.times a].mapM computed c m = _
    rw [List.mapM_cons, bind_of_ok hy]
    rfl
  · rw [(computed_spec hy).2.tensor (Tensor.isUniform_ofNumbers _), numbers_times]

theorem intoStorage_one (u : UnitMeaning ℝ) : u.withoutOffset.intoStorage Numeric.one = u.factor := by
  have hzero : Numeric.isZero u.withoutOffset.offset = true := (Numeric.isZero_iff _).2 Numeric.Exact.zero
  rw [UnitMeaning.intoStorage, if_pos hzero]
  split
  · next hone =>
    have hfactor : u.factor = 1 := Numeric.Exact.one ▸ (Numeric.Exact.eq _ _).1 hone
    exact Numeric.Exact.one.trans hfactor.symm
  · rw [Numeric.Exact.mul, Numeric.Exact.one, one_mul]
    rfl

/-- **The product with one of a unit** has the same numbers, whatever the offset of the unit. -/
theorem mul_one_numbers (hx : x.Holds m numbers) :
    Measures (do operate .mul x (.quantity (← Quantity.one u))) c m u.storageUnit (numbers.map (· * u.factor)) := by
  have hmade : Quantity.one u c m = .ok (⟨.number u.factor, u.dimension, u.scale⟩, m) := by
    rw [← intoStorage_one u]
    exact of_number Numeric.one u.withoutOffset
  obtain ⟨y, m', hy, hnumbers⟩ := computeBare_times (c := c) hx u.factor
  let q : Quantity (Operand ℝ) := ⟨.number u.factor, u.dimension, u.scale⟩
  let result : Operand ℝ := .quantity ⟨y, u.dimension, u.scale⟩
  have happly : apply (.each .multiply) .plainly [] [x, .quantity q] c m = .ok (result, m') := by
    have hseries : [x, .quantity q].any Operand.isSeries = false := by
      cases x <;> first | rfl | exact hx.1.elim
    have hparticipant : x.participant m = ⟨⟨x, .one, .one⟩, x.isZero m⟩ := by
      cases x <;> first | rfl | exact hx.1.elim
    have hunit : ((liftM (StorageUnit.one.mul u.storageUnit) : Session ℝ StorageUnit) >>= pure) c m =
        .ok (u.storageUnit, m) := by
      rw [StorageUnit.one_mul_eq]
      rfl
    rw [apply_quantities (by simpa using hseries) (by simp [Operand.isQuantity, Operand.quantity?]),
      bind_of_ok (mapM_ofOperand _ c m), List.map_cons, List.map_cons, hparticipant]
    refine bind_eq_ok_iff.2 ⟨u.storageUnit, m, hunit, ?_⟩
    exact bind_eq_ok_iff.2 ⟨_, m, rfl, bind_eq_ok_iff.2 ⟨(), m, rfl, bind_eq_ok_iff.2 ⟨_, _, hy, rfl⟩⟩⟩
  have hreflected : operateReflected .mul x q c m = .ok (result, m') := by
    have hleft : (x.isSeries || x.beginsWithQuantity) = false := by
      cases x <;> first | rfl | exact hx.1 | exact hx.1.elim
    rw [operateReflected, hleft, Bool.and_false, if_neg Bool.false_ne_true]
    exact happly
  have hoperate : operate .mul x (.quantity q) = (operateReflected .mul x q >>= fun z => liftM (settle x z)) := by
    cases x <;> rfl
  refine ⟨⟨y, u.dimension, u.scale⟩, m', ?_, rfl, hnumbers⟩
  rw [bind_of_ok hmade, hoperate]
  exact bind_eq_ok_iff.2 ⟨result, m', hreflected, rfl⟩

end Session

/-! ## Expressions -/

open Expression Session in
/-- **Offsets survive on lone units only.** The unit of an expression has an offset exactly when the expression is the
name of an affine unit, raised to the first power any number of times or not at all. In every other expression values
are linear: the quantity of a value has a linear function of its numbers, and it is the product of the value with one of
the unit. -/
theorem offsets_of_lone_units :
    (∀ (r : Registry Float) (strict : Bool) (t : UnitExpr) (u : UnitMeaning Float), evaluate r strict t = .ok u →
      (u.HasOffset ↔ ∃ name, t.Lone name ∧ IsAffineName r name)) ∧
    ∀ (r : Registry ℝ) (strict : Bool) (t : UnitExpr) (u : UnitMeaning ℝ), evaluate r strict t = .ok u →
      (u.HasOffset ↔ ∃ name, t.Lone name ∧ IsAffineName r name) ∧
      ((¬ ∃ name, t.Lone name ∧ IsAffineName r name) → ∃ linear : ℝ →ₗ[ℝ] ℝ,
        ∀ (c : Context ℝ) (m : Store ℝ) (x : Operand ℝ) (numbers : Grid ℝ), x.Holds m numbers →
          Measures (do return .quantity (← Quantity.of x u)) c m u.storageUnit (numbers.map linear) ∧
          Measures (do operate .mul x (.quantity (← Quantity.one u))) c m u.storageUnit (numbers.map linear)) := by
  refine ⟨fun r strict t u h => hasOffset_iff UnitMeaning.isZero_zero h, fun r strict t u h => ?_⟩
  have hoffset := hasOffset_iff ((Numeric.isZero_iff _).2 Numeric.Exact.zero) h
  refine ⟨hoffset, fun hlone => ⟨LinearMap.mulRight ℝ u.factor, fun c m x numbers hx => ?_⟩⟩
  exact ⟨of_numbers (fun hu => hlone (hoffset.1 hu)) hx, mul_one_numbers hx⟩

end Exact

section Degrees

open Expression Session

/-- a registry that knows degrees alone, which are stored with a factor and an offset -/
def degreesOnly {κ : Type} [Numeric κ] (factor offset : κ) : Registry κ :=
  { Registry.empty [] [] with
    symbols := [("degF", ⟨⟨"fahrenheit", "degF", [], .one, factor, offset, .imperial⟩,
      ⟨"Temperature", "T", { temperature := 1 }, []⟩⟩)] }

/-- the first power of a degree has its offset, and the product of two degrees is linear -/
theorem offsets_of_degrees :
    (∃ u, evaluate (degreesOnly (0.5 : Float) 255.25) false (.pow (.identifier "degF") 1) = .ok u ∧ u.HasOffset) ∧
    ∃ u, evaluate (degreesOnly (5 / 9 : ℝ) 255) false (.mul (.identifier "degF") (.identifier "degF")) = .ok u ∧
      ¬ u.HasOffset ∧ ∃ linear : ℝ →ₗ[ℝ] ℝ,
        Measures (do return .quantity (← Quantity.of (.number 9) u)) ⟨.strict, degreesOnly (5 / 9) 255⟩ .empty
          u.storageUnit (.scalar (linear 9)) ∧
        Measures (do operate .mul (.number 9) (.quantity (← Quantity.one u))) ⟨.strict, degreesOnly (5 / 9) 255⟩ .empty
          u.storageUnit (.scalar (linear 9)) := by
  obtain ⟨hrounded, hexact⟩ := offsets_of_lone_units
  constructor
  · exact ⟨_, rfl, (hrounded (degreesOnly 0.5 255.25) false (.pow (.identifier "degF") 1) _ rfl).2
      ⟨"degF", .first .name, _, _, rfl, by decide +kernel⟩⟩
  · obtain ⟨hoffset, hlinear⟩ :=
      hexact (degreesOnly (5 / 9) 255) false (.mul (.identifier "degF") (.identifier "degF")) _ rfl
    have hlone : ¬ ∃ name, UnitExpr.Lone name (.mul (.identifier "degF") (.identifier "degF")) ∧
        IsAffineName (degreesOnly (5 / 9 : ℝ) 255) name := fun ⟨_, hlone, _⟩ => nomatch hlone
    obtain ⟨linear, hmeasures⟩ := hlinear hlone
    have hnine : (Operand.number 9 : Operand ℝ).Holds .empty (.scalar 9) := ⟨trivial, rfl⟩
    exact ⟨_, rfl, fun h => hlone (hoffset.1 h), linear, hmeasures _ _ _ _ hnine⟩

end Degrees

end UnitAlgebra

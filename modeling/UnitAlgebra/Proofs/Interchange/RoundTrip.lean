/-
Quantities come back from what they are shared as. The name of a storage unit is read as that unit, with neither factor
nor offset, so that a value is stored as it stands; a number is read back from its text, and an array from the nested
lists of its elements. In JSON, a mapping of such values is read back as it was.

Results:
- `Operand.leaves_nestedLists`: nested lists have the elements of the box that they list.
- `JsonValue.exists_stands_nestedLists`: nested lists have a JSON value that stands for them.
- `Session.ofJson_toJson`: a JSON text tells what its mapping tells.
- `Session.shared_returns`: a quantity comes back from a text, from a mapping and from JSON.
-/
import UnitAlgebra.Interchange.JsonText
import UnitAlgebra.Proofs.Interchange.Json
import UnitAlgebra.Proofs.Naming.RoundTrip
import UnitAlgebra.Proofs.Session.Memory

namespace UnitAlgebra

/-! ## Nested lists -/

/-- the values of one row, where every row fills a box -/
def Grid.rowOf {α : Type} (shape : List Nat) (as : List α) (i : Nat) : List α :=
  (as.drop (i * volume shape)).take (volume shape)

theorem Grid.mem_of_mem_rowOf {α : Type} {shape : List Nat} {as : List α} {i : Nat} {a : α}
    (h : a ∈ rowOf shape as i) : a ∈ as := List.mem_of_mem_drop (List.mem_of_mem_take h)

theorem Grid.flatMap_rowOf {α : Type} (n : Nat) (shape : List Nat) {as : List α}
    (h : as.length = n * volume shape) : (List.range n).flatMap (rowOf shape as) = as := by
  induction n generalizing as with
  | zero =>
    rw [Nat.zero_mul, List.length_eq_zero_iff] at h
    rw [h]
    rfl
  | succ n ih =>
    have hrest : (as.drop (volume shape)).length = n * volume shape := by
      rw [List.length_drop, h, Nat.succ_mul, Nat.add_sub_cancel]
    have hrow : ∀ i, rowOf shape as (i + 1) = rowOf shape (as.drop (volume shape)) i := by
      intro i
      rw [rowOf, rowOf, List.drop_drop, Nat.succ_mul, Nat.add_comm]
    have hfirst : rowOf shape as 0 = as.take (volume shape) := by
      rw [rowOf, Nat.zero_mul, List.drop_zero]
    rw [List.range_succ_eq_map, List.flatMap_cons, List.flatMap_map, hfirst]
    simp only [Nat.succ_eq_add_one, hrow]
    rw [ih hrest, List.take_append_drop]

theorem Session.nestedLists_cons (n : Nat) (shape : List Nat) (cells : List (Operand Float)) :
    nestedLists (n :: shape) cells =
      .list ((List.range n).map fun i => nestedLists shape (Grid.rowOf shape cells i)) := rfl

namespace Operand

variable {κ : Type} [Numeric κ] (m : Store κ)

theorem leavesAll_eq (xs : List (Operand κ)) : leavesAll m xs = xs.mapM (leaves m) := by
  induction xs with
  | nil => rfl
  | cons x xs ih => rw [leavesAll, List.mapM_cons, ih]

theorem leaves_number (x : κ) : leaves m (.number x) = .ok (.scalar (.number x)) := by simp [leaves]

theorem rows_of_shape {α : Type} {gs : List (Grid α)} {shape : List Nat} (hne : gs ≠ [])
    (h : ∀ g ∈ gs, g.shape = shape) : rows gs = .ok ⟨gs.length :: shape, gs.flatMap Grid.entries⟩ := by
  obtain ⟨g, rest, rfl⟩ := List.exists_cons_of_ne_nil hne
  have hg : g.shape = shape := h g List.mem_cons_self
  subst hg
  exact if_pos (List.all_eq_true.2 fun g' hg' => decide_eq_true (h g' hg'))

/-- Nested lists have the elements of the box that they list. -/
theorem leaves_nestedLists {m : Store Float} {shape : List Nat} {cells : List (Operand Float)} (hshape : 0 ∉ shape)
    (hlength : cells.length = Grid.volume shape) (hcells : ∀ x ∈ cells, leaves m x = .ok (.scalar x)) :
    leaves m (Session.nestedLists shape cells) = .ok ⟨shape, cells⟩ := by
  induction shape generalizing cells with
  | nil =>
    obtain ⟨x, rfl⟩ := List.length_eq_one_iff.1 hlength
    exact hcells x (List.mem_singleton_self x)
  | cons n shape ih =>
    obtain ⟨hn, hshape⟩ := not_or.1 (mt List.mem_cons.2 hshape)
    have hvolume : cells.length = n * Grid.volume shape := hlength
    have hrow : ∀ i ∈ List.range n, leaves m (Session.nestedLists shape (Grid.rowOf shape cells i)) =
        .ok ⟨shape, Grid.rowOf shape cells i⟩ := by
      intro i hi
      have hle : (i + 1) * Grid.volume shape ≤ n * Grid.volume shape :=
        Nat.mul_le_mul_right _ (List.mem_range.1 hi)
      rw [Nat.succ_mul] at hle
      refine ih hshape ?_ fun x hx => hcells x (Grid.mem_of_mem_rowOf hx)
      rw [Grid.rowOf, List.length_take, List.length_drop, hvolume]
      omega
    have hall : leavesAll m ((List.range n).map fun i => Session.nestedLists shape (Grid.rowOf shape cells i)) =
        .ok ((List.range n).map fun i => ⟨shape, Grid.rowOf shape cells i⟩) := by
      rw [leavesAll_eq, Outcome.mapM_eq_ok_iff, List.forall₂_map_left_iff, List.forall₂_map_right_iff,
        List.forall₂_same]
      exact hrow
    have hne : (List.range n).map (fun i => Grid.mk shape (Grid.rowOf shape cells i)) ≠ [] := by
      simpa using Ne.symm hn
    have hsame : ∀ g ∈ (List.range n).map fun i => Grid.mk shape (Grid.rowOf shape cells i), g.shape = shape := by
      intro g hg
      obtain ⟨i, -, rfl⟩ := List.mem_map.1 hg
      rfl
    rw [Session.nestedLists_cons, leaves, hall]
    change rows _ = _
    rw [rows_of_shape hne hsame, List.length_map, List.length_range, List.flatMap_map]
    exact congrArg (fun entries => Except.ok (Grid.mk (n :: shape) entries)) (Grid.flatMap_rowOf n shape hvolume)

end Operand

/-! ## JSON values that stand for operands -/

namespace JsonValue

/-- a JSON value is made for an operand, is read as the operand again, and can be written -/
structure Stands (j : JsonValue) (x : Operand Float) : Prop where
  ofOperand : JsonValue.ofOperand x = .ok j
  toOperand : j.toOperand = x
  keyed : j.Keyed
  exists_write : ∀ level, ∃ s, write .plain level j = .ok s

theorem stands_null : Stands null .absent := ⟨rfl, rfl, trivial, fun _ => ⟨_, rfl⟩⟩

theorem stands_text (s : String) : Stands (text s) (.text s) := ⟨rfl, rfl, trivial, fun _ => ⟨_, rfl⟩⟩

theorem stands_number (x : Float) : Stands (number x) (.number x) := by
  refine ⟨rfl, rfl, trivial, fun level => ?_⟩
  rw [write, numberText]
  split
  · exact ⟨_, rfl⟩
  · exact ⟨_, rfl⟩

theorem Stands.list {js : List JsonValue} {xs : List (Operand Float)} (h : List.Forall₂ Stands js xs) :
    Stands (list js) (.list xs) := by
  have hall : ofOperands xs = .ok js ∧ toOperands js = xs ∧ KeyedAll js ∧
      ∀ level, ∃ parts, writeAll .plain level js = .ok parts := by
    induction h with
    | nil => exact ⟨rfl, rfl, trivial, fun _ => ⟨_, rfl⟩⟩
    | cons hx _ ih =>
      obtain ⟨hof, hto, hkeyed, hwrite⟩ := ih
      refine ⟨?_, ?_, ⟨hx.keyed, hkeyed⟩, fun level => ?_⟩
      · rw [ofOperands, hx.ofOperand, hof]
        rfl
      · rw [toOperands, hx.toOperand, hto]
      · obtain ⟨s, hs⟩ := hx.exists_write level
        obtain ⟨parts, hparts⟩ := hwrite level
        exact ⟨s :: parts, by rw [writeAll, hs, hparts]; rfl⟩
  obtain ⟨hof, hto, hkeyed, hwrite⟩ := hall
  refine ⟨?_, ?_, hkeyed, fun level => ?_⟩
  · rw [JsonValue.ofOperand, hof]
    rfl
  · rw [JsonValue.toOperand, hto]
  · obtain ⟨parts, hparts⟩ := hwrite (level + 1)
    rw [write, hparts]
    exact ⟨_, rfl⟩

/-- an entry of an object stands for an entry of a mapping under the same key -/
def EntryStands (e : String × JsonValue) (f : String × Operand Float) : Prop := e.1 = f.1 ∧ Stands e.2 f.2

theorem Stands.object {es : List (String × JsonValue)} {fs : List (String × Operand Float)}
    (h : List.Forall₂ EntryStands es fs) (hkeys : (es.map Prod.fst).Nodup) : Stands (object es) (.mapping fs) := by
  have hall : ofEntries fs = .ok es ∧ toEntries es = fs ∧ KeyedEntries es ∧
      ∀ level, ∃ parts, writeEntries .plain level es = .ok parts := by
    clear hkeys
    induction h with
    | nil => exact ⟨rfl, rfl, trivial, fun _ => ⟨_, rfl⟩⟩
    | @cons e f es fs hx _ ih =>
      obtain ⟨key, j⟩ := e
      obtain ⟨key', x⟩ := f
      obtain ⟨rfl, hx⟩ := hx
      obtain ⟨hof, hto, hkeyed, hwrite⟩ := ih
      refine ⟨?_, ?_, ⟨hx.keyed, hkeyed⟩, fun level => ?_⟩
      · rw [ofEntries, hx.ofOperand, hof]
        rfl
      · rw [toEntries, hx.toOperand, hto]
      · obtain ⟨s, hs⟩ := hx.exists_write level
        obtain ⟨parts, hparts⟩ := hwrite level
        exact ⟨(key, s) :: parts, by rw [writeEntries, hs, hparts]; rfl⟩
  obtain ⟨hof, hto, hkeyed, hwrite⟩ := hall
  refine ⟨?_, ?_, ⟨hkeys, hkeyed⟩, fun level => ?_⟩
  · rw [JsonValue.ofOperand, hof]
    rfl
  · rw [JsonValue.toOperand, hto]
  · obtain ⟨parts, hparts⟩ := hwrite (level + 1)
    rw [write, hparts]
    exact ⟨_, rfl⟩

theorem exists_stands_mapping {x : Operand Float} (name : String) (h : ∃ j, Stands j x) :
    ∃ j, Stands j (.mapping [("value", x), ("unit", .text name)]) := by
  obtain ⟨j, hj⟩ := h
  have hkeys : ["value", "unit"].Nodup := by decide
  exact ⟨.object [("value", j), ("unit", text name)],
    Stands.object (.cons ⟨rfl, hj⟩ (.cons ⟨rfl, stands_text name⟩ .nil)) hkeys⟩

/-- Nested lists have a JSON value that stands for them, if their elements have. -/
theorem exists_stands_nestedLists (shape : List Nat) {cells : List (Operand Float)}
    (h : ∀ x ∈ cells, ∃ j, Stands j x) : ∃ j, Stands j (Session.nestedLists shape cells) := by
  induction shape generalizing cells with
  | nil =>
    cases cells with
    | nil => exact ⟨null, stands_null⟩
    | cons x cells => exact h x List.mem_cons_self
  | cons n shape ih =>
    have hrow : ∀ i, ∃ j, Stands j (Session.nestedLists shape (Grid.rowOf shape cells i)) := fun i =>
      ih fun x hx => h x (Grid.mem_of_mem_rowOf hx)
    choose row hstands using hrow
    refine ⟨.list ((List.range n).map row), Stands.list ?_⟩
    rw [List.forall₂_map_left_iff, List.forall₂_map_right_iff, List.forall₂_same]
    exact fun i _ => hstands i

end JsonValue

/-! ## Units without conversion -/

theorem UnitMeaning.toStorage_of_isStorage {u : UnitMeaning Float} (h : u.isStorage = true) : u.toStorage = [] := by
  obtain ⟨hfactor, hoffset⟩ := Bool.and_eq_true_iff.1 h
  simp only [toStorage, hfactor, hoffset, if_true, List.append_nil]

/-- a text that is evaluated to a storage unit alone, and that has no blanks about it -/
structure Naming.IsNameOf (r : Registry Float) (name : String) (d : Dimension) (s : Scale) : Prop where
  evaluate : ∃ u, Expression.evaluateText r false name = .ok u ∧ u.isStorage = true ∧ u.dimension = d ∧ u.scale = s
  trim : Text.trim name.toList = name.toList
  ne_nil : name.toList ≠ []

theorem Naming.isNameOf_unitName {d : Dimension} {s : Scale} {name : String}
    (h : Naming.unitName Catalog.registry d s = .ok name) : Naming.IsNameOf Catalog.registry name d s := by
  have hspells := Naming.spells_unitName h
  obtain ⟨u, hu, hd, hs, hfactor, hoffset⟩ := Naming.names_of_spells hspells
  refine ⟨⟨u, hu, ?_, hd, hs⟩, ?_, ?_⟩
  · rw [UnitMeaning.isStorage, hfactor, hoffset]
    rfl
  · obtain ⟨_, hwrites, _⟩ := hspells
    exact Text.trim_of_solid hwrites.solid
  · intro hnil
    rw [String.toList_eq_nil_iff] at hnil
    have hscan : Expression.scan 0 (Text.trim "".toList) = .ok [] := by
      rw [show Text.trim "".toList = [] from rfl, Expression.scan]
    rw [hnil, Expression.evaluateText, Expression.parse_trimmed, Expression.parse_of_scan hscan] at hu
    cases hu

/-! ## Reading back -/

namespace Session

open Naming (IsNameOf)

variable {c : Context Float} {m m' : Store Float} {d : Dimension} {s : Scale} {name : String} {x y : Operand Float}

theorem kept_number (c : Context Float) (m : Store Float) (a : Float) :
    Quantity.kept (.number a) c m = .ok (.number a, m) := rfl

theorem of_named (hname : IsNameOf c.registry name d s) (hkept : Quantity.kept x c m = .ok (x, m)) :
    (do Quantity.of x (← unitOf (.text name))) c m = .ok (⟨x, d, s⟩, m) := by
  obtain ⟨u, hu, hstorage, rfl, rfl⟩ := hname.evaluate
  have hunit : unitOf (.text name) c m = .ok (u, m) := by
    change (liftM (Expression.evaluateText c.registry false name) : Session Float _) c m = _
    rw [hu]
    rfl
  rw [bind_of_ok hunit, Quantity.of, bind_of_ok hkept, UnitMeaning.toStorage_of_isStorage hstorage]
  rfl

theorem retarget_refusing {act : Session Float (Quantity (Operand Float))} {q : Quantity (Operand Float)}
    (wrap : UnitError → UnitError) (h : act c m = .ok (q, m')) :
    (do retarget (← refusing wrap act) .absent) c m = .ok (q, m') := by
  have hread : refusing wrap act c m = .ok (q, m') := by
    change tryCatch (act c m) _ = _
    rw [h]
    rfl
  rw [bind_of_ok hread]
  rfl

theorem ofText_number (hname : IsNameOf c.registry name d s) (a : Float) :
    ofText (.text (Decimal.text a ++ " " ++ name)) .absent c m = .ok (⟨.number a, d, s⟩, m) := by
  obtain ⟨n, hsplit, hvalue⟩ := Decimal.splitNumber_text a name.toList
  have hchars : (Decimal.text a ++ " " ++ name).toList = (Decimal.text a).toList ++ ' ' :: name.toList := by
    simp
  have hstart : (Decimal.text a ++ " " ++ name).toList.dropWhile Text.isBlank =
      (Decimal.text a).toList ++ ' ' :: name.toList := by
    rw [hchars]
    exact Text.dropWhile_run (show ∀ c ∈ [], _ from nofun) (Decimal.stopsAt_text a _)
  have htrim : Text.trim (' ' :: name.toList) = name.toList := by
    have hblank : Text.isBlank ' ' = true := by decide
    conv_rhs => rw [← hname.trim]
    simp only [Text.trim, List.dropWhile_cons, hblank, if_true]
  have hempty : name.toList.isEmpty = false := by simp [hname.ne_nil]
  have htext : splitText (Decimal.text a ++ " " ++ name) = .ok (n, name) := by
    simp only [splitText, hstart, hsplit, htrim, hempty, Bool.false_eq_true, if_false, String.ofList_toList]
  refine retarget_refusing _ ?_
  refine (bind_of_ok (lift_eq_ok_iff.2 ⟨htext, rfl⟩)).trans ?_
  refine (bind_of_ok (lift_eq_ok_iff.2 ⟨hvalue, rfl⟩)).trans ?_
  exact of_named hname (kept_number c m a)

theorem sharedName_absent (hname : Naming.unitName c.registry d s = .ok name) :
    sharedName ⟨x, d, s⟩ .absent c m = .ok (name, m) := (lift_eq_ok_iff (c := c)).2 ⟨hname, rfl⟩

theorem get_eq_ok (c : Context Float) (m : Store Float) : (get : Session Float (Store Float)) c m = .ok (m, m) := rfl

/-- the text of a single quantity is its number and the name of its unit -/
theorem toText_number (hname : Naming.unitName c.registry d s = .ok name) {a : Float}
    (hx : x = .number a ∨ x = .item (.real a)) :
    toText ⟨x, d, s⟩ .absent c m = .ok (Decimal.text a ++ " " ++ name, m) := by
  have hrank : x.rank m = 0 := by rcases hx with rfl | rfl <;> rfl
  have hnumber : x.toNumber m = .ok a := by rcases hx with rfl | rfl <;> rfl
  unfold toText
  refine (bind_of_ok (get_eq_ok c m)).trans ?_
  simp only [hrank, ne_eq, not_true, if_false]
  have hvalue : sharedValue ⟨x, d, s⟩ .absent c m = .ok (x, m) := rfl
  refine (bind_of_ok hvalue).trans ?_
  refine (bind_of_ok (get_eq_ok c m)).trans ?_
  refine (bind_of_ok (lift_eq_ok_iff.2 ⟨hnumber, rfl⟩)).trans ?_
  exact bind_of_ok (sharedName_absent hname)

/-! ## Mappings -/

theorem toMapping_of_plain (hname : Naming.unitName c.registry d s = .ok name)
    (hplain : plainValue x c m = .ok (y, m)) :
    toMapping ⟨x, d, s⟩ .absent c m = .ok (.mapping [("value", y), ("unit", .text name)], m) := by
  have hvalue : sharedValue ⟨x, d, s⟩ .absent c m = .ok (x, m) := rfl
  unfold toMapping
  refine (bind_of_ok hvalue).trans ?_
  refine (bind_of_ok hplain).trans ?_
  exact bind_of_ok (sharedName_absent hname)

theorem ofMapping_of_plain (hname : IsNameOf c.registry name d s) (hvalue : mappedValue y c m = .ok (x, m'))
    (hkept : Quantity.kept x c m' = .ok (x, m')) :
    ofMapping (.mapping [("value", y), ("unit", .text name)]) .absent c m = .ok (⟨x, d, s⟩, m') := by
  refine (bind_of_ok hvalue).trans ?_
  exact retarget_refusing _ (of_named hname hkept)

/-- **A JSON text tells what its mapping tells.** -/
theorem ofJson_toJson {q : Quantity (Operand Float)} (hshared : toMapping q .absent c m = .ok (x, m'))
    (hstands : ∃ j, JsonValue.Stands j x) :
    (do ofJson (.text (← toJson q .absent [])) .absent) c m = ofMapping x .absent c m' := by
  obtain ⟨j, hj⟩ := hstands
  obtain ⟨text, htext⟩ := hj.exists_write 0
  have hwritten : toJson q .absent [] c m = .ok (text, m') := by
    unfold toJson
    refine (bind_of_ok hshared).trans ?_
    refine (bind_of_ok (lift_eq_ok_iff.2 ⟨rfl, rfl⟩)).trans ?_
    refine (bind_of_ok (lift_eq_ok_iff.2 ⟨hj.ofOperand, rfl⟩)).trans ?_
    exact (lift_eq_ok_iff (c := c)).2 ⟨htext, rfl⟩
  have hread := JsonValue.read?_write hj.keyed htext
  rw [bind_of_ok hwritten]
  simp only [ofJson, hread, hj.toOperand]

/-! ## Arrays -/

theorem exists_real {t : Tensor Float} (hreal : t.kind = .real) (huniform : t.IsUniform) {cell : Cell Float}
    (hmem : cell ∈ t.grid.entries) : ∃ a, cell = .real a := by
  have hkind := huniform cell hmem
  rw [hreal] at hkind
  cases cell with
  | real a => exact ⟨a, rfl⟩
  | _ => cases hkind

theorem toTensor_nestedLists {t : Tensor Float} (hreal : t.kind = .real) (huniform : t.IsUniform)
    (hfilled : t.grid.Filled) (hne : t.grid.shape ≠ []) (hshape : 0 ∉ t.grid.shape) :
    ∃ xs, nestedLists t.grid.shape (t.grid.entries.map plainCell) = .list xs ∧
      (Operand.list xs).toTensor m .numbers = .ok t := by
  have hcell : ∀ cell ∈ t.grid.entries, ∃ a, cell = .real a := fun cell hmem => exists_real hreal huniform hmem
  have hlength : (t.grid.entries.map plainCell).length = Grid.volume t.grid.shape := (List.length_map _).trans hfilled
  have hleaf : ∀ x ∈ t.grid.entries.map plainCell, Operand.leaves m x = .ok (.scalar x) := by
    intro x hx
    obtain ⟨cell, hmem, rfl⟩ := List.mem_map.1 hx
    obtain ⟨a, rfl⟩ := hcell cell hmem
    exact Operand.leaves_number m a
  have hleaves := Operand.leaves_nestedLists hshape hlength hleaf
  have hcells : (t.grid.entries.map plainCell).mapM (Operand.cell .numbers) = .ok t.grid.entries := by
    rw [Outcome.mapM_eq_ok_iff, List.forall₂_map_left_iff, List.forall₂_same]
    intro cell hmem
    obtain ⟨a, rfl⟩ := hcell cell hmem
    rfl
  have hcast : t.grid.entries.map (Cell.cast .real) = t.grid.entries := by
    conv_rhs => rw [← List.map_id t.grid.entries]
    refine List.map_congr_left fun cell hmem => ?_
    obtain ⟨a, rfl⟩ := hcell cell hmem
    rfl
  obtain ⟨n, shape, hcons⟩ := List.exists_cons_of_ne_nil hne
  obtain ⟨xs, hxs⟩ : ∃ xs, nestedLists t.grid.shape (t.grid.entries.map plainCell) = .list xs := by
    rw [hcons]
    exact ⟨_, rfl⟩
  refine ⟨xs, hxs, ?_⟩
  rw [hxs] at hleaves
  change (Operand.leaves m (.list xs) >>= fun g => g.entries.mapM (Operand.cell .numbers) >>= fun cells =>
    Except.ok (Tensor.mk .real ⟨g.shape, cells.map (Cell.cast .real)⟩)) = _
  rw [hleaves]
  change ((t.grid.entries.map plainCell).mapM (Operand.cell .numbers) >>= _) = _
  rw [hcells]
  change Except.ok (Tensor.mk .real ⟨t.grid.shape, t.grid.entries.map (Cell.cast .real)⟩) = _
  rw [hcast, ← hreal]

/-! ## Round trips -/

/-- a single quantity comes back as its number in its unit -/
theorem shared_number (hname : Naming.unitName c.registry d s = .ok name) (hnames : IsNameOf c.registry name d s)
    {a : Float} (hx : x = .number a ∨ x = .item (.real a)) :
    (do ofText (.text (← toText ⟨x, d, s⟩ .absent)) .absent) c m = .ok (⟨.number a, d, s⟩, m) ∧
    (do ofMapping (← toMapping ⟨x, d, s⟩ .absent) .absent) c m = .ok (⟨.number a, d, s⟩, m) ∧
    (do ofJson (.text (← toJson ⟨x, d, s⟩ .absent [])) .absent) c m = .ok (⟨.number a, d, s⟩, m) := by
  have hplain : plainValue x c m = .ok (.number a, m) := by rcases hx with rfl | rfl <;> rfl
  have hmapping := toMapping_of_plain (m := m) hname hplain
  have hread : ofMapping (.mapping [("value", .number a), ("unit", .text name)]) .absent c m =
      .ok (⟨.number a, d, s⟩, m) := ofMapping_of_plain hnames rfl (kept_number c m a)
  refine ⟨?_, ?_, ?_⟩
  · rw [bind_of_ok (toText_number hname hx)]
    exact ofText_number hnames a
  · rw [bind_of_ok hmapping]
    exact hread
  · rw [ofJson_toJson hmapping (JsonValue.exists_stands_mapping _ ⟨_, JsonValue.stands_number a⟩)]
    exact hread

/-- an array comes back as a new one that shows the same -/
theorem shared_array (hname : Naming.unitName c.registry d s = .ok name) (hnames : IsNameOf c.registry name d s)
    {v : View} (hv : (Operand.array v).IsNumeric m) (hreal : (m.read v).kind = .real) (hne : v.shape ≠ [])
    (hshape : 0 ∉ v.shape) :
    ∃ w m', m.Grows m' ∧ m'.read w = m.read v ∧
      (do ofMapping (← toMapping ⟨.array v, d, s⟩ .absent) .absent) c m = .ok (⟨.array w, d, s⟩, m') ∧
      (do ofJson (.text (← toJson ⟨.array v, d, s⟩ .absent [])) .absent) c m = .ok (⟨.array w, d, s⟩, m') := by
  have hbox : (m.read v).grid.shape = v.shape := by
    unfold Store.read
    split <;> rfl
  rw [← hbox] at hne hshape
  have hcells : ∀ x ∈ (m.read v).grid.entries.map plainCell, ∃ j, JsonValue.Stands j x := by
    intro x hx
    obtain ⟨cell, hmem, rfl⟩ := List.mem_map.1 hx
    obtain ⟨a, rfl⟩ := exists_real hreal hv.uniform hmem
    exact ⟨_, JsonValue.stands_number a⟩
  have hstands := JsonValue.exists_stands_nestedLists (m.read v).grid.shape hcells
  obtain ⟨xs, hxs, htensor⟩ := toTensor_nestedLists (m := m) hreal hv.uniform hv.filled hne hshape
  have hplain : plainValue (.array v) c m = .ok (.list xs, m) := by
    rw [← hxs]
    rfl
  rw [hxs] at hstands
  have hvalue : mappedValue (.list xs) c m = .ok (.array (m.alloc (m.read v)).2, (m.alloc (m.read v)).1) := by
    change ((do newArray (← (Operand.list xs).toTensor (← get) .numbers)) : Session Float _) c m = _
    refine (bind_of_ok (get_eq_ok c m)).trans ?_
    exact bind_of_ok (lift_eq_ok_iff.2 ⟨htensor, rfl⟩)
  have hmapping := toMapping_of_plain (m := m) hname hplain
  have hread := ofMapping_of_plain hnames hvalue rfl
  refine ⟨_, _, Store.grows_alloc m (m.read v), Store.read_alloc m (m.read v), ?_, ?_⟩
  · rw [bind_of_ok hmapping]
    exact hread
  · rw [ofJson_toJson hmapping (JsonValue.exists_stands_mapping _ hstands)]
    exact hread

/-- **Quantities come back from what they are shared as.** With the built-in registry, under every policy: a quantity
whose unit has a name comes back from its text, its mapping and its JSON text with the same number, dimension and scale,
and an array that has axes, none of them empty, comes back from its mapping and its JSON text with the same shape and
elements. -/
theorem shared_returns (p : ScalePolicy) (m : Store Float) {d : Dimension} {s : Scale} {name : String}
    (hname : Naming.unitName Catalog.registry d s = .ok name) :
    let c : Context Float := ⟨p, Catalog.registry⟩
    (∀ (x : Operand Float) (a : Float), x = .number a ∨ x = .item (.real a) →
      (do ofText (.text (← toText ⟨x, d, s⟩ .absent)) .absent) c m = .ok (⟨.number a, d, s⟩, m) ∧
      (do ofMapping (← toMapping ⟨x, d, s⟩ .absent) .absent) c m = .ok (⟨.number a, d, s⟩, m) ∧
      (do ofJson (.text (← toJson ⟨x, d, s⟩ .absent [])) .absent) c m = .ok (⟨.number a, d, s⟩, m)) ∧
    ∀ v : View, (Operand.array v).IsNumeric m → (m.read v).kind = .real → v.shape ≠ [] → 0 ∉ v.shape →
      ∃ w m', m.Grows m' ∧ m'.read w = m.read v ∧
        (do ofMapping (← toMapping ⟨.array v, d, s⟩ .absent) .absent) c m = .ok (⟨.array w, d, s⟩, m') ∧
        (do ofJson (.text (← toJson ⟨.array v, d, s⟩ .absent [])) .absent) c m = .ok (⟨.array w, d, s⟩, m') := by
  intro c
  have hregistry : c.registry = Catalog.registry := by dsimp only [c]
  have hnames := Naming.isNameOf_unitName hname
  rw [← hregistry] at hname hnames
  exact ⟨fun x a hx => shared_number hname hnames hx, fun v hv hreal hne hshape =>
    shared_array hname hnames hv hreal hne hshape⟩

/-- minus zero, and an array with minus zero among its elements, in thousands -/
theorem shared_returns_thousand :
    let c : Context Float := ⟨.strict, Catalog.registry⟩
    let m : Store Float := ⟨[⟨.real, [.real 1.5, .real (-0.0)]⟩]⟩
    let v : View := ⟨0, ⟨[2], [0, 1]⟩⟩
    Naming.unitName Catalog.registry .one (.ten 3) = .ok "10^3" ∧
      (do ofText (.text (← toText ⟨.number (-0.0), .one, .ten 3⟩ .absent)) .absent) c m =
        .ok (⟨.number (-0.0), .one, .ten 3⟩, m) ∧
      (Operand.array v).IsNumeric m ∧
      ∃ w m', m.Grows m' ∧ m'.read w = m.read v ∧
        (do ofJson (.text (← toJson ⟨.array v, .one, .ten 3⟩ .absent [])) .absent) c m =
          .ok (⟨.array w, .one, .ten 3⟩, m') := by
  intro c m v
  have hname : Naming.unitName Catalog.registry .one (.ten 3) = .ok "10^3" := rfl
  have huniform : (m.read v).IsUniform := by
    intro cell hmem
    have hcells : cell ∈ [Cell.real 1.5, Cell.real (-0.0)] := hmem
    fin_cases hcells <;> rfl
  have hv : (Operand.array v).IsNumeric m := ⟨Nat.zero_lt_one, rfl, huniform⟩
  obtain ⟨w, m', hgrows, hread, -, hjson⟩ := (shared_returns .strict m hname).2 v hv rfl (by decide) (by decide)
  exact ⟨hname, ((shared_returns .strict m hname).1 (.number (-0.0)) (-0.0) (.inl rfl)).1, hv, w, m', hgrows, hread,
    hjson⟩

end Session

end UnitAlgebra

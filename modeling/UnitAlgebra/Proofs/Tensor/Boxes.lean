/-
Boxes that are full. A grid with a value for every place of its box has one for every place of any larger box that it is
repeated over, and repeating it over its own box changes nothing.

Results:
- `map_offset_indices`: the places of a box, row by row, are counted from zero on.
- `broadcast_self`: a full grid is its own repetition over its box.
- `fits_sharedShapes`: boxes fit the box that they share.
- `Filled.length_broadcast`: a full grid, repeated over a box that it fits, is full.
-/
import Mathlib.Data.List.Forall2
import UnitAlgebra.Tensor.Grid

namespace UnitAlgebra.Grid

variable {α β : Type}

/-! ## Places in a box -/

/-- every part of a place is within its extent -/
def InBox (index shape : List Nat) : Prop := List.Forall₂ (· < ·) index shape

theorem mem_indices {index shape : List Nat} : index ∈ indices shape ↔ InBox index shape := by
  induction shape generalizing index with
  | nil => simp [indices, InBox]
  | cons n shape ih =>
    simp only [indices, List.mem_flatMap, List.mem_range, List.mem_map, ih, InBox, List.forall₂_cons_right_iff]
    constructor
    · rintro ⟨i, hi, rest, hrest, rfl⟩
      exact ⟨i, rest, hi, hrest, rfl⟩
    · rintro ⟨i, rest, hi, hrest, rfl⟩
      exact ⟨i, hi, rest, hrest, rfl⟩

theorem flatMap_range_mul (m n : Nat) :
    ((List.range m).flatMap fun i => (List.range n).map (i * n + ·)) = List.range (m * n) := by
  induction m with
  | zero => simp
  | succ m ih => rw [List.range_succ, List.flatMap_append, ih, Nat.succ_mul, List.range_add, List.flatMap_singleton]

/-- The places of a box, row by row, are counted from zero on. -/
theorem map_offset_indices (shape : List Nat) : (indices shape).map (offset shape) = List.range (volume shape) := by
  induction shape with
  | nil => rfl
  | cons n shape ih =>
    have hrow : ∀ i, ((indices shape).map (i :: ·)).map (offset (n :: shape)) =
        (List.range (volume shape)).map (i * volume shape + ·) := by
      intro i
      rw [← ih, List.map_map, List.map_map]
      rfl
    simp only [indices, List.map_flatMap, hrow]
    exact flatMap_range_mul n (volume shape)

theorem InBox.offset_lt {index shape : List Nat} (h : InBox index shape) : offset shape index < volume shape := by
  have hmem : offset shape index ∈ List.range (volume shape) := by
    rw [← map_offset_indices]
    exact List.mem_map_of_mem (mem_indices.2 h)
  exact List.mem_range.1 hmem

/-! ## Full grids -/

/-- there is a value for every place of the box -/
def Filled (g : Grid α) : Prop := g.entries.length = volume g.shape

theorem Filled.map {g : Grid α} (h : g.Filled) (f : α → β) : (g.map f).Filled := by
  rw [Filled, Grid.map, List.length_map]
  exact h

theorem filled_scalar (a : α) : (scalar a).Filled := rfl

theorem map_map {γ : Type} (f : β → γ) (h : α → β) (g : Grid α) : (g.map h).map f = g.map (f ∘ h) := by
  simp [Grid.map]

theorem Filled.at?_isSome {g : Grid α} (h : g.Filled) {index : List Nat} (hi : InBox index g.shape) :
    (g.at? index).isSome = true := by
  have hlt : offset g.shape index < g.entries.length := h ▸ hi.offset_lt
  rw [at?, List.getElem?_eq_getElem hlt]
  rfl

/-- the place of a grid that a place of its own box reads is that place -/
theorem readPlace_self {index shape : List Nat} (h : InBox index shape) : readPlace shape index = index := by
  unfold readPlace
  rw [h.length_eq, Nat.sub_self, List.drop_zero]
  induction h with
  | nil => rfl
  | @cons i n index shape hi hrest ih =>
    rw [List.zip_cons_cons, List.map_cons, ih]
    change (if n = 1 then 0 else i) :: index = i :: index
    split
    · next hn =>
      have hzero : i = 0 := by omega
      rw [hzero]
    · rfl

theorem filterMap_getElem?_range (l : List α) : (List.range l.length).filterMap (l[·]?) = l := by
  induction l with
  | nil => rfl
  | cons a l ih =>
    rw [List.length_cons, List.range_succ_eq_map]
    change a :: ((List.range l.length).map Nat.succ).filterMap ((a :: l)[·]?) = a :: l
    rw [List.filterMap_map]
    exact congrArg (a :: ·) ih

/-- A full grid is its own repetition over its box. -/
theorem broadcast_self {g : Grid α} (h : g.Filled) : g.broadcast g.shape = g := by
  have hentries : (indices g.shape).filterMap (fun i => g.at? (readPlace g.shape i)) = g.entries := by
    calc (indices g.shape).filterMap (fun i => g.at? (readPlace g.shape i))
        = (indices g.shape).filterMap fun i => g.at? i :=
          List.filterMap_congr fun i hi => by rw [readPlace_self (mem_indices.1 hi)]
      _ = ((indices g.shape).map (offset g.shape)).filterMap (g.entries[·]?) := by
          rw [List.filterMap_map]
          rfl
      _ = (List.range g.entries.length).filterMap (g.entries[·]?) := by rw [map_offset_indices, h]
      _ = g.entries := filterMap_getElem?_range _
  cases g
  exact congrArg (Grid.mk _) hentries

/-! ## Shared boxes -/

/-- a box, last extent first, can be repeated over another -/
inductive FitsReversed : List Nat → List Nat → Prop where
  | nil (t : List Nat) : FitsReversed [] t
  | cons {m n : Nat} {s t : List Nat} (h : m = n ∨ m = 1) (hs : FitsReversed s t) : FitsReversed (m :: s) (n :: t)

theorem FitsReversed.refl (s : List Nat) : FitsReversed s s := by
  induction s with
  | nil => exact .nil _
  | cons n s ih => exact .cons (Or.inl rfl) ih

theorem FitsReversed.trans {s t u : List Nat} (h : FitsReversed s t) (h' : FitsReversed t u) : FitsReversed s u := by
  induction h generalizing u with
  | nil => exact .nil _
  | cons hmn _ ih =>
    cases h' with
    | cons hnk hs' =>
      refine .cons ?_ (ih hs')
      rcases hmn with rfl | rfl
      · exact hnk
      · exact Or.inr rfl

theorem fitsReversed_shared {s t u : List Nat} (h : sharedReversed s t = some u) :
    FitsReversed s u ∧ FitsReversed t u := by
  induction s generalizing t u with
  | nil =>
    cases t with
    | nil =>
      cases h
      exact ⟨.nil _, .nil _⟩
    | cons n t =>
      cases h
      exact ⟨.nil _, .refl _⟩
  | cons m s ih =>
    cases t with
    | nil =>
      cases h
      exact ⟨.refl _, .nil _⟩
    | cons n t =>
      simp only [sharedReversed, bind, Option.bind_eq_some_iff, pure, Option.some.injEq] at h
      obtain ⟨k, hk, rest, hrest, rfl⟩ := h
      obtain ⟨hs, ht⟩ := ih hrest
      unfold sharedExtent at hk
      split at hk
      · next hmn =>
        cases hk
        exact ⟨.cons (Or.inl rfl) hs, .cons (hmn.imp_left Eq.symm) ht⟩
      · split at hk
        · next hm =>
          cases hk
          exact ⟨.cons (Or.inr hm) hs, .cons (Or.inl rfl) ht⟩
        · cases hk

/-- a box can be repeated over another -/
def Fits (s u : List Nat) : Prop := FitsReversed s.reverse u.reverse

theorem fits_sharedShape {s t u : List Nat} (h : sharedShape s t = some u) : Fits s u ∧ Fits t u := by
  obtain ⟨v, hv, rfl⟩ := Option.map_eq_some_iff.1 h
  have := fitsReversed_shared hv
  rwa [Fits, Fits, List.reverse_reverse]

/-- Boxes fit the box that they share. -/
theorem fits_sharedShapes {shapes : List (List Nat)} {u : List Nat} (h : sharedShapes shapes = some u) :
    ∀ s ∈ shapes, Fits s u := by
  have all : ∀ (shapes : List (List Nat)) (a : List Nat), shapes.foldlM sharedShape a = some u →
      Fits a u ∧ ∀ s ∈ shapes, Fits s u := by
    intro shapes
    induction shapes with
    | nil =>
      intro a ha
      cases ha
      exact ⟨.refl _, by simp⟩
    | cons s shapes ih =>
      intro a ha
      rw [List.foldlM_cons] at ha
      obtain ⟨b, hb, hrest⟩ := Option.bind_eq_some_iff.1 ha
      obtain ⟨hbu, hall⟩ := ih b hrest
      obtain ⟨hab, hsb⟩ := fits_sharedShape hb
      refine ⟨hab.trans hbu, fun t ht => ?_⟩
      rcases List.mem_cons.1 ht with rfl | ht
      · exact hsb.trans hbu
      · exact hall t ht
  exact (all shapes [] h).2

theorem FitsReversed.forall₂ {s u : List Nat} (h : FitsReversed s u) :
    s.length ≤ u.length ∧ List.Forall₂ (fun m n => m = n ∨ m = 1) s (u.take s.length) := by
  induction h with
  | nil => exact ⟨Nat.zero_le _, by simp⟩
  | cons hmn _ ih => exact ⟨Nat.succ_le_succ ih.1, .cons hmn ih.2⟩

/-- the extents of a box that fits, beside the last extents of the larger box -/
theorem Fits.forall₂ {s u : List Nat} (h : Fits s u) :
    s.length ≤ u.length ∧ List.Forall₂ (fun m n => m = n ∨ m = 1) s (u.drop (u.length - s.length)) := by
  obtain ⟨hle, hall⟩ := FitsReversed.forall₂ h
  rw [List.length_reverse, List.length_reverse] at hle
  rw [List.length_reverse, List.take_reverse, List.forall₂_reverse_iff] at hall
  exact ⟨hle, hall⟩

theorem Fits.inBox {s u index : List Nat} (h : Fits s u) (hi : InBox index u) : InBox (readPlace s index) s := by
  have hall := h.forall₂.2
  have hin : InBox (index.drop (index.length - s.length)) (u.drop (u.length - s.length)) := by
    rw [hi.length_eq]
    exact List.forall₂_drop _ hi
  unfold readPlace
  clear h hi
  generalize index.drop (index.length - s.length) = i at hin ⊢
  generalize u.drop (u.length - s.length) = v at hall hin
  induction hall generalizing i with
  | nil => exact .nil
  | cons hmn _ ih =>
    cases hin with
    | cons hlt hrest =>
      rw [List.zip_cons_cons, List.map_cons]
      refine .cons ?_ (ih _ hrest)
      simp only
      split <;> omega

/-- A full grid, repeated over a box that it fits, is full. -/
theorem Filled.length_broadcast {g : Grid α} (h : g.Filled) {u : List Nat} (hu : Fits g.shape u) :
    (g.broadcast u).entries.length = volume u := by
  have hsome : ∀ l : List (List Nat), (∀ i ∈ l, InBox i u) →
      (l.filterMap fun i => g.at? (readPlace g.shape i)).length = l.length := by
    intro l
    induction l with
    | nil => intro _; rfl
    | cons i l ih =>
      intro hl
      obtain ⟨a, ha⟩ := Option.isSome_iff_exists.1 (h.at?_isSome (hu.inBox (hl i List.mem_cons_self)))
      have hrest := ih fun j hj => hl j (List.mem_cons_of_mem i hj)
      simp only [List.filterMap_cons, ha, List.length_cons, hrest]
  rw [broadcast, gather, hsome _ fun i hi => mem_indices.1 hi, length_indices]

theorem map_broadcast (f : α → β) (g : Grid α) (shape : List Nat) :
    (g.broadcast shape).map f = (g.map f).broadcast shape := map_gather f g shape _

theorem mem_of_mem_broadcast {g : Grid α} {shape : List Nat} {a : α} (h : a ∈ (g.broadcast shape).entries) :
    a ∈ g.entries := by
  obtain ⟨i, _, hi⟩ := List.mem_filterMap.1 h
  exact List.mem_of_getElem? hi

end UnitAlgebra.Grid

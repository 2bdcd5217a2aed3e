/-
Runs of sessions, and what they leave in memory. Computed tensors get buffers of their own, so memory only grows, and
operands that are there go on to show what they show.

Results:
- `Session.bind_eq_ok_iff`: a run in two steps.
- `Session.mapM_grows`: operands that are made one after the other are all there in the end.
- `Operand.tensor_of_grows`: what operands show stays as memory grows.
- `Operand.toTensor_eq`: numbers and arrays are read as the tensors that they show.
- `Session.computed_spec`: a computed tensor is shown by its operand.
-/
import UnitAlgebra.Operand.Wide
import UnitAlgebra.Proofs.Tensor.Rows

namespace UnitAlgebra

variable {κ : Type} [Numeric κ]

/-! ## Runs -/

namespace Session

variable {α β : Type} {c : Context κ} {m m' : Store κ}

omit [Numeric κ] in
/-- A run in two steps. -/
theorem bind_eq_ok_iff {act : Session κ α} {f : α → Session κ β} {b : β} :
    (act >>= f) c m = .ok (b, m') ↔ ∃ a m₁, act c m = .ok (a, m₁) ∧ f a c m₁ = .ok (b, m') := by
  change (act c m >>= fun p => f p.1 c p.2) = .ok (b, m') ↔ _
  rw [Outcome.bind_eq_ok_iff]
  exact ⟨fun ⟨p, h⟩ => ⟨p.1, p.2, h⟩, fun ⟨a, m₁, h⟩ => ⟨(a, m₁), h⟩⟩

omit [Numeric κ] in
theorem bind_of_ok {act : Session κ α} {f : α → Session κ β} {a : α} (h : act c m = .ok (a, m')) :
    (act >>= f) c m = f a c m' := by
  change (act c m >>= fun r => f r.1 c r.2) = _
  rw [h]
  rfl

omit [Numeric κ] in
theorem bind_of_error {act : Session κ α} {f : α → Session κ β} {fault : Fault} (h : act c m = .error fault) :
    (act >>= f) c m = .error fault := by
  change (act c m >>= fun r => f r.1 c r.2) = _
  rw [h]
  rfl

omit [Numeric κ] in
theorem pure_eq_ok_iff {a b : α} : (pure a : Session κ α) c m = .ok (b, m') ↔ a = b ∧ m = m' := by
  change Except.ok (a, m) = Except.ok (b, m') ↔ _
  rw [Except.ok.injEq, Prod.mk.injEq]

omit [Numeric κ] in
/-- an outcome is a run that leaves memory alone -/
theorem lift_eq_ok_iff {o : Outcome α} {a : α} : (liftM o : Session κ α) c m = .ok (a, m') ↔ o = .ok a ∧ m = m' := by
  cases o with
  | error fault => exact ⟨nofun, fun h => nomatch h.1⟩
  | ok b =>
    change Except.ok (b, m) = Except.ok (a, m') ↔ _
    rw [Except.ok.injEq, Prod.mk.injEq, Except.ok.injEq]

end Session

/-! ## Memory that grows -/

/-- all buffers are kept, and others may have come -/
def Store.Grows (m m' : Store κ) : Prop := m.buffers <+: m'.buffers

namespace Store

variable {m m' m'' : Store κ}

omit [Numeric κ] in
theorem Grows.refl (m : Store κ) : Grows m m := List.prefix_refl _

omit [Numeric κ] in
theorem Grows.trans (h : Grows m m') (h' : Grows m' m'') : Grows m m'' := List.IsPrefix.trans h h'

omit [Numeric κ] in
theorem Grows.buffer? (h : Grows m m') {n : Nat} (hn : n < m.buffers.length) : m'.buffer? n = m.buffer? n := by
  obtain ⟨rest, hrest⟩ := h
  rw [Store.buffer?, Store.buffer?, ← hrest, List.getElem?_append_left hn]

theorem Grows.read (h : Grows m m') {v : View} (hv : v.buffer < m.buffers.length) : m'.read v = m.read v := by
  rw [Store.read, Store.read, h.buffer? hv]

omit [Numeric κ] in
theorem grows_alloc (m : Store κ) (t : Tensor κ) : Grows m (m.alloc t).1 := List.prefix_append _ _

theorem shape_read (m : Store κ) (v : View) : (m.read v).grid.shape = v.shape := by
  unfold Store.read
  split <;> rfl

/-- A new buffer shows the tensor that it was made for. -/
theorem read_alloc (m : Store κ) (t : Tensor κ) : (m.alloc t).1.read (m.alloc t).2 = t := by
  have hentries : (List.range t.grid.entries.length).map
      (fun p => (t.grid.entries[p]?).getD (.real Numeric.zero)) = t.grid.entries := by
    refine List.ext_getElem (by simp) fun i hi _ => ?_
    have hlt : i < t.grid.entries.length := by simpa using hi
    simp [hlt]
  simp only [alloc, read, buffer?, List.getElem?_concat_length, Grid.map, hentries]

end Store

namespace Session

variable {α β : Type} {c : Context κ} {m m' : Store κ}

omit [Numeric κ] in
/-- Operands that are made one after the other are all there in the end, if what is made stays as memory grows. -/
theorem mapM_grows {f : α → Session κ β} {R : α → β → Store κ → Prop}
    (hstay : ∀ {a b m m'}, R a b m → Store.Grows m m' → R a b m') {l : List α} {m₀ : Store κ}
    (hstep : ∀ a ∈ l, ∀ {b m m'}, Store.Grows m₀ m → f a c m = .ok (b, m') → Store.Grows m m' ∧ R a b m')
    (hm : Store.Grows m₀ m) {bs : List β} (h : l.mapM f c m = .ok (bs, m')) :
    Store.Grows m m' ∧ List.Forall₂ (R · · m') l bs := by
  induction l generalizing m bs with
  | nil =>
    rw [List.mapM_nil, pure_eq_ok_iff] at h
    obtain ⟨rfl, rfl⟩ := h
    exact ⟨.refl _, .nil⟩
  | cons a l ih =>
    rw [List.mapM_cons, bind_eq_ok_iff] at h
    obtain ⟨b, m₁, hb, h⟩ := h
    rw [bind_eq_ok_iff] at h
    obtain ⟨rest, m₂, hrest, h⟩ := h
    obtain ⟨rfl, rfl⟩ := pure_eq_ok_iff.1 h
    obtain ⟨hg, hab⟩ := hstep a List.mem_cons_self hm hb
    obtain ⟨hg', hall⟩ := ih (fun x hx => hstep x (List.mem_cons_of_mem a hx)) (hm.trans hg) hrest
    exact ⟨hg.trans hg', .cons (hstay hab hg') hall⟩

end Session

/-! ## Operands of numbers -/

namespace Tensor

/-- all cells are of the kind of the tensor -/
def IsUniform (t : Tensor κ) : Prop := ∀ c ∈ t.grid.entries, c.kind = t.kind

omit [Numeric κ] in
theorem isUniform_scalar (c : Cell κ) : (scalar c).IsUniform := by
  intro d hd
  cases List.mem_singleton.1 hd
  rfl

omit [Numeric κ] in
theorem isUniform_ofNumbers (g : Grid κ) : (ofNumbers g).IsUniform := by
  intro c hc
  obtain ⟨x, _, rfl⟩ := List.mem_map.1 hc
  rfl

end Tensor

theorem Store.filled_read (m : Store κ) {v : View} (hlt : v.buffer < m.buffers.length) (hv : v.places.Filled) :
    (m.read v).grid.Filled := by
  have hbuffer : m.buffer? v.buffer = some m.buffers[v.buffer] := List.getElem?_eq_getElem hlt
  simp only [read, hbuffer]
  exact hv.map _

namespace Operand

/-- what an operand shows is in memory -/
def IsLive (m : Store κ) : Operand κ → Prop
  | array v => v.buffer < m.buffers.length
  | _ => True

/-- one number, or an array of numbers that is in memory and full, with cells of one kind -/
def IsNumeric (m : Store κ) : Operand κ → Prop
  | flag _ | integer _ | number _ | item _ => True
  | array v => v.buffer < m.buffers.length ∧ v.places.Filled ∧ (m.read v).IsUniform
  | _ => False

/-- the tensor that a number, or an array of numbers, shows -/
def tensor (m : Store κ) : Operand κ → Tensor κ
  | flag b => .scalar (.flag b)
  | integer n => .scalar (.integer n)
  | number x => .scalar (.real x)
  | item c => .scalar c
  | array v => m.read v
  | _ => ⟨.real, ⟨[0], []⟩⟩

variable {m m' : Store κ} {x : Operand κ}

omit [Numeric κ] in
theorem IsLive.grows (hx : x.IsLive m) (h : m.Grows m') : x.IsLive m' := by
  cases x <;> try exact hx
  exact Nat.lt_of_lt_of_le hx h.length_le

/-- What operands show stays as memory grows. -/
theorem tensor_of_grows (hx : x.IsLive m) (h : m.Grows m') : x.tensor m' = x.tensor m := by
  cases x <;> try rfl
  exact h.read hx

theorem IsNumeric.live (hx : x.IsNumeric m) : x.IsLive m := by
  cases x <;> try trivial
  exact hx.1

theorem IsNumeric.grows (hx : x.IsNumeric m) (h : m.Grows m') : x.IsNumeric m' := by
  cases x <;> try exact hx
  obtain ⟨hlive, hfilled, huniform⟩ := hx
  exact ⟨Nat.lt_of_lt_of_le hlive h.length_le, hfilled, h.read hlive ▸ huniform⟩

theorem IsNumeric.filled (hx : x.IsNumeric m) : (x.tensor m).grid.Filled := by
  cases x <;> try exact Grid.filled_scalar _
  case array v => exact m.filled_read hx.1 hx.2.1
  all_goals exact hx.elim

theorem IsNumeric.uniform (hx : x.IsNumeric m) : (x.tensor m).IsUniform := by
  cases x <;> try exact Tensor.isUniform_scalar _
  case array v => exact hx.2.2
  all_goals exact hx.elim

theorem toTensor_of_cell {c : Cell κ} (hl : x.leaves m = .ok (.scalar x)) (hc : x.cell .asIs = .ok c)
    (ha : x.isArray = false) : x.toTensor m .asIs = .ok (.scalar c) := by
  have hread : x.toTensor m .asIs = (x.leaves m >>= fun g => g.entries.mapM (cell .asIs) >>= fun cells =>
      .ok ⟨Kind.joinAll (cells.map Cell.kind), g.shape, cells.map (Cell.cast (Kind.joinAll (cells.map Cell.kind)))⟩) := by
    cases x <;> first | rfl | cases ha
  rw [hread, hl]
  change ([x].mapM (cell .asIs) >>= _) = _
  rw [List.mapM_cons, List.mapM_nil, hc]
  change Except.ok (Tensor.mk c.kind ⟨[], [c.cast c.kind]⟩) = _
  rw [Cell.cast_kind]
  rfl

/-- Numbers and arrays are read as the tensors that they show. -/
theorem toTensor_eq (hx : x.IsNumeric m) (hw : x.isWide = false) : x.toTensor m .asIs = .ok (x.tensor m) := by
  cases x with
  | array v => rfl
  | integer n =>
    refine toTensor_of_cell (by simp [leaves]) ?_ rfl
    have hn : wrapped n = n := by simpa [isWide] using hw
    simp [cell, integerCell, hn]
  | flag b => exact toTensor_of_cell (by simp [leaves]) rfl rfl
  | number y => exact toTensor_of_cell (by simp [leaves]) rfl rfl
  | item c => exact toTensor_of_cell (by simp [leaves]) rfl rfl
  | _ => exact hx.elim

/-- a whole number that no cell can hold is not read -/
theorem toTensor_of_wide (hw : x.isWide = true) : x.toTensor m .asIs = .error .tooLarge := by
  cases x with
  | integer n =>
    have hn : wrapped n ≠ n := by simpa [isWide] using hw
    have hread : (integer n : Operand κ).toTensor m .asIs = ((integer n : Operand κ).leaves m >>= fun g =>
        g.entries.mapM (cell .asIs) >>= fun cells => .ok ⟨Kind.joinAll (cells.map Cell.kind), g.shape,
          cells.map (Cell.cast (Kind.joinAll (cells.map Cell.kind)))⟩) := rfl
    have hcell : (integer n : Operand κ).cell .asIs = .error .tooLarge := by
      simp [cell, integerCell, hn]
    have hleaves : (integer n : Operand κ).leaves m = .ok (.scalar (integer n)) := by simp [leaves]
    rw [hread, hleaves]
    change ([integer n].mapM (cell .asIs) >>= _) = _
    rw [List.mapM_cons, hcell]
    rfl
  | _ => cases hw

end Operand

/-! ## Tensors and their operands -/

namespace Session

variable {c : Context κ} {m m' : Store κ}

theorem tensorOf_eq_ok_iff {x : Operand κ} {t : Tensor κ} :
    tensorOf x c m = .ok (t, m') ↔ x.toTensor m .asIs = .ok t ∧ m = m' := by
  change (x.toTensor m .asIs >>= fun t => .ok (t, m)) = .ok (t, m') ↔ _
  rw [Outcome.bind_eq_ok_iff]
  constructor
  · rintro ⟨u, hu, h⟩
    cases h
    exact ⟨hu, rfl⟩
  · rintro ⟨ht, rfl⟩
    exact ⟨t, ht, rfl⟩

/-- the operand of a computed tensor: an item, or an array of its own -/
structure Computed (t : Tensor κ) (x : Operand κ) (m : Store κ) : Prop where
  live : x.IsLive m
  grid : (x.tensor m).grid = t.grid
  tensor : t.IsUniform → x.tensor m = t
  numeric : t.grid.Filled → t.IsUniform → x.IsNumeric m
  isBare : x.isQuantity = false
  isNarrow : x.isWide = false

omit [Numeric κ] in
theorem computed_scalar {t : Tensor κ} {cell : Cell κ} (h : t.grid = .scalar cell) : computed t = pure (.item cell) := by
  unfold computed
  rw [h]
  rfl

omit [Numeric κ] in
theorem computed_of_not_scalar {t : Tensor κ} (h : ∀ cell, t.grid ≠ .scalar cell) : computed t = newArray t := by
  unfold computed
  split
  · next cell hshape hentries =>
    refine absurd ?_ (h cell)
    obtain ⟨kind, shape, entries⟩ := t
    cases hshape
    cases hentries
    rfl
  · rfl

omit [Numeric κ] in
theorem exists_computed (t : Tensor κ) (c : Context κ) (m : Store κ) : ∃ x m', computed t c m = .ok (x, m') := by
  by_cases hs : ∃ cell, t.grid = .scalar cell
  · obtain ⟨cell, hgrid⟩ := hs
    exact ⟨_, _, by rw [computed_scalar hgrid]; rfl⟩
  · exact ⟨_, _, by rw [computed_of_not_scalar fun cell hcell => hs ⟨cell, hcell⟩]; rfl⟩

/-- A computed tensor is shown by its operand. -/
theorem computed_spec {t : Tensor κ} {x : Operand κ} (h : computed t c m = .ok (x, m')) :
    m.Grows m' ∧ Computed t x m' := by
  by_cases hs : ∃ cell, t.grid = .scalar cell
  · obtain ⟨cell, hgrid⟩ := hs
    rw [computed_scalar hgrid, pure_eq_ok_iff] at h
    obtain ⟨rfl, rfl⟩ := h
    refine ⟨.refl _, trivial, hgrid.symm, fun ht => ?_, fun _ _ => trivial, rfl, rfl⟩
    have hkind : cell.kind = t.kind := ht cell (by rw [hgrid]; exact List.mem_singleton_self _)
    obtain ⟨kind, grid⟩ := t
    cases hgrid
    cases hkind
    rfl
  · rw [computed_of_not_scalar fun cell hcell => hs ⟨cell, hcell⟩] at h
    have hm : (m.alloc t).1 = m' ∧ .array (m.alloc t).2 = x := by
      cases h
      exact ⟨rfl, rfl⟩
    obtain ⟨rfl, rfl⟩ := hm
    have hread : (Operand.array (m.alloc t).2).tensor (m.alloc t).1 = t := Store.read_alloc m t
    have hlive : (Operand.array (m.alloc t).2).IsLive (m.alloc t).1 := by simp [Operand.IsLive, Store.alloc]
    refine ⟨Store.grows_alloc m t, hlive, by rw [hread], fun _ => hread, fun hfilled hu => ⟨hlive, ?_, ?_⟩, rfl, rfl⟩
    · simpa [Grid.Filled, Store.alloc] using hfilled
    · rwa [Store.read_alloc]

theorem Computed.grows {t : Tensor κ} {x : Operand κ} (h : Computed t x m) (hm : m.Grows m') : Computed t x m' := by
  have hstay := Operand.tensor_of_grows h.live hm
  exact ⟨h.live.grows hm, hstay ▸ h.grid, fun hu => hstay ▸ h.tensor hu, fun hf hu => (h.numeric hf hu).grows hm,
    h.isBare, h.isNarrow⟩

end Session

end UnitAlgebra

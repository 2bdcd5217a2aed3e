/-
What array functions compute, by physical values. Computed on numbers in their units and on bare numbers that show the
physical values, a function reads the same options and gives results that differ by the factor of its unit.

Results:
- `Alike`: arguments as they are computed with, beside bare arguments; `Alike.own`, `Alike.shared`, `Alike.perhaps`,
  `Alike.arrays`: what a function finds under the names of its parameters.
- `foldOver_scaled`, `runningSums_scaled`, `statistic_scaled`: folds and statistics.
- `concatenateArrays_scaled`, `stackArrays_scaled`: joints.
-/
import UnitAlgebra.Proofs.Quantity.PhysicalArguments

namespace UnitAlgebra

variable [Numeric ℝ]

omit [Numeric ℝ] in
theorem Arguments.get_of_get? {as : Arguments ℝ} {name : String} {x : Operand ℝ} (h : as.get? name = some x) :
    as.get name = x := by rw [get, h]; rfl

namespace Session

/-- what a parameter takes is told by its name -/
def roleOf (name : String) : Role :=
  if name = "a" ∨ name = "b" then .quantity
  else if name = "arrays" then .quantities
  else if name = "initial" ∨ name = "atol" ∨ name = "out" then .perhaps
  else .bare

omit [Numeric ℝ] in
theorem role_eq_roleOf {f : ArrayFunction} {p : Parameter} (hp : p ∈ f.parameters) : p.role = roleOf p.name := by
  have hall : ∀ p ∈ f.parameters, p.role = roleOf p.name := by cases f <;> decide
  exact hall p hp

variable {c c' : Context ℝ} {m m₃ m₄ m' : Store ℝ} {f : ArrayFunction} {w : Operand ℝ → ℝ} {as bare bs : Arguments ℝ}

/-! ## Arguments side by side -/

/-- arguments of a function: as they are given, as they are computed with, and bare for their physical values -/
structure Alike (f : ArrayFunction) (c : Context ℝ) (m m₃ m' : Store ℝ) (w : Operand ℝ → ℝ)
    (as bare bs : Arguments ℝ) : Prop where
  complete : Arguments.AreComplete f.parameters as
  grows : m.Grows m₃
  bared : List.Forall₂ (fun e o => o.1 = e.1 ∧ Bared c m m₃ w e.1.role e.2 o.2) as bare
  stands : StandFor c m as m' bs

/-- numbers in a unit are the physical values, but for the factor of the unit -/
theorem scaled_of_aligned [Numeric.Exact] {x v : Operand ℝ} {a : ℝ} (hv : Aligned m x a v m₃) :
    Tensor.Scaled Cell.Equals a (v.tensor m₃) (.ofNumbers (x.physical m)) := by
  have hnumbers : x.physical m = (v.tensor m₃).numbers.map (· * a) := by
    rw [← hv.physical]
    simp only [Numeric.Exact.mul]
  rw [hnumbers]
  exact Tensor.scaled_ofNumbers hv.numeric.uniform a

theorem scaledBy_of_aligned [Numeric.Exact] {x v y : Operand ℝ} {a : ℝ} (hv : Aligned m x a v m₃)
    (hy : x.ShowsPhysical m m' y) : v.ScaledBy a m₃ m' y :=
  ⟨hv.numeric, hy.numeric, by rw [hy.tensor]; exact scaled_of_aligned hv⟩

namespace Alike

theorem find? (h : Alike f c m m₃ m' w as bare bs) (name : String) :
    (bare.get? name = none ∧ bs.get? name = none) ∨ ∃ e v y, as.find? (·.1.name = name) = some e ∧
      e.1 ∈ f.parameters ∧ e.1.name = name ∧ bare.get? name = some v ∧ bs.get? name = some y ∧
        Bared c m m₃ w e.1.role e.2 v ∧ BareFor c m m' e.1.role e.2 y := by
  cases hfind : as.find? (·.1.name = name) with
  | none =>
    have hnone : ∀ {os : Arguments ℝ} {R : Parameter × Operand ℝ → Parameter × Operand ℝ → Prop},
        List.Forall₂ (fun e o => o.1 = e.1 ∧ R e o) as os → os.get? name = none := by
      intro os R hos
      rw [Arguments.get?, Option.map_eq_none_iff]
      by_contra hsome
      obtain ⟨o, ho⟩ := Option.ne_none_iff_exists'.1 hsome
      obtain ⟨e, he, -⟩ := exists_find? hos.flip (fun h => h.1.symm) ho
      cases hfind.symm.trans he
    exact .inl ⟨hnone h.bared, hnone h.stands.each⟩
  | some e =>
    obtain ⟨o, ho, -, hbared⟩ := exists_find? h.bared (fun h => h.1) hfind
    obtain ⟨b, hb, -, hstands⟩ := exists_find? h.stands.each (fun h => h.1) hfind
    have hmem := h.complete.ordered.subset (List.mem_map_of_mem (List.mem_of_find?_eq_some hfind))
    have hname : e.1.name = name := by simpa using List.find?_some hfind
    exact .inr ⟨e, o.2, b.2, rfl, hmem, hname, by rw [Arguments.get?, ho]; rfl, by rw [Arguments.get?, hb]; rfl, hbared,
      hstands⟩

/-- what is no quantity is the same on both sides, and can be read on both -/
theorem shared (h : Alike f c m m₃ m' w as bare bs) (name : String) (hrole : roleOf name = .bare) :
    bare.get? name = bs.get? name ∧ ∀ x, bs.get? name = some x → x.IsSettled m := by
  rcases h.find? name with ⟨hbare, hbs⟩ | ⟨e, v, y, -, hmem, hname, hv, hy, hbared, hstands⟩
  · rw [hbare, hbs]
    exact ⟨rfl, nofun⟩
  · rw [role_eq_roleOf hmem, hname, hrole] at hbared hstands
    rw [hv, hy]
    cases hbared with
    | single hr => rcases hr with hr | hr <;> cases hr
    | bare =>
      cases hstands with
      | single hr => rcases hr with hr | hr <;> cases hr
      | bare hsettled =>
        refine ⟨rfl, fun x hx => ?_⟩
        cases hx
        exact hsettled

/-- no units come in with what is bare -/
theorem brings_nothing (h : Alike f c m m₃ m' w as bare bs) : bs.any (bringsQuantity f) = false := by
  have hnumeric : ∀ {y : Operand ℝ}, y.IsNumeric m' → ∀ p, holdsQuantity p y = false := by
    intro y hy p
    cases y <;> first | rfl | exact hy.elim
  rw [List.any_eq_false]
  intro b hb
  obtain ⟨e, he, hparam, hstands⟩ := exists_partner h.stands.each.flip hb
  obtain ⟨o, -, -, hbared⟩ := exists_partner h.bared he
  suffices hholds : holdsQuantity b.1 b.2 = false by rw [bringsQuantity, hholds, Bool.and_false]; exact Bool.false_ne_true
  rw [hparam]
  generalize b.2 = y at hstands
  generalize e.2 = x at hstands hbared
  generalize hrole : e.1.role = r at hstands hbared
  cases hstands with
  | single _ hshows => exact hnumeric hshows.numeric _
  | absent => rfl
  | several _ hys =>
    refine Bool.and_eq_false_iff.2 (.inr (List.any_eq_false.2 fun y hy => ?_))
    obtain ⟨x, -, hshows⟩ := exists_partner hys.flip hy
    have hy := hshows.numeric
    cases y <;> first | exact Bool.false_ne_true | exact hy.elim
  | bare =>
    cases hbared with
    | single hr => rcases hr with hr | hr <;> cases hr
    | bare hx =>
      generalize o.2 = y at hx ⊢
      cases y <;> first
        | rfl
        | exact Bool.and_eq_false_iff.2 (.inl (by rw [hrole]; rfl))
        | cases hx

section

variable [Numeric.Exact]

omit [Numeric.Exact] in
theorem given (h : Alike f c m m₃ m' w as bare bs) {name : String} {r : Role} (hp : .needed name r ∈ f.parameters) :
    ∃ v y, bare.get? name = some v ∧ bs.get? name = some y ∧ Bared c m m₃ w r (as.get name) v ∧
      BareFor c m m' r (as.get name) y := by
  obtain ⟨e, he, hparam⟩ := List.mem_map.1 (h.complete.given _ hp rfl)
  rcases h.find? name with ⟨hbare, -⟩ | ⟨e', v, y, hfind, hmem, hname, hv, hy, hbared, hstands⟩
  · rw [Arguments.get?, Option.map_eq_none_iff, List.find?_eq_none] at hbare
    obtain ⟨o, ho, hsame, -⟩ := exists_partner h.bared he
    exact absurd (hbare o ho) (by simp [hsame, hparam, Parameter.needed])
  · have hget : as.get name = e'.2 := Arguments.get_of_get? (by rw [Arguments.get?, hfind]; rfl)
    have hrole : r = roleOf name := role_eq_roleOf hp
    rw [role_eq_roleOf hmem, hname, ← hrole] at hbared hstands
    exact ⟨v, y, hv, hy, hget ▸ hbared, hget ▸ hstands⟩

/-- the operand of a parameter that takes a quantity and has to be given -/
theorem own (h : Alike f c m m₃ m' w as bare bs) {name : String} (hp : .needed name .quantity ∈ f.parameters) :
    (bare.get name).ScaledBy (w (as.get name)) m₃ m' (bs.get name) := by
  obtain ⟨v, y, hv, hy, hbared, hstands⟩ := h.given hp
  rw [Arguments.get_of_get? hv, Arguments.get_of_get? hy]
  generalize as.get name = x at hbared hstands
  cases hbared with
  | single _ _ haligned =>
    cases hstands with
    | single _ hshows => exact scaledBy_of_aligned haligned hshows

/-- the operand of a parameter that takes a quantity or nothing -/
theorem perhaps (h : Alike f c m m₃ m' w as bare bs) (name : String) (hrole : roleOf name = .perhaps) :
    (bare.get? name = none ∧ bs.get? name = none ∨
      bare.get? name = some .absent ∧ bs.get? name = some .absent) ∨
    ∃ v y, bare.get? name = some v ∧ bs.get? name = some y ∧ v.ScaledBy (w (as.get name)) m₃ m' y ∧
      (as.get name).ShowsPhysical m m' y := by
  rcases h.find? name with hnone | ⟨e, v, y, hfind, hmem, hname, hv, hy, hbared, hstands⟩
  · exact .inl (.inl hnone)
  · have hget : as.get name = e.2 := Arguments.get_of_get? (by rw [Arguments.get?, hfind]; rfl)
    rw [hget, hv, hy]
    rw [role_eq_roleOf hmem, hname, hrole] at hbared hstands
    generalize e.2 = x at hbared hstands
    cases hbared with
    | single _ hx haligned =>
      cases hstands with
      | single _ hshows => exact .inr ⟨v, y, rfl, rfl, scaledBy_of_aligned haligned hshows, hshows⟩
      | absent => exact absurd rfl hx
    | absent =>
      cases hstands with
      | single _ hshows => exact hshows.measure.elim
      | absent => exact .inl (.inr ⟨rfl, rfl⟩)

/-- what is not given, or given as nothing, is nothing on both sides -/
theorem get_absent (h : Alike f c m m₃ m' w as bare bs) (name : String) (hrole : roleOf name = .perhaps)
    (hget : as.get name = .absent) : bare.get name = .absent ∧ bs.get name = .absent := by
  rcases h.perhaps name hrole with (⟨hbare, hbs⟩ | ⟨hbare, hbs⟩) | ⟨v, y, -, -, -, hshows⟩
  · exact ⟨by rw [Arguments.get, hbare]; rfl, by rw [Arguments.get, hbs]; rfl⟩
  · exact ⟨Arguments.get_of_get? hbare, Arguments.get_of_get? hbs⟩
  · rw [hget] at hshows
    exact hshows.measure.elim

theorem arrays (h : Alike f c m m₃ m' w as bare bs) {name : String} (hp : .needed name .quantities ∈ f.parameters)
    {a : ℝ} (hw : ∀ x, w x = a) : ∃ vs ys, bare.get name = .list vs ∧ bs.get name = .list ys ∧
      List.Forall₂ (fun v y => v.ScaledBy a m₃ m' y) vs ys := by
  obtain ⟨v, y, hv, hy, hbared, hstands⟩ := h.given hp
  rw [Arguments.get_of_get? hv, Arguments.get_of_get? hy]
  cases hbared with
  | single hr => rcases hr with hr | hr <;> cases hr
  | several hx hvs =>
    cases hstands with
    | single hr => rcases hr with hr | hr <;> cases hr
    | several hx' hys =>
      cases hx.symm.trans hx'
      refine ⟨_, _, rfl, rfl, (forall₂_trans hvs.flip hys).imp ?_⟩
      rintro v y ⟨x, -, haligned, hshows⟩
      rw [← hw x]
      exact scaledBy_of_aligned haligned hshows

end

end Alike

/-! ## Reading -/

section Reading

theorem tensorOf_scaled (c' : Context ℝ) {v y : Operand ℝ} {a : ℝ} (h : v.ScaledBy a m₃ m' y) {t : Tensor ℝ}
    (hrun : tensorOf v c m₃ = .ok (t, m₄)) : m₃ = m₄ ∧ t.grid.Filled ∧
      ∃ t', tensorOf y c' m' = .ok (t', m') ∧ Tensor.Scaled Cell.Equals a t t' := by
  obtain ⟨hread, rfl⟩ := tensorOf_eq_ok_iff.1 hrun
  obtain rfl := Operand.tensor_of_toTensor h.value hread
  have hnarrow : y.isWide = false := by
    have hkind := h.tensor.kind
    cases y <;> first | rfl | cases hkind
  exact ⟨rfl, h.value.filled, _, tensorOf_eq_ok_iff.2 ⟨Operand.toTensor_eq h.numeric hnarrow, rfl⟩, h.tensor⟩

theorem tensorOf_settled (c' : Context ℝ) {x : Operand ℝ} (hx : x.IsSettled m) (hm : m.Grows m₃) (hm' : m.Grows m')
    {t : Tensor ℝ} (hrun : tensorOf x c m₃ = .ok (t, m₄)) : m₃ = m₄ ∧ tensorOf x c' m' = .ok (t, m') := by
  obtain ⟨hread, rfl⟩ := tensorOf_eq_ok_iff.1 hrun
  rw [(hx m₃ hm).1] at hread
  exact ⟨rfl, tensorOf_eq_ok_iff.2 ⟨(hx m' hm').1.trans hread, rfl⟩⟩

theorem Alike.get_eq (h : Alike f c m m₃ m' w as bare bs) (name : String) (hrole : roleOf name = .bare) :
    bare.get name = bs.get name := by
  rw [Arguments.get, Arguments.get, (h.shared name hrole).1]

theorem cellOf_eq_ok_iff {x : Operand ℝ} (hx : x.isQuantity = false) {cell : Cell ℝ} :
    cellOf x c m = .ok (cell, m₁) ↔ ∃ k, tensorOf x c m = .ok (⟨k, .scalar cell⟩, m₁) := by
  unfold cellOf
  split
  · cases hx
  rw [bind_eq_ok_iff]
  constructor
  · rintro ⟨t, m₂, ht, hrun⟩
    split at hrun
    · cases hrun
      exact ⟨_, ht⟩
    · cases hrun
  · rintro ⟨k, ht⟩
    exact ⟨_, m₁, ht, rfl⟩

end Reading

/-! ## Folds -/

/-- the cells that a fold is told to look at -/
def maskOf : Option (Operand ℝ) → Session ℝ (Option (Grid Bool))
  | none | some (.flag true) => pure none
  | some .absent => pure (some (.scalar false))
  | some x => do return some ((← tensorOf x).grid.map Cell.toBool)

theorem foldOver_eq (g : Elementwise) (into : Option Kind) (as : Arguments ℝ) : foldOver g into as = (do
    let t ← tensorOf (as.get "a")
    let axes ← Tensor.axesOf t.grid.rank (as.get "axis")
    let start ← startOf (as.get? "initial")
    let mask ← maskOf (as.get? "where")
    return ← t.reduce g axes (as.flag "keepdims") start mask into) := by
  unfold foldOver
  refine bind_congr fun t => bind_congr fun axes => bind_congr fun start => ?_
  rcases as.get? "where" with _ | x
  · rfl
  · cases x with
    | flag b => cases b <;> simp only [maskOf, bind_assoc, pure_bind]
    | _ => simp only [maskOf, bind_assoc, pure_bind]

theorem maskOf_settled (c' : Context ℝ) {o : Option (Operand ℝ)} (ho : ∀ x, o = some x → x.IsSettled m) (hm : m.Grows m₃)
    (hm' : m.Grows m') {mask : Option (Grid Bool)} (hrun : maskOf o c m₃ = .ok (mask, m₄)) :
    m₃ = m₄ ∧ maskOf o c' m' = .ok (mask, m') := by
  unfold maskOf at hrun ⊢
  split at hrun
  · cases hrun
    exact ⟨rfl, rfl⟩
  · cases hrun
    exact ⟨rfl, rfl⟩
  · cases hrun
    exact ⟨rfl, rfl⟩
  · next x _ _ =>
    obtain ⟨t, m₅, ht, hrun⟩ := bind_eq_ok_iff.1 hrun
    cases hrun
    obtain ⟨rfl, ht'⟩ := tensorOf_settled c' (ho x rfl) hm hm' ht
    exact ⟨rfl, bind_eq_ok_iff.2 ⟨t, m', ht', rfl⟩⟩

section

variable [Numeric.Analytic] {P : Kind → Cell ℝ → ℝ → Prop} {g : Elementwise} (hg : ∀ k, Simulates g k (P k)) {a : ℝ}
  (ha : 0 < a)

include hg ha

/-- what a fold begins with, if the kind of the fold can hold it -/
theorem start_scaled (c' : Context ℝ) (h : Alike f c m m₃ m' w as bare bs) (hw : w (as.get "initial") = a)
    {start : Start ℝ} (hrun : startOf (bare.get? "initial") c m₃ = .ok (start, m₄)) :
    m₃ = m₄ ∧ ∃ start', startOf (bs.get? "initial") c' m' = .ok (start', m') ∧
      ∀ k : Kind, (∀ n ∈ ((as.get "initial").physical m).entries, k.Holds (n / a)) →
        Start.Rel (fun e e' => Weighing (P k) a (e.cast k) e') start start' := by
  rcases h.perhaps "initial" rfl with (⟨hbare, hbs⟩ | ⟨hbare, hbs⟩) | ⟨v, y, hv, hy, hscaled, hshows⟩
  · rw [hbare] at hrun
    cases hrun
    exact ⟨rfl, .usual, by rw [hbs]; rfl, fun _ _ => .usual⟩
  · rw [hbare] at hrun
    cases hrun
    exact ⟨rfl, .first, by rw [hbs]; rfl, fun _ _ => .first⟩
  · rw [hw] at hscaled
    have hpresent : ∀ {z : Operand ℝ} {n : Store ℝ}, z.IsNumeric n → z.isQuantity = false ∧
        startOf (some z) = (cellOf z >>= fun e => (pure (.given e) : Session ℝ (Start ℝ))) := by
      intro z n hz
      cases z <;> first | exact ⟨rfl, rfl⟩ | exact hz.elim
    rw [hv, (hpresent hscaled.value).2] at hrun
    obtain ⟨cell, m₅, hcell, hrun⟩ := bind_eq_ok_iff.1 hrun
    cases hrun
    obtain ⟨k, htensor⟩ := (cellOf_eq_ok_iff (hpresent hscaled.value).1).1 hcell
    obtain ⟨rfl, -, t', ht', hkind', hshape, hentries⟩ := tensorOf_scaled c' hscaled htensor
    obtain ⟨j, shape', entries'⟩ := t'
    cases hshape
    cases hentries with
    | cons hown hnil =>
      cases hnil
      obtain ⟨x, ⟨-, hx⟩, rfl⟩ := hown
      rw [hy, (hpresent hscaled.numeric).2]
      refine ⟨rfl, .given (.real (x * a)), ?_, fun k' hholds => .given ⟨x, ?_, rfl⟩⟩
      · exact bind_eq_ok_iff.2 ⟨_, m', (cellOf_eq_ok_iff (hpresent hscaled.numeric).1).2 ⟨j, ht'⟩, rfl⟩
      · have hphysical : ((as.get "initial").physical m).entries = [x * a] := by
          rw [← Tensor.numbers_ofNumbers ((as.get "initial").physical m), ← hshows.tensor,
            ← Operand.tensor_of_toTensor hscaled.numeric (tensorOf_eq_ok_iff.1 ht').1]
          rfl
        have hexact := hholds (x * a) (by rw [hphysical]; exact List.mem_singleton_self _)
        rw [mul_div_cancel_right₀ x ha.ne', ← hx] at hexact
        rw [← hx, ← Cell.toNumber_cast_of_holds hexact]
        exact (hg k').cell (cell.kind_cast k')

/-- **A fold** from its start or without, over the cells that it is told to look at. -/
theorem foldOver_scaled (c' : Context ℝ) (h : Alike f c m m₃ m' w as bare bs)
    (hp : .needed "a" .quantity ∈ f.parameters) (hw : ∀ x, w x = a) {into : Option Kind} {r : Tensor ℝ}
    (hrun : foldOver g into bare c m₃ = .ok (r, m₄)) : m₃ = m₄ ∧ r.IsUniform ∧
      ((∀ n ∈ ((as.get "initial").physical m).entries, r.kind.Holds (n / a)) →
        ∃ r', foldOver g none bs c' m' = .ok (r', m') ∧ Tensor.Scaled P a r r') := by
  rw [foldOver_eq] at hrun ⊢
  obtain ⟨t, m₅, ht, hrun⟩ := bind_eq_ok_iff.1 hrun
  obtain ⟨axes, m₆, hpicked, hrun⟩ := bind_eq_ok_iff.1 hrun
  obtain ⟨haxes, rfl⟩ := lift_eq_ok_iff.1 hpicked
  obtain ⟨start, m₇, hstart, hrun⟩ := bind_eq_ok_iff.1 hrun
  obtain ⟨mask, m₈, hmask, hrun⟩ := bind_eq_ok_iff.1 hrun
  obtain ⟨hreduce, rfl⟩ := lift_eq_ok_iff.1 hrun
  obtain ⟨rfl, -, t', ht', hscaled⟩ := tensorOf_scaled c' (hw _ ▸ h.own hp) ht
  obtain ⟨rfl, start', hstart', hrel⟩ := start_scaled hg ha c' h (hw _) hstart
  obtain ⟨hwhere, hsettled⟩ := h.shared "where" rfl
  rw [hwhere] at hmask
  obtain ⟨rfl, hmask'⟩ := maskOf_settled c' hsettled h.grows h.stands.grows hmask
  have huniform : r.IsUniform := by
    -- from what its kind makes of it, a fold can always start
    obtain ⟨own, hown⟩ : ∃ own, Start.Rel (fun e e' => Weighing (P r.kind) a (e.cast r.kind) e') start own := by
      cases start with
      | usual => exact ⟨.usual, .usual⟩
      | first => exact ⟨.first, .first⟩
      | given e => exact ⟨_, .given ⟨_, (hg r.kind).cell (e.kind_cast r.kind), rfl⟩⟩
    obtain ⟨r', -, hresult⟩ := Tensor.reduce_scaled hg ha hscaled hreduce hown
    exact (hresult.uniform fun {k _ _} hc => (hg k).kind hc).1
  refine ⟨rfl, huniform, fun hholds => ?_⟩
  obtain ⟨r', hr', hresult⟩ := Tensor.reduce_scaled hg ha hscaled hreduce (hrel r.kind hholds)
  refine ⟨r', ?_, hresult⟩
  rw [h.get_eq "axis" rfl, hscaled.grid.rank] at haxes
  rw [Arguments.flag, h.get_eq "keepdims" rfl] at hr'
  rw [bind_of_ok ht', bind_of_ok (lift_eq_ok_iff.2 ⟨haxes, rfl⟩), bind_of_ok hstart', bind_of_ok hmask']
  exact lift_eq_ok_iff.2 ⟨hr', rfl⟩

end

/-! ## Running sums, statistics and products -/

section

variable [Numeric.Exact]

/-- **Running sums** along an axis, or over all values in a row. -/
theorem runningSums_scaled (c' : Context ℝ) (h : Alike f c m m₃ m' w as bare bs)
    (hp : .needed "a" .quantity ∈ f.parameters) (hw : 0 < w (as.get "a")) {into : Option Kind} {r : Tensor ℝ}
    (hrun : runningSums into bare c m₃ = .ok (r, m₄)) : m₃ = m₄ ∧
      ∃ r', runningSums none bs c' m' = .ok (r', m') ∧ Tensor.Scaled Cell.Tells (w (as.get "a")) r r' := by
  unfold runningSums at hrun ⊢
  rw [h.get_eq "axis" rfl] at hrun
  obtain ⟨t, m₅, ht, hrun⟩ := bind_eq_ok_iff.1 hrun
  obtain ⟨rfl, -, t', ht', hscaled⟩ := tensorOf_scaled c' (h.own hp) ht
  rw [bind_of_ok ht']
  have hravel : Tensor.Scaled Cell.Equals (w (as.get "a")) ⟨t.kind, t.grid.ravel⟩ ⟨t'.kind, t'.grid.ravel⟩ :=
    ⟨hscaled.kind, hscaled.grid.ravel⟩
  generalize bs.get "axis" = x at hrun ⊢
  split at hrun
  · obtain ⟨hsums, rfl⟩ := lift_eq_ok_iff.1 hrun
    obtain ⟨r', hr', hresult⟩ := Tensor.accumulate_scaled simulates_add hw hravel hsums
    exact ⟨rfl, r', lift_eq_ok_iff.2 ⟨hr', rfl⟩, hresult⟩
  · have hline : Tensor.Scaled Cell.Equals (w (as.get "a"))
        (if t.grid.rank = 0 then ⟨t.kind, t.grid.ravel⟩ else t)
        (if t'.grid.rank = 0 then ⟨t'.kind, t'.grid.ravel⟩ else t') := by
      rw [← hscaled.grid.rank]
      split
      exacts [hravel, hscaled]
    obtain ⟨axis, m₆, hpicked, hrun⟩ := bind_eq_ok_iff.1 hrun
    obtain ⟨haxis, rfl⟩ := lift_eq_ok_iff.1 hpicked
    obtain ⟨hsums, rfl⟩ := lift_eq_ok_iff.1 hrun
    obtain ⟨r', hr', hresult⟩ := Tensor.accumulate_scaled simulates_add hw hline hsums
    rw [hline.grid.rank] at haxis
    exact ⟨rfl, r', bind_eq_ok_iff.2 ⟨axis, m', lift_eq_ok_iff.2 ⟨haxis, rfl⟩, lift_eq_ok_iff.2 ⟨hr', rfl⟩⟩, hresult⟩

/-- **A statistic**, by the factor that belongs to it. -/
theorem statistic_scaled (c' : Context ℝ) (h : Alike f c m m₃ m' w as bare bs)
    (hp : .needed "a" .quantity ∈ f.parameters) (g : Tensor ℝ → List Nat → Bool → Outcome (Tensor ℝ)) {b : ℝ}
    (hg : ∀ {t t' axes keep r}, Tensor.Scaled Cell.Equals (w (as.get "a")) t t' → g t axes keep = .ok r →
      ∃ r', g t' axes keep = .ok r' ∧ Tensor.Scaled Cell.Equals b r r') {r : Tensor ℝ}
    (hrun : statistic g bare c m₃ = .ok (r, m₄)) : m₃ = m₄ ∧
      ∃ r', statistic g bs c' m' = .ok (r', m') ∧ Tensor.Scaled Cell.Equals b r r' := by
  unfold statistic at hrun ⊢
  rw [h.get_eq "axis" rfl, Arguments.flag, h.get_eq "keepdims" rfl] at hrun
  obtain ⟨t, m₅, ht, hrun⟩ := bind_eq_ok_iff.1 hrun
  obtain ⟨rfl, -, t', ht', hscaled⟩ := tensorOf_scaled c' (h.own hp) ht
  obtain ⟨axes, m₆, hpicked, hrun⟩ := bind_eq_ok_iff.1 hrun
  obtain ⟨haxes, rfl⟩ := lift_eq_ok_iff.1 hpicked
  obtain ⟨hresult, rfl⟩ := lift_eq_ok_iff.1 hrun
  obtain ⟨r', hr', hrr'⟩ := hg hscaled hresult
  rw [hscaled.grid.rank] at haxes
  exact ⟨rfl, r', bind_eq_ok_iff.2 ⟨t', m', ht', bind_eq_ok_iff.2 ⟨axes, m', lift_eq_ok_iff.2 ⟨haxes, rfl⟩,
    lift_eq_ok_iff.2 ⟨hr', rfl⟩⟩⟩, hrr'⟩

omit [Numeric.Exact] in
theorem lostFreedom_settled (c' : Context ℝ) (h : Alike f c m m₃ m' w as bare bs) {x : ℝ}
    (hrun : lostFreedom bare c m₃ = .ok (x, m₄)) : m₃ = m₄ ∧ lostFreedom bs c' m' = .ok (x, m') := by
  obtain ⟨hget, hsettled⟩ := h.shared "ddof" rfl
  unfold lostFreedom at hrun ⊢
  rw [hget] at hrun
  generalize bs.get? "ddof" = o at hrun hsettled ⊢
  split at hrun
  · cases hrun
    exact ⟨rfl, rfl⟩
  · next o =>
    have hread := hsettled o rfl
    change (liftM (o.toNumber m₃) : Session ℝ ℝ) c m₃ = _ at hrun
    change _ ∧ (liftM (o.toNumber m') : Session ℝ ℝ) c' m' = _
    obtain ⟨hx, rfl⟩ := lift_eq_ok_iff.1 hrun
    rw [(hread m₃ h.grows).2] at hx
    rw [(hread m' h.stands.grows).2]
    exact ⟨rfl, lift_eq_ok_iff.2 ⟨hx, rfl⟩⟩

/-- **The dot product.** -/
theorem dot_scaled (c' : Context ℝ) (h : Alike .dot c m m₃ m' w as bare bs) (ha : 0 < w (as.get "a"))
    (hb : 0 < w (as.get "b")) {t s r : Tensor ℝ} {m₅ : Store ℝ} (ht : tensorOf (bare.get "a") c m₃ = .ok (t, m₄))
    (hs : tensorOf (bare.get "b") c m₄ = .ok (s, m₅)) (hr : Tensor.dot t s = .ok r) : m₃ = m₅ ∧
      ∃ t' s' r', tensorOf (bs.get "a") c' m' = .ok (t', m') ∧ tensorOf (bs.get "b") c' m' = .ok (s', m') ∧
        Tensor.dot t' s' = .ok r' ∧ Tensor.Scaled Cell.Tells (w (as.get "a") * w (as.get "b")) r r' := by
  obtain ⟨rfl, hfilled, t', ht', hscaled⟩ := tensorOf_scaled c' (h.own (by decide)) ht
  obtain ⟨rfl, hfilled', s', hs', hscaled'⟩ := tensorOf_scaled c' (h.own (by decide)) hs
  obtain ⟨r', hr', hresult⟩ := Tensor.dot_scaled ha hb hscaled hscaled' ⟨hfilled, hfilled'⟩ hr
  exact ⟨rfl, t', s', r', ht', hs', hr', hresult⟩

/-! ## Joints -/

omit [Numeric.Exact] in
theorem mapM_tensorOf_scaled (c' : Context ℝ) {vs ys : List (Operand ℝ)} {a : ℝ}
    (h : List.Forall₂ (fun v y => v.ScaledBy a m₃ m' y) vs ys) {ts : List (Tensor ℝ)}
    (hrun : vs.mapM tensorOf c m₃ = .ok (ts, m₄)) : m₃ = m₄ ∧
      ∃ ts', ys.mapM tensorOf c' m' = .ok (ts', m') ∧ List.Forall₂ (Tensor.Scaled Cell.Equals a) ts ts' := by
  induction h generalizing ts m₄ with
  | nil =>
    cases hrun
    exact ⟨rfl, [], rfl, .nil⟩
  | cons hvy _ ih =>
    rw [List.mapM_cons] at hrun ⊢
    obtain ⟨t, m₅, ht, hrun⟩ := bind_eq_ok_iff.1 hrun
    obtain ⟨ts, m₆, hts, hrun⟩ := bind_eq_ok_iff.1 hrun
    cases hrun
    obtain ⟨rfl, -, t', ht', htt'⟩ := tensorOf_scaled c' hvy ht
    obtain ⟨rfl, ts', hts', hall⟩ := ih hts
    exact ⟨rfl, t' :: ts', by rw [bind_of_ok ht', bind_of_ok hts']; rfl, .cons htt' hall⟩

/-- tensors joined along an axis, or all their values in a row -/
def joinAlong (axis : Option (Operand ℝ)) : List (Tensor ℝ) → Session ℝ (Tensor ℝ)
  | [] => throw (.badValue none)
  | t :: ts =>
    match (axis.getD (.integer 0)).present? with
    | none => joined (t :: ts) fun gs => Grid.concatenate (gs.map Grid.ravel) 0
    | some x =>
      if (t :: ts).any (·.grid.rank = 0) then throw (.badValue none)
      else do
        let a ← Tensor.axisOf t.grid.rank x
        return ← joined (t :: ts) fun gs => Grid.concatenate gs a

omit [Numeric.Exact] in
theorem concatenateArrays_eq {as : Arguments ℝ} {xs : List (Operand ℝ)} (h : as.get "arrays" = .list xs) :
    concatenateArrays as = (do joinAlong (as.get? "axis") (← xs.mapM tensorOf)) := by
  have hlist : (elements (.list xs) : Session ℝ _) = pure xs := rfl
  rw [concatenateArrays, h, hlist, pure_bind]
  refine bind_congr fun ts => ?_
  rcases as.get? "axis" with _ | x <;> cases ts with
  | nil => rfl
  | cons t ts => first
    | rfl
    | cases x with
      | absent => rfl
      | _ =>
        simp only [joinAlong, Option.getD, Operand.present?]
        split <;> rfl

theorem joinAlong_scaled (c' : Context ℝ) (m' : Store ℝ) {axis : Option (Operand ℝ)} {ts ts' : List (Tensor ℝ)} {a : ℝ}
    (h : List.Forall₂ (Tensor.Scaled Cell.Equals a) ts ts') {r : Tensor ℝ}
    (hrun : joinAlong axis ts c m₃ = .ok (r, m₄)) : m₃ = m₄ ∧
      ∃ r', joinAlong axis ts' c' m' = .ok (r', m') ∧ Tensor.Scaled Cell.Equals a r r' := by
  cases h with
  | nil => cases hrun
  | @cons t t' ts ts' htt' hrest =>
    have hall : List.Forall₂ (Tensor.Scaled Cell.Equals a) (t :: ts) (t' :: ts') := .cons htt' hrest
    have hranks : (t' :: ts').any (·.grid.rank = 0) = (t :: ts).any (·.grid.rank = 0) :=
      (any_of_forall₂ hall fun s s' hs => congrArg (fun n => decide (n = 0)) hs.grid.rank).symm
    unfold joinAlong at hrun ⊢
    generalize (axis.getD (.integer 0)).present? = o at hrun ⊢
    cases o with
    | none =>
      obtain ⟨hjoined, rfl⟩ := lift_eq_ok_iff.1 hrun
      obtain ⟨r', hr', hresult⟩ := Tensor.joined_scaled hall (fun hgs _ hz => Grid.Related.concatenate
        (List.forall₂_map_left_iff.2 (List.forall₂_map_right_iff.2 (hgs.imp fun _ _ hg => hg.ravel))) hz) hjoined
      exact ⟨rfl, r', lift_eq_ok_iff.2 ⟨hr', rfl⟩, hresult⟩
    | some x =>
      simp only [hranks] at hrun ⊢
      split at hrun
      · cases hrun
      · next hnone =>
        obtain ⟨i, m₅, hpicked, hrun⟩ := bind_eq_ok_iff.1 hrun
        obtain ⟨hi, rfl⟩ := lift_eq_ok_iff.1 hpicked
        obtain ⟨hjoined, rfl⟩ := lift_eq_ok_iff.1 hrun
        obtain ⟨r', hr', hresult⟩ := Tensor.joined_scaled hall (fun hgs _ hz => Grid.Related.concatenate hgs hz) hjoined
        rw [htt'.grid.rank] at hi
        rw [if_neg hnone]
        exact ⟨rfl, r', bind_eq_ok_iff.2 ⟨i, m', lift_eq_ok_iff.2 ⟨hi, rfl⟩, lift_eq_ok_iff.2 ⟨hr', rfl⟩⟩, hresult⟩

/-- **Arrays one after the other.** -/
theorem concatenateArrays_scaled (c' : Context ℝ) (h : Alike f c m m₃ m' w as bare bs)
    (hp : .needed "arrays" .quantities ∈ f.parameters) {a : ℝ} (hw : ∀ x, w x = a) {r : Tensor ℝ}
    (hrun : concatenateArrays bare c m₃ = .ok (r, m₄)) : m₃ = m₄ ∧
      ∃ r', concatenateArrays bs c' m' = .ok (r', m') ∧ Tensor.Scaled Cell.Equals a r r' := by
  obtain ⟨vs, ys, hvs, hys, hall⟩ := h.arrays hp hw
  rw [concatenateArrays_eq hvs, (h.shared "axis" rfl).1] at hrun
  rw [concatenateArrays_eq hys]
  obtain ⟨ts, m₅, hts, hrun⟩ := bind_eq_ok_iff.1 hrun
  obtain ⟨rfl, ts', hts', hscaled⟩ := mapM_tensorOf_scaled c' hall hts
  obtain ⟨rfl, r', hr', hresult⟩ := joinAlong_scaled c' m' hscaled hrun
  exact ⟨rfl, r', bind_eq_ok_iff.2 ⟨ts', m', hts', hr'⟩, hresult⟩

/-- the new axis that arrays are stacked along -/
def stackAxis (rank : Nat) (o : Option (Operand ℝ)) : Outcome Nat :=
  match (o.getD (.integer 0)).integer? with
  | some n => Grid.axis (rank + 1) n
  | none => .error (.wrongType none)

/-- tensors of one box along a new axis -/
def stackAlong (axis : Option (Operand ℝ)) : List (Tensor ℝ) → Session ℝ (Tensor ℝ)
  | [] => throw (.badValue none)
  | t :: ts => if (t :: ts).any (·.grid.shape ≠ t.grid.shape) then throw (.badValue none) else do
      let a ← stackAxis t.grid.rank axis
      return ← joined (t :: ts) fun gs => Grid.stack gs a

omit [Numeric.Exact] in
theorem stackArrays_eq {as : Arguments ℝ} {xs : List (Operand ℝ)} (h : as.get "arrays" = .list xs) :
    stackArrays as = (do stackAlong (as.get? "axis") (← xs.mapM tensorOf)) := by
  have hlist : (elements (.list xs) : Session ℝ _) = pure xs := rfl
  rw [stackArrays, h, hlist, pure_bind]
  refine bind_congr fun ts => ?_
  cases ts with
  | nil => rfl
  | cons t ts =>
    unfold stackAlong stackAxis
    simp only
    split
    · rfl
    · cases ((as.get? "axis").getD (.integer 0)).integer? <;> rfl

theorem stackAlong_scaled (c' : Context ℝ) (m' : Store ℝ) {axis : Option (Operand ℝ)} {ts ts' : List (Tensor ℝ)} {a : ℝ}
    (h : List.Forall₂ (Tensor.Scaled Cell.Equals a) ts ts') {r : Tensor ℝ}
    (hrun : stackAlong axis ts c m₃ = .ok (r, m₄)) : m₃ = m₄ ∧
      ∃ r', stackAlong axis ts' c' m' = .ok (r', m') ∧ Tensor.Scaled Cell.Equals a r r' := by
  unfold stackAlong at hrun ⊢
  cases h with
  | nil => cases hrun
  | @cons t t' ts ts' htt' hrest =>
    have hall : List.Forall₂ (Tensor.Scaled Cell.Equals a) (t :: ts) (t' :: ts') := .cons htt' hrest
    have hshapes : (t' :: ts').any (·.grid.shape ≠ t'.grid.shape) = (t :: ts).any (·.grid.shape ≠ t.grid.shape) :=
      (any_of_forall₂ hall fun s s' hs => by rw [hs.grid.shape, htt'.grid.shape]).symm
    simp only [hshapes] at hrun ⊢
    split at hrun
    · cases hrun
    · next hsame =>
      obtain ⟨i, m₅, hpicked, hrun⟩ := bind_eq_ok_iff.1 hrun
      obtain ⟨hi, rfl⟩ := lift_eq_ok_iff.1 hpicked
      obtain ⟨hjoined, rfl⟩ := lift_eq_ok_iff.1 hrun
      obtain ⟨r', hr', hresult⟩ := Tensor.joined_scaled hall (fun hgs _ hz => Grid.Related.stack hgs hz) hjoined
      rw [htt'.grid.rank] at hi
      rw [if_neg hsame]
      exact ⟨rfl, r', bind_eq_ok_iff.2 ⟨i, m', lift_eq_ok_iff.2 ⟨hi, rfl⟩, lift_eq_ok_iff.2 ⟨hr', rfl⟩⟩, hresult⟩

/-- **Arrays of one box along a new axis.** -/
theorem stackArrays_scaled (c' : Context ℝ) (h : Alike f c m m₃ m' w as bare bs)
    (hp : .needed "arrays" .quantities ∈ f.parameters) {a : ℝ} (hw : ∀ x, w x = a) {r : Tensor ℝ}
    (hrun : stackArrays bare c m₃ = .ok (r, m₄)) : m₃ = m₄ ∧
      ∃ r', stackArrays bs c' m' = .ok (r', m') ∧ Tensor.Scaled Cell.Equals a r r' := by
  obtain ⟨vs, ys, hvs, hys, hall⟩ := h.arrays hp hw
  rw [stackArrays_eq hvs, (h.shared "axis" rfl).1] at hrun
  rw [stackArrays_eq hys]
  obtain ⟨ts, m₅, hts, hrun⟩ := bind_eq_ok_iff.1 hrun
  obtain ⟨rfl, ts', hts', hscaled⟩ := mapM_tensorOf_scaled c' hall hts
  obtain ⟨rfl, r', hr', hresult⟩ := stackAlong_scaled c' m' hscaled hrun
  exact ⟨rfl, r', bind_eq_ok_iff.2 ⟨ts', m', hts', hr'⟩, hresult⟩

end

end Session

end UnitAlgebra

/-
Offsets in expressions. Products, quotients and powers leave no offset behind, except for the first power, which is the
unit itself. So an expression has an offset only where it is the name of an affine unit, raised to the first power any
number of times or not at all.

Results:
- `evaluate_of_lone`: first powers do nothing.
- `offset_mul`, `offset_div`, `offset_pow`: what is combined has no offset.
- `hasOffset_iff`: which expressions have one.
-/
import UnitAlgebra.Expression.Evaluate
import UnitAlgebra.Proofs.Tensor.Rows

namespace UnitAlgebra

/-! ## Lone names -/

/-- a name, raised to the first power any number of times -/
inductive UnitExpr.Lone (name : String) : UnitExpr → Prop where
  | name : Lone name (.identifier name)
  | first {t : UnitExpr} : Lone name t → Lone name (.pow t 1)

/-- the offset is not zero -/
def UnitMeaning.HasOffset {κ : Type} [Numeric κ] (u : UnitMeaning κ) : Prop := Numeric.isZero u.offset = false

namespace Expression

variable {κ : Type} [Numeric κ] {r : Registry κ} {strict : Bool}

/-- the name is looked up to a unit that is stored with an offset -/
def IsAffineName (r : Registry κ) (name : String) : Prop :=
  ∃ e s, lookupName r name = .ok (some (e, s)) ∧ e.unit.hasOffset = true

/-- First powers do nothing. -/
theorem evaluate_of_lone {name : String} {t : UnitExpr} (h : t.Lone name) :
    evaluate r strict t = resolve r strict name := by
  induction h with
  | name => rfl
  | first _ ih =>
    rw [evaluate, ih]
    cases resolve r strict name <;> rfl

/-! ## Combined units -/

section

variable {u v w : UnitMeaning κ}

theorem offset_mul (h : u.mul v = .ok w) : w.offset = Numeric.zero := by
  obtain ⟨d, -, h⟩ := Outcome.bind_eq_ok_iff.1 h
  obtain ⟨s, -, h⟩ := Outcome.bind_eq_ok_iff.1 h
  cases h
  rfl

theorem offset_div (h : u.div v = .ok w) : w.offset = Numeric.zero := by
  obtain ⟨d, -, h⟩ := Outcome.bind_eq_ok_iff.1 h
  obtain ⟨s, -, h⟩ := Outcome.bind_eq_ok_iff.1 h
  split at h
  · cases h
  · cases h
    rfl

theorem offset_pow {n : Int} (hn : n ≠ 1) (h : u.pow n = .ok w) : w.offset = Numeric.zero := by
  rw [UnitMeaning.pow, if_neg hn] at h
  obtain ⟨d, -, h⟩ := Outcome.bind_eq_ok_iff.1 h
  obtain ⟨s, -, h⟩ := Outcome.bind_eq_ok_iff.1 h
  obtain ⟨x, -, h⟩ := Outcome.bind_eq_ok_iff.1 h
  cases h
  rfl

end

/-! ## Expressions with an offset -/

variable (hzero : Numeric.isZero (Numeric.zero : κ) = true)

include hzero

theorem hasOffset_of_resolve {name : String} {u : UnitMeaning κ} (h : resolve r strict name = .ok u) :
    u.HasOffset ↔ IsAffineName r name := by
  unfold resolve at h
  cases hl : lookupName r name with
  | error fault =>
    rw [hl] at h
    cases h
  | ok found =>
  rw [hl] at h
  obtain _ | ⟨e, s⟩ := found
  · cases h
    refine iff_of_false (fun hoffset => ?_) fun ⟨e, s, hfound, _⟩ => nomatch hl.symm.trans hfound
    cases hzero.symm.trans hoffset
  · change (if strict && !e.unit.isStorage then _ else _) = _ at h
    split at h
    · cases h
    · cases h
      have hunit : (meaningOf e.unit e.family s name).HasOffset ↔ e.unit.hasOffset = true := by
        rw [UnitMeaning.HasOffset, UnitDef.hasOffset, Bool.not_eq_true']
        rfl
      rw [hunit]
      refine ⟨fun hoffset => ⟨e, s, hl, hoffset⟩, ?_⟩
      rintro ⟨e', s', hfound, hoffset⟩
      cases hl.symm.trans hfound
      exact hoffset

/-- **Offsets survive on lone units only.** The unit of an expression has an offset exactly when the expression is the
name of an affine unit, raised to the first power any number of times or not at all. -/
theorem hasOffset_iff {t : UnitExpr} {u : UnitMeaning κ} (h : evaluate r strict t = .ok u) :
    u.HasOffset ↔ ∃ name, t.Lone name ∧ IsAffineName r name := by
  have hnone : ∀ {w : UnitMeaning κ}, w.offset = Numeric.zero → ¬ w.HasOffset := by
    intro w hw hoffset
    rw [UnitMeaning.HasOffset, hw, hzero] at hoffset
    cases hoffset
  induction t generalizing u with
  | identifier name =>
    rw [hasOffset_of_resolve hzero h]
    refine ⟨fun haffine => ⟨name, .name, haffine⟩, ?_⟩
    rintro ⟨_, hlone, haffine⟩
    cases hlone
    exact haffine
  | integer value =>
    obtain ⟨s, -, hs⟩ := Outcome.bind_eq_ok_iff.1 h
    cases hs
    exact iff_of_false (hnone rfl) fun ⟨_, hlone, _⟩ => nomatch hlone
  | mul left right =>
    obtain ⟨v, -, h⟩ := Outcome.bind_eq_ok_iff.1 h
    obtain ⟨w, -, h⟩ := Outcome.bind_eq_ok_iff.1 h
    exact iff_of_false (hnone (offset_mul h)) fun ⟨_, hlone, _⟩ => nomatch hlone
  | div left right =>
    obtain ⟨v, -, h⟩ := Outcome.bind_eq_ok_iff.1 h
    obtain ⟨w, -, h⟩ := Outcome.bind_eq_ok_iff.1 h
    exact iff_of_false (hnone (offset_div h)) fun ⟨_, hlone, _⟩ => nomatch hlone
  | pow base n ih =>
    obtain ⟨v, hv, h⟩ := Outcome.bind_eq_ok_iff.1 h
    by_cases hn : n = 1
    · -- the first power is the unit itself
      subst hn
      cases h
      refine (ih hv).trans (exists_congr fun name => and_congr_left fun _ => ⟨.first, fun hlone => ?_⟩)
      cases hlone with
      | first hbase => exact hbase
    · refine iff_of_false (hnone (offset_pow hn h)) ?_
      rintro ⟨_, hlone, _⟩
      cases hlone
      exact hn rfl

end Expression

end UnitAlgebra

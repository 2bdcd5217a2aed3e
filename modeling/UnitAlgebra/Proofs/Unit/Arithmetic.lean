/-
Products, quotients and powers of units on the exponents. Each wants exact integers for its exponents; it gets them when
they are all in range, and otherwise says whether a dimension or only a scale has overflowed.

Results:
- `Dimension.reaches_mul`, `reaches_div`, `reaches_pow`: a dimension has the exponents wanted, or one of them overflows.
- `Scale.reaches_mul`, `reaches_div`, `reaches_pow`: the same for scales.
- `UnitMeaning.follows_mul`, `follows_div`, `follows_pow`: units combine by their exponents.
-/
import UnitAlgebra.Proofs.Decimal.Finite
import UnitAlgebra.Unit

namespace UnitAlgebra

/-- an integer that an exponent may have -/
def InRange (n : Int) : Prop := n.natAbs ≤ exponentLimit

instance (n : Int) : Decidable (InRange n) := inferInstanceAs (Decidable (_ ≤ _))

theorem exists_exponent_iff {n : Int} : (∃ e, Exponent.ofInt? n = some e) ↔ InRange n := by
  constructor
  · rintro ⟨e, he⟩
    exact Exponent.ofInt?_eq_some_iff.1 he ▸ e.bounded
  · intro h
    exact ⟨⟨n, h⟩, Exponent.ofInt?_eq_some_iff.2 rfl⟩

/-! ## Dimensions -/

namespace Dimension

theorem exists_ofFn?_iff {f : Axis → Option Exponent} : (∃ d, ofFn? f = some d) ↔ ∀ a, ∃ e, f a = some e := by
  constructor
  · rintro ⟨d, hd⟩ a
    exact ⟨d.get a, ofFn?_eq_some_iff.1 hd a⟩
  · intro h
    choose g hg using h
    refine ⟨ofFn g, ofFn?_eq_some_iff.2 fun a => ?_⟩
    rw [hg, get_ofFn]

/-- a dimension with the exponents wanted, or an overflow because one of them is out of range -/
def Reaches (wanted : Axis → Int) : Outcome Dimension → Prop
  | .ok d => ∀ a, (d.get a).val = wanted a
  | .error fault => (∃ a, ¬ InRange (wanted a)) ∧ ∃ cause, fault = .unit (.exponentOverflow cause)

theorem reaches_ofInts (wanted : Axis → Int) (cause : DimensionOverflow) :
    Reaches wanted (match ofFn? fun a => Exponent.ofInt? (wanted a) with
      | some d => .ok d
      | none => .error (.unit (.exponentOverflow cause))) := by
  cases h : ofFn? fun a => Exponent.ofInt? (wanted a) with
  | some d => exact fun a => Exponent.ofInt?_eq_some_iff.1 (ofFn?_eq_some_iff.1 h a)
  | none =>
    refine ⟨?_, cause, rfl⟩
    by_contra hall
    push Not at hall
    obtain ⟨d, hd⟩ := exists_ofFn?_iff.2 fun a => exists_exponent_iff.2 (hall a)
    rw [h] at hd
    cases hd

theorem Reaches.exists_of_inRange {wanted : Axis → Int} {o : Outcome Dimension} (h : Reaches wanted o)
    (hr : ∀ a, InRange (wanted a)) : ∃ d, o = .ok d ∧ ∀ a, (d.get a).val = wanted a := by
  cases o with
  | ok d => exact ⟨d, rfl, h⟩
  | error fault =>
    obtain ⟨⟨a, ha⟩, _⟩ := h
    exact absurd (hr a) ha

theorem Reaches.eq_ok_iff {wanted : Axis → Int} {o : Outcome Dimension} (h : Reaches wanted o) {d : Dimension} :
    o = .ok d ↔ ∀ a, (d.get a).val = wanted a := by
  constructor
  · rintro rfl
    exact h
  · intro hd
    obtain ⟨e, rfl, he⟩ := h.exists_of_inRange fun a => hd a ▸ (d.get a).bounded
    exact congrArg Except.ok (ext_get fun a => Exponent.ext ((he a).trans (hd a).symm))

/-- A product has the sums of the exponents, or one of them overflows. -/
theorem reaches_mul (d e : Dimension) : Reaches (fun a => (d.get a).val + (e.get a).val) (d.mul e) :=
  reaches_ofInts _ _

theorem reaches_div (d e : Dimension) : Reaches (fun a => (d.get a).val - (e.get a).val) (d.div e) := by
  have h := reaches_mul d e.neg
  simp only [get_neg, Exponent.val_neg, ← sub_eq_add_neg] at h
  exact h

theorem reaches_pow (d : Dimension) (n : Int) : Reaches (fun a => n * (d.get a).val) (d.pow n) := by
  have h := reaches_ofInts (fun a => (d.get a).val * n) (.power d (Exponent.decimal n))
  simp only [mul_comm n]
  exact h

end Dimension

/-! ## Scales -/

namespace Scale

theorem exists_ofFn?_iff {f : Base → Option Exponent} : (∃ s, ofFn? f = some s) ↔ ∀ b, ∃ e, f b = some e := by
  constructor
  · rintro ⟨s, hs⟩ b
    exact ⟨s.get b, ofFn?_eq_some_iff.1 hs b⟩
  · intro h
    choose g hg using h
    refine ⟨ofFn g, ofFn?_eq_some_iff.2 fun b => ?_⟩
    rw [hg, get_ofFn]

/-- a scale with the exponents wanted, or an overflow because one of them is out of range -/
def Reaches (wanted : Base → Int) : Outcome Scale → Prop
  | .ok s => ∀ b, (s.get b).val = wanted b
  | .error fault => (∃ b, ¬ InRange (wanted b)) ∧ ∃ cause, fault = .unit (.scaleOverflow cause)

theorem reaches_ofInts (wanted : Base → Int) (cause : ScaleOverflow) :
    Reaches wanted (match ofFn? fun b => Exponent.ofInt? (wanted b) with
      | some s => .ok s
      | none => .error (.unit (.scaleOverflow cause))) := by
  cases h : ofFn? fun b => Exponent.ofInt? (wanted b) with
  | some s => exact fun b => Exponent.ofInt?_eq_some_iff.1 (ofFn?_eq_some_iff.1 h b)
  | none =>
    refine ⟨?_, cause, rfl⟩
    by_contra hall
    push Not at hall
    obtain ⟨s, hs⟩ := exists_ofFn?_iff.2 fun b => exists_exponent_iff.2 (hall b)
    rw [h] at hs
    cases hs

theorem Reaches.exists_of_inRange {wanted : Base → Int} {o : Outcome Scale} (h : Reaches wanted o)
    (hr : ∀ b, InRange (wanted b)) : ∃ s, o = .ok s ∧ ∀ b, (s.get b).val = wanted b := by
  cases o with
  | ok s => exact ⟨s, rfl, h⟩
  | error fault =>
    obtain ⟨⟨b, hb⟩, _⟩ := h
    exact absurd (hr b) hb

theorem Reaches.eq_ok_iff {wanted : Base → Int} {o : Outcome Scale} (h : Reaches wanted o) {s : Scale} :
    o = .ok s ↔ ∀ b, (s.get b).val = wanted b := by
  constructor
  · rintro rfl
    exact h
  · intro hs
    obtain ⟨t, rfl, ht⟩ := h.exists_of_inRange fun b => hs b ▸ (s.get b).bounded
    exact congrArg Except.ok (ext_get fun b => Exponent.ext ((ht b).trans (hs b).symm))

/-- A product has the sums of the exponents, or one of them overflows. -/
theorem reaches_mul (s t : Scale) : Reaches (fun b => (s.get b).val + (t.get b).val) (s.mul t) :=
  reaches_ofInts _ _

theorem reaches_div (s t : Scale) : Reaches (fun b => (s.get b).val - (t.get b).val) (s.div t) := by
  have h := reaches_mul s t.neg
  simp only [get_neg, Exponent.val_neg, ← sub_eq_add_neg] at h
  exact h

theorem reaches_pow (s : Scale) (n : Int) : Reaches (fun b => n * (s.get b).val) (s.pow n) := by
  have h := reaches_ofInts (fun b => (s.get b).val * n) (.power s (Exponent.decimal n))
  simp only [mul_comm n]
  exact h

end Scale

/-! ## Units -/

namespace UnitMeaning

variable {κ : Type}

theorem parts_of_dropText {u v : UnitMeaning κ} (h : u.dropText = v.dropText) :
    u.dimension = v.dimension ∧ u.scale = v.scale ∧ u.factor = v.factor ∧ u.offset = v.offset := by
  simpa [dropText] using h

/-- an outcome that goes by the exponents wanted: a unit that is returned has them; and when nothing but the exponents
counts, a unit is returned exactly when they are in range, and what overflows is told apart -/
structure Follows (dims : Axis → Int) (scales : Base → Int) (exact : Prop) (o : Outcome (UnitMeaning κ)) : Prop where
  exponents : ∀ w, o = .ok w → (∀ a, (w.dimension.get a).val = dims a) ∧ ∀ b, (w.scale.get b).val = scales b
  returns : exact → ((∃ w, o = .ok w) ↔ (∀ a, InRange (dims a)) ∧ ∀ b, InRange (scales b))
  dimensionOverflow : exact → (∃ a, ¬ InRange (dims a)) → ∃ cause, o = .error (.unit (.exponentOverflow cause))
  scaleOverflow : exact → (∀ a, InRange (dims a)) → (∃ b, ¬ InRange (scales b)) →
    ∃ cause, o = .error (.unit (.scaleOverflow cause))

/-- dimensions are combined first, then scales, and then whatever else there is to a unit -/
theorem follows_of_parts {dims : Axis → Int} {scales : Base → Int} {exact : Prop} {dimension : Outcome Dimension}
    {scale : Outcome Scale} {rest : Dimension → Scale → Outcome (UnitMeaning κ)} (hd : Dimension.Reaches dims dimension)
    (hs : Scale.Reaches scales scale) (hr : ∀ d s w, rest d s = .ok w → w.dimension = d ∧ w.scale = s)
    (he : exact → ∀ d s, ∃ w, rest d s = .ok w) :
    Follows dims scales exact (dimension >>= fun d => scale >>= rest d) := by
  cases dimension with
  | error fault =>
    obtain ⟨⟨a, ha⟩, cause, rfl⟩ := hd
    exact ⟨fun _ hw => (nomatch hw), fun _ => ⟨fun ⟨_, hw⟩ => (nomatch hw), fun h => absurd (h.1 a) ha⟩,
      fun _ _ => ⟨cause, rfl⟩, fun _ h => absurd (h a) ha⟩
  | ok d =>
    have hrange : ∀ a, InRange (dims a) := fun a => hd a ▸ (d.get a).bounded
    cases scale with
    | error fault =>
      obtain ⟨⟨b, hb⟩, cause, rfl⟩ := hs
      exact ⟨fun _ hw => (nomatch hw), fun _ => ⟨fun ⟨_, hw⟩ => (nomatch hw), fun h => absurd (h.2 b) hb⟩,
        fun _ ⟨a, ha⟩ => absurd (hrange a) ha, fun _ _ _ => ⟨cause, rfl⟩⟩
    | ok s =>
      have hrange' : ∀ b, InRange (scales b) := fun b => hs b ▸ (s.get b).bounded
      refine ⟨fun w hw => ?_, fun h => ⟨fun _ => ⟨hrange, hrange'⟩, fun _ => he h d s⟩,
        fun _ ⟨a, ha⟩ => absurd (hrange a) ha, fun _ _ ⟨b, hb⟩ => absurd (hrange' b) hb⟩
      obtain ⟨rfl, rfl⟩ := hr d s w hw
      exact ⟨hd, hs⟩

theorem follows_ok {dims : Axis → Int} {scales : Base → Int} {exact : Prop} {u : UnitMeaning κ}
    (hd : ∀ a, (u.dimension.get a).val = dims a) (hs : ∀ b, (u.scale.get b).val = scales b) :
    Follows dims scales exact (.ok u) := by
  have hrange : ∀ a, InRange (dims a) := fun a => hd a ▸ (u.dimension.get a).bounded
  have hrange' : ∀ b, InRange (scales b) := fun b => hs b ▸ (u.scale.get b).bounded
  refine ⟨fun w hw => ?_, fun _ => ⟨fun _ => ⟨hrange, hrange'⟩, fun _ => ⟨u, rfl⟩⟩,
    fun _ ⟨a, ha⟩ => absurd (hrange a) ha, fun _ _ ⟨b, hb⟩ => absurd (hrange' b) hb⟩
  cases hw
  exact ⟨hd, hs⟩

theorem Follows.weaken {dims : Axis → Int} {scales : Base → Int} {exact exact' : Prop} {o : Outcome (UnitMeaning κ)}
    (h : Follows dims scales exact o) (he : exact' → exact) : Follows dims scales exact' o :=
  ⟨h.exponents, fun h' => h.returns (he h'), fun h' => h.dimensionOverflow (he h'), fun h' => h.scaleOverflow (he h')⟩

/-- what keeps the exponents of a unit, and the overflows, keeps to the exponents wanted -/
theorem Follows.map {dims : Axis → Int} {scales : Base → Int} {exact : Prop} {o : Outcome (UnitMeaning κ)}
    (h : Follows dims scales exact o) {f : Fault → Fault} {g : UnitMeaning κ → UnitMeaning κ}
    (hd : ∀ cause, f (.unit (.exponentOverflow cause)) = .unit (.exponentOverflow cause))
    (hs : ∀ cause, f (.unit (.scaleOverflow cause)) = .unit (.scaleOverflow cause))
    (hg : ∀ w, (g w).dimension = w.dimension ∧ (g w).scale = w.scale) :
    Follows dims scales exact ((o.mapError f).map g) := by
  cases o with
  | ok w =>
    have hw := h.exponents w rfl
    refine follows_ok (fun a => ?_) (fun b => ?_)
    · rw [(hg w).1]
      exact hw.1 a
    · rw [(hg w).2]
      exact hw.2 b
  | error fault =>
    refine ⟨fun _ hw => (nomatch hw), fun he => ⟨fun ⟨_, hw⟩ => (nomatch hw), fun hr => ?_⟩, fun he ha => ?_,
      fun he ha hb => ?_⟩
    · obtain ⟨w, hw⟩ := (h.returns he).2 hr
      cases hw
    · obtain ⟨cause, hcause⟩ := h.dimensionOverflow he ha
      cases hcause
      exact ⟨cause, congrArg Except.error (hd cause)⟩
    · obtain ⟨cause, hcause⟩ := h.scaleOverflow he ha hb
      cases hcause
      exact ⟨cause, congrArg Except.error (hs cause)⟩

variable [Numeric κ]

/-- **Products follow the sums.** -/
theorem follows_mul (u v : UnitMeaning κ) (exact : Prop) :
    Follows (fun a => (u.dimension.get a).val + (v.dimension.get a).val)
      (fun b => (u.scale.get b).val + (v.scale.get b).val) exact (u.mul v) := by
  refine follows_of_parts (Dimension.reaches_mul _ _) (Scale.reaches_mul _ _) (fun d s w h => ?_) (fun _ d s => ⟨_, rfl⟩)
  cases h
  exact ⟨rfl, rfl⟩

/-- **Quotients follow the differences**, by a divisor whose factor is not zero. -/
theorem follows_div (u v : UnitMeaning κ) :
    Follows (fun a => (u.dimension.get a).val - (v.dimension.get a).val)
      (fun b => (u.scale.get b).val - (v.scale.get b).val) (Numeric.isZero v.factor = false) (u.div v) := by
  refine follows_of_parts (Dimension.reaches_div _ _) (Scale.reaches_div _ _) (fun d s w h => ?_) (fun h d s => ?_)
  · split at h
    · cases h
    · cases h
      exact ⟨rfl, rfl⟩
  · rw [h]
    exact ⟨_, rfl⟩

/-- **Powers follow the multiples**, when the factor has the power. -/
theorem follows_pow (u : UnitMeaning κ) (n : Int) :
    Follows (fun a => n * (u.dimension.get a).val) (fun b => n * (u.scale.get b).val)
      (∃ x, Numeric.power u.factor n = .ok x) (u.pow n) := by
  unfold pow
  split
  · next hn =>
    subst hn
    exact follows_ok (fun a => (one_mul _).symm) (fun b => (one_mul _).symm)
  · refine follows_of_parts (Dimension.reaches_pow _ _) (Scale.reaches_pow _ _) (fun d s w h => ?_) (fun h d s => ?_)
    · cases hp : Numeric.power u.factor n with
      | error fault => rw [hp] at h; cases h
      | ok x =>
        rw [hp] at h
        cases h
        exact ⟨rfl, rfl⟩
    · obtain ⟨x, hx⟩ := h
      rw [hx]
      exact ⟨_, rfl⟩

end UnitMeaning

end UnitAlgebra

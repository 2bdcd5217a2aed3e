/-
Equality and look-up of single numbers in units. Numbers are compared in the scale that the policy chooses; they are
looked up by the digests of their values in the scale one. Either way takes them there by products that are rounded.

Exact numbers compare equal if they are one physical value, whatever the policy. Floating point numbers do so in the
scale of the comparison alone, which need not be the scale of the look-up, and which the policy of the left hand
chooses anew when the sides are exchanged.

Results:
- `tells_equal`: what equality tells is whether two numbers compare equal in the chosen scale.
- `tells_digest`: what a quantity is looked up by is its number in the scale one.
- `alike_of_equal`: numbers that compare equal have digests that are alike.
- `equal_exact`: exact numbers compare equal if they are one physical value.
- `equal_spec`: when the two sides can be exchanged, and when equal quantities are looked up alike.
-/
import UnitAlgebra.Proofs.Decimal.Comparing
import UnitAlgebra.Proofs.Quantity.Layers
import UnitAlgebra.Proofs.Quantity.Matching
import UnitAlgebra.Proofs.Quantity.Places
import UnitAlgebra.Quantity.Digest

namespace UnitAlgebra

namespace Session

variable {κ : Type} [Numeric κ] {c : Context κ} {m : Store κ}

/-! ## Single numbers -/

/-- how a single number is kept -/
inductive Keeping where
  /-- as a plain number -/
  | plain
  /-- as an item, as it comes out of an array -/
  | item

def Keeping.operand (k : Keeping) (x : κ) : Operand κ :=
  match k with
  | plain => .number x
  | item => .item (.real x)

/-- a single number in a storage unit -/
def Keeping.quantity (k : Keeping) (x : κ) (d : Dimension) (s : Scale) : Operand κ := .quantity ⟨k.operand x, d, s⟩

theorem convert_steps (x : κ) (s t : Scale) :
    Step.convert x (s.steps t) = if s = t then .ok x else (Numeric.ratio s t).map (Numeric.mul x) := by
  unfold Scale.steps
  split
  · rfl
  · change (Step.onNumber x (.move s t) >>= pure) = _
    rw [bind_pure, Step.onNumber]
    cases Numeric.ratio (κ := κ) s t <;> rfl

theorem tells_move (k : Keeping) (x : κ) (s t : Scale) :
    Tells c m (convert (k.operand x) (s.steps t)) (Step.convert x (s.steps t)) k.operand := by
  cases k with
  | plain => exact tells_convert x _
  | item =>
    unfold Scale.steps
    split
    · rfl
    · change (step (.item (.real x)) (.move s t) >>= pure) c m = (Step.onNumber x (.move s t) >>= pure).map _
      simp only [bind_pure, step, Step.onNumber]
      cases Numeric.ratio (κ := κ) s t <;> rfl

theorem equalBare_operand (k l : Keeping) (x y : κ) :
    equalBare (k.operand x) (l.operand y) c m = .ok (.flag (Numeric.eq x y), m) := by
  cases k <;> cases l <;> rfl

/-! ## Equality -/

/-- whether two numbers compare equal once both are in one scale -/
def equalIn (u : Scale) (x y : κ) (s t : Scale) : Outcome Bool := do
  let x ← Step.convert x (s.steps u)
  let y ← Step.convert y (t.steps u)
  return Numeric.eq x y

/-- **What equality tells.** It is whether the numbers compare equal in the scale that the policy chooses. -/
theorem tells_equal {u : Scale} {s t : Scale} (hu : c.policy.resolve? s t = some u) (k l : Keeping) (x y : κ)
    (d : Dimension) :
    Tells c m (operate .eq (k.quantity x d s) (l.quantity y d t)) (equalIn u x y s t) .flag := by
  have hunit : commonUnit c.policy (.plain "__eq__")
      [⟨⟨k.operand x, d, s⟩, false⟩, ⟨⟨l.operand y, d, t⟩, false⟩] = .ok ⟨d, u⟩ := by
    rw [commonUnit_pair, if_pos rfl, ScalePolicy.resolve, hu]
    rfl
  have haligned (k : Keeping) (x : κ) (s : Scale) :
      Tells c m (UnitRule.alignedValue ⟨d, u⟩ ⟨⟨k.operand x, d, s⟩, false⟩) (Step.convert x (s.steps u))
        k.operand := by
    have hmoved : UnitRule.alignedValue ⟨d, u⟩ ⟨⟨k.operand x, d, s⟩, false⟩ = convert (k.operand x) (s.steps u) :=
      if_pos rfl
    rw [hmoved]
    exact tells_move k x s u
  have hequality : Tells c m (equality ⟨k.operand x, d, s⟩ (l.quantity y d t)) (equalIn u x y s t) .flag := by
    refine .bind_ok (a := ⟨⟨l.operand y, d, t⟩, false⟩) rfl ?_
    refine .bind_ok (a := ⟨d, u⟩) ?_ ?_
    · change (liftM (commonUnit c.policy (.plain "__eq__") _) : Session κ StorageUnit) c m = _
      rw [hunit]
      rfl
    · refine (haligned k x s).bind fun x _ => (haligned l y t).bind fun y _ => ?_
      exact equalBare_operand k l x y
  rw [← bind_pure (equalIn u x y s t)]
  exact hequality.bind fun b _ => rfl

/-! ## Exact numbers -/

/-- an exact number taken to a scale is the same physical value there -/
theorem convert_real {x z : ℝ} {s u : Scale} (h : Step.convert x (s.steps u) = .ok z) : z = x * s.real / u.real := by
  rw [convert_steps] at h
  split at h
  · next hs =>
    cases h
    rw [hs, mul_div_cancel_right₀ _ u.real_pos.ne']
  · cases hr : Numeric.ratio (κ := ℝ) s u with
    | error fault =>
      rw [hr] at h
      cases h
    | ok r =>
      rw [hr] at h
      cases h
      rw [Numeric.ratio_eq hr]
      exact (mul_div_assoc x s.real u.real).symm

/-- **Exact equality.** Exact numbers compare equal if they are one physical value, under every policy. -/
theorem equal_exact {c : Context ℝ} {m m' : Store ℝ} (hp : c.policy ≠ .strict) {k l : Keeping} {x y : ℝ}
    {d : Dimension} {s t : Scale} {b : Bool}
    (h : operate .eq (k.quantity x d s) (l.quantity y d t) c m = .ok (.flag b, m')) :
    b = true ↔ x * s.real = y * t.real := by
  obtain ⟨u, hu⟩ := ScalePolicy.exists_resolve? hp s t
  rw [tells_equal hu] at h
  cases hin : equalIn u x y s t with
  | error fault =>
    rw [hin] at h
    cases h
  | ok b' =>
    rw [hin] at h
    cases h
    obtain ⟨z, hz, hrest⟩ := Outcome.bind_eq_ok_iff.1 hin
    obtain ⟨w, hw, hb⟩ := Outcome.bind_eq_ok_iff.1 hrest
    cases hb
    rw [Numeric.Exact.eq, convert_real hz, convert_real hw, div_left_inj' u.real_pos.ne']

end Session

/-! ## Digests -/

namespace Digest

open Binary64

/-- **Digests of numbers.** Numbers that compare equal have digests that are alike. -/
theorem alike_of_equal {x y : Float} (h : (x == y) = true) : (ofFloat x).alike (ofFloat y) = true := by
  have hself {z : Float} (hz : z.isNaN = false) : (ofFloat z).alike (ofFloat z) = true := by
    unfold ofFloat
    simp only [hz, Bool.false_eq_true, if_false]
    split <;> simp [alike]
  rcases eq_or_isNull h with rfl | ⟨hx, hy⟩
  · exact hself (isNaN_of_equal h)
  · have hzero {z : Float} (hz : IsNull z) : ofFloat z = number 0 := by
      obtain ⟨hnan, hinf, hnothing⟩ : z.isNaN = false ∧ z.isInf = false ∧ (quotient z).1 = 0 := by
        rcases isNull_iff.1 hz with rfl | rfl <;> decide +kernel
      unfold ofFloat
      simp only [hnan, hinf, hnothing, Bool.false_eq_true, if_false]
      simp [settled]
    rw [hzero hx, hzero hy]
    rfl

/-- what a number in a dimension is looked up by, once it is in the scale one -/
def inDimension (d : Dimension) (x : Float) : Digest := sequence [ofExponents d.toList, ofFloat x]

theorem alike_inDimension {x y : Float} (h : (x == y) = true) (d : Dimension) :
    (inDimension d x).alike (inDimension d y) = true := by
  have hexponents (es : List Exponent) : alike.alikeAll (es.map fun e => ofInt e.val) (es.map fun e => ofInt e.val) =
      true := by
    induction es with
    | nil => rfl
    | cons e es ih => simpa [alike.alikeAll, alike, ofInt] using ih
  simp [inDimension, alike, alike.alikeAll, ofExponents, hexponents, alike_of_equal h]

end Digest

namespace Session

variable {c : Context Float} {m : Store Float}

/-- **What a quantity is looked up by.** It is its number in the scale one. -/
theorem tells_digest (k : Keeping) (x : Float) (d : Dimension) (s : Scale) :
    Tells c m (Digest.ofOperand (k.quantity x d s)) (Step.convert x (s.steps .one)) (Digest.inDimension d) := by
  unfold Keeping.quantity
  rw [Digest.ofOperand]
  split
  · next hs =>
    subst hs
    cases k <;> rfl
  · rw [← bind_pure (Step.convert x (s.steps .one))]
    refine (tells_move k x s .one).bind fun x _ => ?_
    cases k <;> rfl

/-- both look-ups find digests that are alike, or both are refused for the same -/
def LookedUpAlike (c : Context Float) (m : Store Float) (a b : Operand Float) : Prop :=
  (∃ e f, Digest.ofOperand a c m = .ok (e, m) ∧ Digest.ofOperand b c m = .ok (f, m) ∧ e.alike f = true) ∨
    ∃ fault, Digest.ofOperand a c m = .error fault ∧ Digest.ofOperand b c m = .error fault

/-- numbers whose values in the scale one compare equal are looked up alike -/
theorem lookedUpAlike_of_values {k l : Keeping} {x y z w : Float} {d : Dimension} {s t : Scale}
    (hz : Step.convert x (s.steps .one) = .ok z) (hw : Step.convert y (t.steps .one) = .ok w) (h : (z == w) = true) :
    LookedUpAlike c m (k.quantity x d s) (l.quantity y d t) := by
  refine .inl ⟨Digest.inDimension d z, Digest.inDimension d w, ?_, ?_, Digest.alike_inDimension h d⟩
  · rw [tells_digest, hz]
    rfl
  · rw [tells_digest, hw]
    rfl

theorem lookedUpAlike_of_equal {k l : Keeping} {x y : Float} {d : Dimension} {s : Scale} (h : (x == y) = true)
    (hnumber : ∀ z, Step.convert x (s.steps .one) = .ok z → z.isNaN = false) :
    LookedUpAlike c m (k.quantity x d s) (l.quantity y d s) := by
  by_cases hs : s = .one
  · subst hs
    exact lookedUpAlike_of_values (z := x) (w := y) rfl rfl h
  · have hmoved (z : Float) : Step.convert z (s.steps .one) = (Numeric.ratio s .one).map (Numeric.mul z) := by
      rw [convert_steps, if_neg hs]
    cases hr : Numeric.ratio (κ := Float) s .one with
    | error fault =>
      refine .inr ⟨fault, ?_, ?_⟩
      · rw [tells_digest, hmoved, hr]
        rfl
      · rw [tells_digest, hmoved, hr]
        rfl
    | ok r =>
      have hz : Step.convert x (s.steps .one) = .ok (x * r) := by rw [hmoved, hr]; rfl
      have hw : Step.convert y (s.steps .one) = .ok (y * r) := by rw [hmoved, hr]; rfl
      exact lookedUpAlike_of_values hz hw (Binary64.equal_mul h (hnumber _ hz))

/-! ## Equality and look-up together -/

theorem equalIn_eq_ok_iff {u : Scale} {x y : Float} {s t : Scale} {b : Bool} :
    equalIn u x y s t = .ok b ↔
      ∃ z w, Step.convert x (s.steps u) = .ok z ∧ Step.convert y (t.steps u) = .ok w ∧ (z == w) = b := by
  unfold equalIn
  rw [Outcome.bind_eq_ok_iff]
  refine exists_congr fun z => ?_
  rw [Outcome.bind_eq_ok_iff]
  constructor
  · rintro ⟨hz, w, hw, hb⟩
    exact ⟨w, hz, hw, Except.ok.inj hb⟩
  · rintro ⟨w, hz, hw, hb⟩
    exact ⟨hz, w, hw, congrArg Except.ok hb⟩

theorem equal_eq_ok_iff {u : Scale} {k l : Keeping} {x y : Float} {d : Dimension} {s t : Scale} {v : Operand Float}
    {m' : Store Float} (hu : c.policy.resolve? s t = some u) :
    operate .eq (k.quantity x d s) (l.quantity y d t) c m = .ok (v, m') ↔
      ∃ b, equalIn u x y s t = .ok b ∧ .flag b = v ∧ m = m' := by
  rw [tells_equal hu]
  cases equalIn u x y s t with
  | error fault =>
    constructor
    · intro h
      cases h
    · rintro ⟨b, hb, -⟩
      cases hb
  | ok b =>
    constructor
    · intro h
      cases h
      exact ⟨b, rfl, rfl, rfl⟩
    · rintro ⟨b', hb, rfl, rfl⟩
      cases hb
      rfl

/-- **Equality and look-up.** Under every policy but the strict one, equality tells whether two numbers compare equal in
the chosen scale, and either is looked up by its number in the scale one. Exchanging the sides changes no answer, as
long as the left hand does not choose between different scales; and quantities that compare equal are looked up alike
if they are of one scale, or are compared in the scale one. -/
theorem equal_spec (hp : c.policy ≠ .strict) (k l : Keeping) (x y : Float) (d : Dimension) (s t : Scale) :
    ∃ u, c.policy.resolve? s t = some u ∧
      Tells c m (operate .eq (k.quantity x d s) (l.quantity y d t)) (equalIn u x y s t) .flag ∧
      Tells c m (Digest.ofOperand (k.quantity x d s)) (Step.convert x (s.steps .one)) (Digest.inDimension d) ∧
      ((c.policy = .leftHandWins → s = t) → ∀ v m',
        operate .eq (k.quantity x d s) (l.quantity y d t) c m = .ok (v, m') ↔
          operate .eq (l.quantity y d t) (k.quantity x d s) c m = .ok (v, m')) ∧
      (s = t ∨ u = .one → (∀ z, Step.convert x (s.steps .one) = .ok z → z.isNaN = false) →
        operate .eq (k.quantity x d s) (l.quantity y d t) c m = .ok (.flag true, m) →
          LookedUpAlike c m (k.quantity x d s) (l.quantity y d t)) := by
  obtain ⟨u, hu⟩ := ScalePolicy.exists_resolve? hp s t
  refine ⟨u, hu, tells_equal hu k l x y d, tells_digest k x d s, fun hleft v m' => ?_, fun hscale hnumber h => ?_⟩
  · have hu' : c.policy.resolve? t s = some u := (ScalePolicy.resolve?_comm hleft).symm.trans hu
    rw [equal_eq_ok_iff hu, equal_eq_ok_iff hu']
    refine exists_congr fun b => and_congr_left fun _ => ?_
    rw [equalIn_eq_ok_iff, equalIn_eq_ok_iff]
    constructor
    · rintro ⟨z, w, hz, hw, hb⟩
      exact ⟨w, z, hw, hz, (Binary64.equal_comm w z).trans hb⟩
    · rintro ⟨w, z, hw, hz, hb⟩
      exact ⟨z, w, hz, hw, (Binary64.equal_comm z w).trans hb⟩
  · obtain ⟨b, hb, htrue, -⟩ := (equal_eq_ok_iff hu).1 h
    cases htrue
    obtain ⟨z, w, hz, hw, hzw⟩ := equalIn_eq_ok_iff.1 hb
    rcases hscale with rfl | rfl
    · obtain rfl : s = u := Option.some.inj ((ScalePolicy.resolve_same _ s).symm.trans hu)
      rw [convert_steps, if_pos rfl] at hz hw
      cases hz
      cases hw
      exact lookedUpAlike_of_equal hzw hnumber
    · exact lookedUpAlike_of_values hz hw hzw

/-- a length in meters, and one in millimeters -/
def inMeters (x : Float) : Operand Float := Keeping.plain.quantity x { length := 1 } .one

def inMillimeters (x : Float) : Operand Float := Keeping.plain.quantity x { length := 1 } (.ten (-3))

/-- five meters are 5000 millimeters, compared and looked up in meters -/
theorem equal_spec_meters :
    operate .eq (inMeters 5.0) (inMillimeters 5000.0) (underPolicy .largerWins) .empty = .ok (.flag true, .empty) ∧
      operate .eq (inMillimeters 5000.0) (inMeters 5.0) (underPolicy .largerWins) .empty =
        .ok (.flag true, .empty) ∧
      LookedUpAlike (underPolicy .largerWins) .empty (inMeters 5.0) (inMillimeters 5000.0) := by
  obtain ⟨u, hu, -, -, hsides, halike⟩ := equal_spec (c := underPolicy .largerWins) (m := .empty) (by decide) .plain
    .plain 5.0 5000.0 { length := 1 } .one (.ten (-3))
  have hequal : operate .eq (inMeters 5.0) (inMillimeters 5000.0) (underPolicy .largerWins) .empty =
    .ok (.flag true, .empty) := rfl
  obtain rfl : Scale.one = u := Option.some.inj (Eq.trans (by decide) hu)
  refine ⟨hequal, (hsides (by decide) _ _).1 hequal, halike (.inr rfl) (fun z hz => ?_) hequal⟩
  cases hz
  rfl

/-- 350 millimeters compare equal to 0.35 meters, in millimeters, but are looked up elsewhere: in meters their product
is the next number above. Where the left hand chooses, 9 millimeters do not compare equal to the number above 0.009
meters, which compares equal to 9 millimeters. -/
theorem equal_not_alike :
    (operate .eq (inMillimeters 350.0) (inMeters 0.35) (underPolicy .smallerWins) .empty = .ok (.flag true, .empty) ∧
      ¬LookedUpAlike (underPolicy .smallerWins) .empty (inMillimeters 350.0) (inMeters 0.35)) ∧
    operate .eq (inMillimeters 9.0) (inMeters 0.009000000000000001) (underPolicy .leftHandWins) .empty =
      .ok (.flag false, .empty) ∧
    operate .eq (inMeters 0.009000000000000001) (inMillimeters 9.0) (underPolicy .leftHandWins) .empty =
      .ok (.flag true, .empty) := by
  refine ⟨⟨rfl, ?_⟩, rfl, rfl⟩
  have hmillimeters : Digest.ofOperand (inMillimeters 350.0) (underPolicy .smallerWins) .empty =
      .ok (Digest.inDimension { length := 1 } 0.35000000000000003, .empty) := by
    have hmoved : Step.convert 350.0 ((Scale.ten (-3)).steps .one) = .ok (0.35000000000000003 : Float) := rfl
    rw [inMillimeters, tells_digest, hmoved]
    rfl
  have hmeters : Digest.ofOperand (inMeters 0.35) (underPolicy .smallerWins) .empty =
      .ok (Digest.inDimension { length := 1 } 0.35, .empty) := by
    have hmoved : Step.convert 0.35 (Scale.one.steps .one) = .ok (0.35 : Float) := rfl
    rw [inMeters, tells_digest, hmoved]
    rfl
  rintro (⟨e, f, he, hf, hlike⟩ | ⟨fault, hfault, -⟩)
  · rw [hmillimeters] at he
    rw [hmeters] at hf
    cases he
    cases hf
    exact absurd hlike (by decide +kernel)
  · rw [hmillimeters] at hfault
    cases hfault

end Session

end UnitAlgebra

/-
Units by other units. The catalog gives every unit a scale and a factor of its own; that a turn has 360 degrees and an
hour 60 minutes is nowhere said, and follows from the constants or does not. Over exact numbers it is settled here what
follows, in every power, and for products and quotients of units.

Not all that follows is what the units are taken for. By the constants of the catalog a turn has 240 gradians, a degree
20 arcminutes, an arcminute 4 arcseconds, an acre 4356 square feet, and a foot pound is ten times that of mechanics.

Results:
- `gives_symbol`: what a symbol of the catalog measures.
- `Identity.Holds.converts`: an identity among units converts in every power of up to a hundred.
- `holds`: the identities that the constants make true.
- `definitions_spec`: these in every power, and in all products and quotients of units.
- `definitions_missed`: the customary ones that the constants make false.
-/
import UnitAlgebra.Proofs.Catalog.Orderly
import UnitAlgebra.Proofs.Conversion.Sizes
import UnitAlgebra.Proofs.Expression.Printing

namespace UnitAlgebra.Catalog

open Expression Registry UnitMeaning

/-! ## Trees of units -/

/-- the catalog over exact numbers -/
noncomputable def exactly : Registry ℝ := registryOver ℝ

/-- a tree evaluates to a unit with the exponents and the size given -/
def Gives (t : UnitExpr) (d : Axis → ℤ) (s : Base → ℤ) (x : ℝ) : Prop :=
  ∃ u, evaluate exactly false t = .ok u ∧ u.Parts d s x

variable {p q : UnitExpr} {d e : Axis → ℤ} {s t : Base → ℤ} {x y : ℝ}

theorem Gives.mul (hp : Gives p d s x) (hq : Gives q e t y) (hd : ∀ a, InRange (d a + e a))
    (hs : ∀ b, InRange (s b + t b)) : Gives (.mul p q) (fun a => d a + e a) (fun b => s b + t b) (x * y) := by
  obtain ⟨u, hu, hup⟩ := hp
  obtain ⟨v, hv, hvp⟩ := hq
  obtain ⟨w, hw, hwp⟩ := exists_mul hup hvp hd hs
  refine ⟨w, ?_, hwp⟩
  rw [evaluate, hu, hv]
  exact hw

theorem Gives.div (hp : Gives p d s x) (hq : Gives q e t y) (hd : ∀ a, InRange (d a - e a))
    (hs : ∀ b, InRange (s b - t b)) : Gives (.div p q) (fun a => d a - e a) (fun b => s b - t b) (x / y) := by
  obtain ⟨u, hu, hup⟩ := hp
  obtain ⟨v, hv, hvp⟩ := hq
  obtain ⟨w, hw, hwp⟩ := exists_div hup hvp hd hs
  refine ⟨w, ?_, hwp⟩
  rw [evaluate, hu, hv]
  exact hw

theorem Gives.pow (hp : Gives p d s x) {n : ℤ} (hd : ∀ a, InRange (n * d a)) (hs : ∀ b, InRange (n * s b)) :
    Gives (.pow p n) (fun a => n * d a) (fun b => n * s b) (x ^ n) := by
  obtain ⟨u, hu, hup⟩ := hp
  obtain ⟨w, hw, hwp⟩ := exists_pow hup hd hs
  refine ⟨w, ?_, hwp⟩
  rw [evaluate, hu]
  exact hw

/-- What a symbol of the catalog measures. -/
theorem gives_symbol {symbol : String} {e : Entry ℝ}
    (h : (symbolListing (families : List (UnitFamily ℝ))).find? symbol = some e) (ho : e.unit.offset = 0)
    (hf : 0 < e.unit.factor) :
    Gives (.identifier symbol) (fun a => (e.family.dimension.get a).val) (fun b => (e.unit.scale.get b).val)
      (e.unit.factor * e.unit.scale.real) := by
  have hfind : exactly.find? symbol = some e := by
    refine find?_symbol ?_
    rw [exactly, registryOver, (builtFrom_folded families prefixes allowed aliases).symbols, h]
  exact ⟨_, resolve_of_find? hfind, fun _ => rfl, fun _ => rfl, ⟨ho, hf⟩, rfl⟩

/-! ## Identities -/

/-- so many of another unit as one of a unit -/
structure Identity where
  unit : String
  ratio : ℚ
  meaning : UnitExpr

namespace Identity

/-- both sides of an identity in a power -/
def source (i : Identity) (k : ℤ) : UnitExpr := .pow (.identifier i.unit) k

def target (i : Identity) (k : ℤ) : UnitExpr := .pow i.meaning k

/-- exponents whose multiples by up to a hundred may be subtracted from each other -/
def exponentBound : ℕ := 163

/-- an identity that is true by the constants -/
structure Holds (i : Identity) (d : Axis → ℤ) (s t : Base → ℤ) (y : ℝ) : Prop where
  positive : 0 < i.ratio
  unit : Gives (.identifier i.unit) d s (i.ratio * y)
  meaning : Gives i.meaning d t y
  printable : Printable (.identifier i.unit) ∧ Printable i.meaning
  dimension : ∀ a, (d a).natAbs ≤ exponentBound
  scales : ∀ b, (s b).natAbs ≤ exponentBound ∧ (t b).natAbs ≤ exponentBound

theorem inRange_multiple {k n : ℤ} (hk : k.natAbs ≤ 100) (hn : n.natAbs ≤ exponentBound) : InRange (k * n) := by
  change (k * n).natAbs ≤ 32767
  rw [Int.natAbs_mul]
  exact (Nat.mul_le_mul hk hn).trans (by decide)

theorem inRange_difference {k m n : ℤ} (hk : k.natAbs ≤ 100) (hm : m.natAbs ≤ exponentBound)
    (hn : n.natAbs ≤ exponentBound) : InRange (k * m - k * n) := by
  change (k * m - k * n).natAbs ≤ 32767
  have hdifference : (m - n).natAbs ≤ 2 * exponentBound := by omega
  rw [← mul_sub, Int.natAbs_mul]
  exact (Nat.mul_le_mul hk hdifference).trans (by decide)

theorem writable {k : ℤ} (hk : k.natAbs ≤ 100) : Writable k := by
  have hdigits : (Nat.toDigits 10 k.natAbs).length ≤ 3 :=
    (Nat.length_toDigits_le_iff (by decide) (by decide)).2 (Nat.lt_of_le_of_lt hk (by decide))
  exact hdigits.trans (by decide)

theorem unitLike_text (text : String) (c : Context ℝ) (m : Store ℝ) :
    Session.unitLike (.text text) c m = (evaluateText c.registry false text).map fun u => (u, m) := by
  change (liftM (evaluateText c.registry false text) : Session ℝ _) c m = _
  cases evaluateText c.registry false text <;> rfl

/-- a number of one unit, written as an expression, as a number of another -/
noncomputable def conversion (x : ℝ) (source target : UnitExpr) : Session ℝ (Operand ℝ) := do
  let u ← Session.unitLike (.text source.text)
  let v ← Session.unitLike (.text target.text)
  Session.rescale (.number x) u v

/-- a conversion between powers goes by the units that they evaluate to -/
theorem conversion_pow {p q : UnitExpr} {k : ℤ} {u v : UnitMeaning ℝ} (hp : Printable (.pow p k))
    (hq : Printable (.pow q k)) (hu : evaluate exactly false (.pow p k) = .ok u)
    (hv : evaluate exactly false (.pow q k) = .ok v) (x : ℝ) (policy : ScalePolicy) (m : Store ℝ) :
    conversion x (.pow p k) (.pow q k) ⟨policy, exactly⟩ m = Session.given m (UnitMeaning.rescale x u v) := by
  have hsource : Session.unitLike (.text (UnitExpr.pow p k).text) ⟨policy, exactly⟩ m =
      .ok ({ u with text := some (Text.trimmed (UnitExpr.pow p k).text) }, m) := by
    rw [unitLike_text, evaluateText_text hp, hu]
    rfl
  have htarget : Session.unitLike (.text (UnitExpr.pow q k).text) ⟨policy, exactly⟩ m =
      .ok ({ v with text := some (Text.trimmed (UnitExpr.pow q k).text) }, m) := by
    rw [unitLike_text, evaluateText_text hq, hv]
    rfl
  unfold conversion
  rw [Session.bind_of_ok hsource, Session.bind_of_ok htarget, Session.rescale_number]
  rfl

/-- **Identities in powers.** An identity among units converts in every power of up to a hundred. -/
theorem Holds.converts {i : Identity} (h : i.Holds d s t y) {k : ℤ} (hk : k.natAbs ≤ 100) (x : ℝ) (policy : ScalePolicy)
    (m : Store ℝ) :
    conversion x (i.source k) (i.target k) ⟨policy, exactly⟩ m = .ok (.number (x * (i.ratio : ℝ) ^ k), m) := by
  have hd (a : Axis) : InRange (k * d a) := inRange_multiple hk (h.dimension a)
  obtain ⟨u, hu, hup⟩ := h.unit.pow hd fun b => inRange_multiple hk (h.scales b).1
  obtain ⟨v, hv, hvp⟩ := h.meaning.pow hd fun b => inRange_multiple hk (h.scales b).2
  have hdimension : u.dimension = v.dimension := Dimension.ext_get fun a => Exponent.ext <| by
    rw [hup.dimension, hvp.dimension]
  have hwithin : Within u v := within_of_gap hvp.linear hdimension fun b => by
    rw [hup.scale, hvp.scale]
    exact inRange_difference hk (h.scales b).1 (h.scales b).2
  have hy : y ≠ 0 := by
    obtain ⟨w, -, hw⟩ := h.meaning
    exact hw.size ▸ hw.linear.size_pos.ne'
  have hratio : u.size / v.size = (i.ratio : ℝ) ^ k := by
    rw [hup.size, hvp.size, mul_zpow]
    exact mul_div_cancel_right₀ _ (zpow_ne_zero k hy)
  rw [source, target, conversion_pow ⟨h.printable.1, writable hk⟩ ⟨h.printable.2, writable hk⟩ hu hv,
    rescale_linear hup.linear hvp.linear hdimension hwithin, hratio]
  rfl

end Identity

/-! ## The constants of the catalog -/

theorem ofDecimal_real (n e : ℤ) : (Numeric.ofDecimal n e : ℝ) = n * 10 ^ e := rfl

theorem val_ofNat {n : ℕ} (h : n ≤ exponentLimit) : (ofNat(n) : Exponent).val = ofNat(n) := by
  change (Exponent.saturated n).val = n
  rw [Exponent.saturated, dif_pos (by simpa using h)]

/-- the size of a unit by its factor and its four exponents -/
theorem real_mk (two three five pi : Exponent) :
    (⟨two, three, five, pi⟩ : Scale).real = 2 ^ two.val * 3 ^ three.val * 5 ^ five.val * Real.pi ^ pi.val := by
  simp [Scale.real, Base.all, Base.real, Scale.get, mul_assoc]

/-- angles, whose scales hold all of them -/
def angles : List Identity := [
  ⟨"turn", 360, .identifier "deg"⟩,
  ⟨"turn", 240, .identifier "grad"⟩,
  ⟨"deg", 20, .identifier "arcmin"⟩,
  ⟨"arcmin", 4, .identifier "arcsec"⟩]

/-- units that are so many of another -/
def multiples : List Identity := [
  ⟨"mi", 5280, .identifier "ft"⟩,
  ⟨"yd", 3, .identifier "ft"⟩,
  ⟨"ft", 12, .identifier "in"⟩,
  ⟨"gal", 4, .identifier "qrt"⟩,
  ⟨"qrt", 2, .identifier "pnt"⟩,
  ⟨"lb", 16, .identifier "oz"⟩,
  ⟨"st", 14, .identifier "lb"⟩,
  ⟨"wk", 7, .identifier "d"⟩,
  ⟨"d", 24, .identifier "h"⟩,
  ⟨"h", 60, .identifier "min"⟩,
  ⟨"kWh", 3600000, .identifier "J"⟩]

def squareFeet : UnitExpr := .pow (.identifier "ft") 2

/-- a foot and a pound, with the unit of acceleration for gravity -/
def footPounds : UnitExpr :=
  .div (.mul (.mul (.identifier "ft") (.identifier "lb")) (.identifier "m")) (.pow (.identifier "s") 2)

/-- units that are so many of a compound one -/
def compounds : List Identity := [⟨"acre", 4356, squareFeet⟩, ⟨"ft_lb", 98.0665, footPounds⟩]

/-- The identities that the constants make true. -/
def identities : List Identity := angles ++ multiples ++ compounds

/-- one unit is so many of another -/
theorem holds_symbols {a b : String} {r : ℚ} {e f : Entry ℝ}
    (ha : (symbolListing (families : List (UnitFamily ℝ))).find? a = some e)
    (hb : (symbolListing (families : List (UnitFamily ℝ))).find? b = some f) (hr : 0 < r)
    (hd : e.family.dimension = f.family.dimension) (ho : e.unit.offset = 0 ∧ f.unit.offset = 0)
    (hf : 0 < e.unit.factor ∧ 0 < f.unit.factor) (hp : Printable (.identifier a) ∧ Printable (.identifier b))
    (hsize : e.unit.factor * e.unit.scale.real = r * (f.unit.factor * f.unit.scale.real))
    (hdim : ∀ a, (e.family.dimension.get a).val.natAbs ≤ Identity.exponentBound)
    (hscale : ∀ b, (e.unit.scale.get b).val.natAbs ≤ Identity.exponentBound ∧
      (f.unit.scale.get b).val.natAbs ≤ Identity.exponentBound) :
    ∃ d s t y, (⟨a, r, .identifier b⟩ : Identity).Holds d s t y := by
  refine ⟨_, _, _, f.unit.factor * f.unit.scale.real, hr, ?_, ?_, hp, hdim, hscale⟩
  · exact hsize ▸ gives_symbol ha ho.1 hf.1
  · exact hd ▸ gives_symbol hb ho.2 hf.2

theorem holds_angles : ∀ i ∈ angles, ∃ d s t y, i.Holds d s t y := by
  simp only [angles, List.forall_mem_cons]
  refine ⟨?_, ?_, ?_, ?_, nofun⟩
  all_goals
    refine holds_symbols rfl rfl (by norm_num) rfl ⟨Numeric.Exact.zero, Numeric.Exact.zero⟩ ?_ (by decide) ?_
      (fun a => by cases a <;> decide) (fun b => by cases b <;> decide)
    · simp only [exact, spelled, Numeric.Exact.one, zero_lt_one, and_self]
    · simp (disch := decide) only [exact, spelled, Numeric.Exact.one, real_mk, Exponent.val_neg, val_ofNat]
      norm_num
      ring

theorem holds_multiples : ∀ i ∈ multiples, ∃ d s t y, i.Holds d s t y := by
  simp only [multiples, List.forall_mem_cons]
  refine ⟨?_, ?_, ?_, ?_, ?_, ?_, ?_, ?_, ?_, ?_, ?_, nofun⟩
  all_goals
    refine holds_symbols rfl rfl (by norm_num) rfl ⟨Numeric.Exact.zero, Numeric.Exact.zero⟩ ?_ (by decide) ?_
      (fun a => by cases a <;> decide) (fun b => by cases b <;> decide)
    all_goals
      simp (disch := decide) only [exact, spelled, measured, Scale.ten, Scale.one, OfScientific.ofScientific,
        ofDecimal_real, Numeric.Exact.one, real_mk, Exponent.val_neg, val_ofNat]
      norm_num

/-- the same exponents and the same size, told in another way -/
theorem Gives.of_eq (h : Gives p d s x) (hd : ∀ a, d a = e a) (hs : ∀ b, s b = t b) (hx : x = y) : Gives p e t y := by
  obtain ⟨u, hu, hup⟩ := h
  exact ⟨u, hu, fun a => (hup.dimension a).trans (hd a), fun b => (hup.scale b).trans (hs b), hup.linear,
    hup.size.trans hx⟩

theorem gives_of_symbol {symbol : String} {e : Entry ℝ} {d : Dimension} {s : Scale}
    (h : (symbolListing (families : List (UnitFamily ℝ))).find? symbol = some e) (ho : e.unit.offset = 0)
    (hd : e.family.dimension = d) (hs : e.unit.scale = s) (hf : 0 < e.unit.factor)
    (hx : e.unit.factor * e.unit.scale.real = x) :
    Gives (.identifier symbol) (fun a => (d.get a).val) (fun b => (s.get b).val) x :=
  (gives_symbol h ho hf).of_eq (fun a => by rw [hd]) (fun b => by rw [hs]) hx

theorem gives_ft : Gives (.identifier "ft") (fun a => (({ length := 1 } : Dimension).get a).val)
    (fun b => ((Scale.ten (-1)).get b).val) 0.3048 := by
  refine gives_of_symbol rfl Numeric.Exact.zero rfl rfl ?_ ?_
  all_goals
    simp (disch := decide) only [measured, Scale.ten, OfScientific.ofScientific, ofDecimal_real, real_mk,
      Exponent.val_neg, val_ofNat]
    norm_num

theorem gives_lb : Gives (.identifier "lb") (fun a => (({ mass := 1 } : Dimension).get a).val)
    (fun b => (Scale.one.get b).val) 0.45359237 := by
  refine gives_of_symbol rfl Numeric.Exact.zero rfl rfl ?_ ?_
  all_goals
    simp only [measured, Scale.real_one, OfScientific.ofScientific, ofDecimal_real]
    norm_num

theorem gives_m : Gives (.identifier "m") (fun a => (({ length := 1 } : Dimension).get a).val)
    (fun b => (Scale.one.get b).val) 1 := by
  refine gives_of_symbol rfl Numeric.Exact.zero rfl rfl ?_ ?_
  all_goals simp [exact, Scale.real_one, Numeric.Exact.one]

theorem gives_s : Gives (.identifier "s") (fun a => (({ time := 1 } : Dimension).get a).val)
    (fun b => (Scale.one.get b).val) 1 := by
  refine gives_of_symbol rfl Numeric.Exact.zero rfl rfl ?_ ?_
  all_goals simp [exact, Scale.real_one, Numeric.Exact.one]

theorem gives_squareFeet : Gives squareFeet (fun a => 2 * (({ length := 1 } : Dimension).get a).val)
    (fun b => 2 * ((Scale.ten (-1)).get b).val) (0.3048 ^ (2 : ℤ)) :=
  gives_ft.pow (fun a => by cases a <;> decide) (fun b => by cases b <;> decide)

theorem holds_acre : ∃ d s t y, (⟨"acre", 4356, squareFeet⟩ : Identity).Holds d s t y := by
  refine ⟨_, fun b => ((Scale.ten 3).get b).val, _, _, by norm_num, ?_, gives_squareFeet, by decide,
    fun a => by cases a <;> decide, fun b => by cases b <;> decide⟩
  have hacre : Gives (.identifier "acre") (fun a => (({ length := 2 } : Dimension).get a).val)
      (fun b => ((Scale.ten 3).get b).val) 404.68564224 := by
    refine gives_of_symbol rfl Numeric.Exact.zero rfl rfl ?_ ?_
    all_goals
      simp (disch := decide) only [measured, Scale.ten, OfScientific.ofScientific, ofDecimal_real, real_mk, val_ofNat]
      norm_num
  exact hacre.of_eq (fun a => by cases a <;> rfl) (fun _ => rfl) (by norm_num)

theorem holds_ft_lb : ∃ d s t y, (⟨"ft_lb", 98.0665, footPounds⟩ : Identity).Holds d s t y := by
  have hproduct := (gives_ft.mul gives_lb (fun a => by cases a <;> decide) (fun b => by cases b <;> decide)).mul gives_m
    (fun a => by cases a <;> decide) (fun b => by cases b <;> decide)
  have hsquare := gives_s.pow (n := 2) (fun a => by cases a <;> decide) (fun b => by cases b <;> decide)
  have hmeaning := hproduct.div hsquare (fun a => by cases a <;> decide) (fun b => by cases b <;> decide)
  refine ⟨_, fun b => ((Scale.ten 1).get b).val, _, _, by norm_num, ?_, hmeaning, by decide,
    fun a => by cases a <;> decide, fun b => by cases b <;> decide⟩
  have hunit : Gives (.identifier "ft_lb") (fun a => (({ mass := 1, length := 2, time := -2 } : Dimension).get a).val)
      (fun b => ((Scale.ten 1).get b).val) 13.558179483314004 := by
    refine gives_of_symbol rfl Numeric.Exact.zero rfl rfl ?_ ?_
    all_goals
      simp (disch := decide) only [measured, Scale.ten, OfScientific.ofScientific, ofDecimal_real, real_mk, val_ofNat]
      norm_num
  exact hunit.of_eq (fun a => by cases a <;> rfl) (fun _ => rfl) (by norm_num)

/-- **The identities of the catalog.** -/
theorem holds : ∀ i ∈ identities, ∃ d s t y, i.Holds d s t y := by
  intro i hi
  rcases List.mem_append.1 hi with hi | hi
  · rcases List.mem_append.1 hi with hi | hi
    · exact holds_angles i hi
    · exact holds_multiples i hi
  · rcases List.mem_cons.1 hi with rfl | hi
    · exact holds_acre
    · cases List.mem_singleton.1 hi
      exact holds_ft_lb

/-! ## Products and quotients -/

/-- a tree put another way: units for what they are so many of, in products, quotients and powers -/
inductive Restates : UnitExpr → UnitExpr → ℝ → Prop
  | same {p : UnitExpr} (h : ∀ u, evaluate exactly false p = .ok u → u.IsLinear) : Restates p p 1
  | identity {i : Identity} (h : i ∈ identities) : Restates (.identifier i.unit) i.meaning i.ratio
  | back {p q : UnitExpr} {r : ℝ} (h : Restates p q r) : Restates q p r⁻¹
  | mul {p q p' q' : UnitExpr} {r r' : ℝ} (h : Restates p q r) (h' : Restates p' q' r') :
    Restates (.mul p p') (.mul q q') (r * r')
  | div {p q p' q' : UnitExpr} {r r' : ℝ} (h : Restates p q r) (h' : Restates p' q' r') :
    Restates (.div p p') (.div q q') (r / r')
  | pow {p q : UnitExpr} {r : ℝ} (h : Restates p q r) (n : ℤ) : Restates (.pow p n) (.pow q n) (r ^ n)

/-- units of one dimension, of which one is so many of the other -/
structure Multiple (u v : UnitMeaning ℝ) (r : ℝ) : Prop where
  source : u.IsLinear
  target : v.IsLinear
  dimension : u.dimension = v.dimension
  size : u.size = r * v.size

theorem dimension_eq {u v : UnitMeaning ℝ} (hu : u.Parts d s x) (hv : v.Parts e t y) (h : ∀ a, d a = e a) :
    u.dimension = v.dimension :=
  Dimension.ext_get fun a => Exponent.ext <| by rw [hu.dimension, hv.dimension, h]

theorem Multiple.exponents {u v : UnitMeaning ℝ} {r : ℝ} (h : Multiple u v r) (a : Axis) :
    (u.dimension.get a).val = (v.dimension.get a).val := by rw [h.dimension]

/-- **Trees put another way.** They measure so many of each other, if both evaluate. -/
theorem Restates.multiple {r : ℝ} (h : Restates p q r) : 0 < r ∧ ∀ u v, evaluate exactly false p = .ok u →
    evaluate exactly false q = .ok v → Multiple u v r := by
  induction h with
  | same hlinear =>
    refine ⟨one_pos, fun u v hu hv => ?_⟩
    obtain rfl : u = v := Except.ok.inj (hu.symm.trans hv)
    exact ⟨hlinear u hu, hlinear u hu, rfl, (one_mul _).symm⟩
  | @identity i hi =>
    obtain ⟨d, s, t, y, hi⟩ := holds i hi
    refine ⟨by exact_mod_cast hi.positive, fun u v hu hv => ?_⟩
    obtain ⟨u', hu', hup⟩ := hi.unit
    obtain ⟨v', hv', hvp⟩ := hi.meaning
    obtain rfl : u = u' := Except.ok.inj (hu.symm.trans hu')
    obtain rfl : v = v' := Except.ok.inj (hv.symm.trans hv')
    exact ⟨hup.linear, hvp.linear, dimension_eq hup hvp fun _ => rfl, by rw [hup.size, hvp.size]⟩
  | back _ ih =>
    refine ⟨inv_pos.2 ih.1, fun u v hu hv => ?_⟩
    obtain ⟨hv', hu', hd, hsize⟩ := ih.2 v u hv hu
    exact ⟨hu', hv', hd.symm, by rw [hsize, inv_mul_cancel_left₀ ih.1.ne']⟩
  | mul _ _ ih ih' =>
    refine ⟨mul_pos ih.1 ih'.1, fun u v hu hv => ?_⟩
    obtain ⟨u₁, hu₁, hu⟩ := Outcome.bind_eq_ok_iff.1 hu
    obtain ⟨u₂, hu₂, hu⟩ := Outcome.bind_eq_ok_iff.1 hu
    obtain ⟨v₁, hv₁, hv⟩ := Outcome.bind_eq_ok_iff.1 hv
    obtain ⟨v₂, hv₂, hv⟩ := Outcome.bind_eq_ok_iff.1 hv
    have h := ih.2 u₁ v₁ hu₁ hv₁
    have h' := ih'.2 u₂ v₂ hu₂ hv₂
    have hup := parts_mul h.source.parts h'.source.parts hu
    have hvp := parts_mul h.target.parts h'.target.parts hv
    refine ⟨hup.linear, hvp.linear, dimension_eq hup hvp fun a => by rw [h.dimension, h'.dimension], ?_⟩
    rw [hup.size, hvp.size, h.size, h'.size]
    ring
  | div _ _ ih ih' =>
    refine ⟨div_pos ih.1 ih'.1, fun u v hu hv => ?_⟩
    obtain ⟨u₁, hu₁, hu⟩ := Outcome.bind_eq_ok_iff.1 hu
    obtain ⟨u₂, hu₂, hu⟩ := Outcome.bind_eq_ok_iff.1 hu
    obtain ⟨v₁, hv₁, hv⟩ := Outcome.bind_eq_ok_iff.1 hv
    obtain ⟨v₂, hv₂, hv⟩ := Outcome.bind_eq_ok_iff.1 hv
    have h := ih.2 u₁ v₁ hu₁ hv₁
    have h' := ih'.2 u₂ v₂ hu₂ hv₂
    have hup := parts_div h.source.parts h'.source.parts hu
    have hvp := parts_div h.target.parts h'.target.parts hv
    refine ⟨hup.linear, hvp.linear, dimension_eq hup hvp fun a => by rw [h.dimension, h'.dimension], ?_⟩
    rw [hup.size, hvp.size, h.size, h'.size]
    exact mul_div_mul_comm _ _ _ _
  | pow _ n ih =>
    refine ⟨zpow_pos ih.1 n, fun u v hu hv => ?_⟩
    obtain ⟨u₁, hu₁, hu⟩ := Outcome.bind_eq_ok_iff.1 hu
    obtain ⟨v₁, hv₁, hv⟩ := Outcome.bind_eq_ok_iff.1 hv
    have h := ih.2 u₁ v₁ hu₁ hv₁
    have hup := parts_pow h.source.parts hu
    have hvp := parts_pow h.target.parts hv
    refine ⟨hup.linear, hvp.linear, dimension_eq hup hvp fun a => by rw [h.dimension], ?_⟩
    rw [hup.size, hvp.size, h.size, mul_zpow]

theorem Multiple.rescale {u v : UnitMeaning ℝ} {r : ℝ} (h : Multiple u v r) (hw : Within u v) (x : ℝ) :
    UnitMeaning.rescale x u v = .ok (x * r) := by
  rw [rescale_linear h.source h.target h.dimension hw, h.size, mul_div_cancel_right₀ _ h.target.size_pos.ne']

/-! ## Results -/

/-- **Units by other units.** The identities among the units of the catalog convert in every power of up to a hundred,
under every policy. Trees that are put another way by them, in products, quotients and powers, have one dimension and
convert by the ratio that the identities make up, if they evaluate and their scales do not differ too much. -/
theorem definitions_spec (policy : ScalePolicy) (m : Store ℝ) (x : ℝ) :
    (∀ i ∈ identities, ∀ k : ℤ, k.natAbs ≤ 100 →
      Identity.conversion x (i.source k) (i.target k) ⟨policy, exactly⟩ m = .ok (.number (x * (i.ratio : ℝ) ^ k), m)) ∧
    ∀ p q r, Restates p q r → ∀ u v, evaluate exactly false p = .ok u → evaluate exactly false q = .ok v →
      u.dimension = v.dimension ∧ (Within u v → UnitMeaning.rescale x u v = .ok (x * r)) := by
  refine ⟨fun i hi k hk => ?_, fun p q r h u v hu hv => ?_⟩
  · obtain ⟨d, s, t, y, hi⟩ := holds i hi
    exact hi.converts hk x policy m
  · have hmultiple := h.multiple.2 u v hu hv
    exact ⟨hmultiple.dimension, fun hw => hmultiple.rescale hw x⟩

/-- gradians in a turn, squared, and feet a minute in a mile an hour -/
theorem definitions_spec_turn :
    (⟨"turn", 240, .identifier "grad"⟩ : Identity) ∈ identities ∧ (2 : ℤ).natAbs ≤ 100 ∧
    Identity.conversion 1 (.pow (.identifier "turn") 2) (.pow (.identifier "grad") 2) ⟨.smallerWins, exactly⟩ .empty =
      .ok (.number 57600, .empty) ∧
    ∃ u v, evaluate exactly false (.div (.identifier "mi") (.identifier "h")) = .ok u ∧
      evaluate exactly false (.div (.identifier "ft") (.identifier "min")) = .ok v ∧ Within u v ∧
      UnitMeaning.rescale 1 u v = .ok 88 := by
  have hspec := definitions_spec .smallerWins .empty 1
  have hturn : (⟨"turn", 240, .identifier "grad"⟩ : Identity) ∈ identities := .tail _ (.head _)
  have hmile : (⟨"mi", 5280, .identifier "ft"⟩ : Identity) ∈ identities :=
    List.mem_append_left _ (List.mem_append_right _ (.head _))
  have hhour : (⟨"h", 60, .identifier "min"⟩ : Identity) ∈ identities :=
    List.mem_append_left _ (List.mem_append_right _ (List.mem_of_getElem? (i := 9) rfl))
  refine ⟨hturn, by decide, ?_, ?_⟩
  · have hsquared : (1 : ℝ) * ((240 : ℚ) : ℝ) ^ (2 : ℤ) = 57600 := by norm_num
    rw [← hsquared]
    exact hspec.1 _ hturn 2 (by decide)
  · obtain ⟨d, s, t, y, hm⟩ := holds _ hmile
    obtain ⟨e, s', t', y', hh⟩ := holds _ hhour
    have hrange {m n : ℤ} (hm : m.natAbs ≤ 163) (hn : n.natAbs ≤ 163) : InRange (m - n) := by
      change (m - n).natAbs ≤ 32767
      omega
    obtain ⟨u, hu, hup⟩ := hm.unit.div hh.unit (fun a => hrange (hm.dimension a) (hh.dimension a))
      fun b => hrange (hm.scales b).1 (hh.scales b).1
    obtain ⟨v, hv, hvp⟩ := hm.meaning.div hh.meaning (fun a => hrange (hm.dimension a) (hh.dimension a))
      fun b => hrange (hm.scales b).2 (hh.scales b).2
    obtain ⟨hdimension, hrescale⟩ := hspec.2 _ _ _ (.div (.identity hmile) (.identity hhour)) u v hu hv
    have hwithin : Within u v := within_of_gap hvp.linear hdimension fun b => by
      have := hm.scales b
      have := hh.scales b
      rw [hup.scale, hvp.scale]
      change (s b - s' b - (t b - t' b)).natAbs ≤ 32767
      simp only [Identity.exponentBound] at *
      omega
    refine ⟨u, v, hu, hv, hwithin, ?_⟩
    have hratio : (1 : ℝ) * (((5280 : ℚ) : ℝ) / ((60 : ℚ) : ℝ)) = 88 := by norm_num
    rw [← hratio]
    exact hrescale hwithin

/-- what a turn, a degree, an arcminute, an acre and a foot pound are taken for -/
def customary : List Identity := [
  ⟨"turn", 400, .identifier "grad"⟩,
  ⟨"deg", 60, .identifier "arcmin"⟩,
  ⟨"arcmin", 60, .identifier "arcsec"⟩,
  ⟨"acre", 43560, squareFeet⟩,
  ⟨"ft_lb", 9.80665, footPounds⟩]

/-- a unit is converted to what it is taken for by another ratio -/
def Identity.IsMissed (i : Identity) : Prop := ∃ r : ℝ, r ≠ i.ratio ∧
  conversion 1 (i.source 1) (i.target 1) ⟨.smallerWins, exactly⟩ .empty = .ok (.number r, .empty)

/-- beside an identity that is true, one with another ratio is missed -/
theorem isMissed {unit : String} {meaning : UnitExpr} {r r' : ℚ}
    (h : ∃ d s t y, (⟨unit, r, meaning⟩ : Identity).Holds d s t y) (hne : r ≠ r') :
    (⟨unit, r', meaning⟩ : Identity).IsMissed := by
  obtain ⟨d, s, t, y, h⟩ := h
  have hconverts := h.converts (k := 1) (by decide) 1 .smallerWins .empty
  rw [zpow_one, one_mul] at hconverts
  exact ⟨r, by exact_mod_cast hne, hconverts⟩

/-- **Definitions that the constants miss.** None of these is what the catalog converts by. -/
theorem definitions_missed : customary.Forall Identity.IsMissed := by
  have hgrad := holds_angles ⟨"turn", 240, .identifier "grad"⟩ (.tail _ (.head _))
  have harcmin := holds_angles ⟨"deg", 20, .identifier "arcmin"⟩ (.tail _ (.tail _ (.head _)))
  have harcsec := holds_angles ⟨"arcmin", 4, .identifier "arcsec"⟩ (.tail _ (.tail _ (.tail _ (.head _))))
  rw [List.forall_iff_forall_mem]
  simp only [customary, List.forall_mem_cons]
  exact ⟨isMissed hgrad (by norm_num), isMissed harcmin (by norm_num), isMissed harcsec (by norm_num),
    isMissed holds_acre (by norm_num), isMissed holds_ft_lb (by norm_num), nofun⟩

end UnitAlgebra.Catalog

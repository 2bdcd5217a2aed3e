/-
Compositions of SI base symbols evaluate to what they were composed from. The terms of a composition stand for different
axes, its factors for different bases, and a power of ten is either written out or carried by one of the terms. So the
product above the bar and the product below it never overflow, and together they have all exponents wanted.

Results:
- `terms_eq`: the terms of a dimension in base units, if the base unit of mass has its prefix.
- `Termed.carry`: a term that takes a power of ten changes nothing else.
- `exists_factors`: the factors of a scale spell the scale.
- `spells_join`: a product over a product spells the difference.
- `compose_eq_error_iff`: when there is no composition.
- `spells_compose`: a composition spells its dimension and scale.
-/
import Mathlib
import UnitAlgebra.Proofs.Naming.Symbols
import UnitAlgebra.Proofs.Tensor.Rows

namespace UnitAlgebra.Naming

open Expression UnitMeaning

variable {r : Registry Float}

/-! ## Sums over different keys -/

theorem sum_indicator {α : Type} [DecidableEq α] {l : List α} (h : l.Nodup) (g : α → Int) (c : α) :
    (l.map fun b => g b * if c = b then 1 else 0).sum = if c ∈ l then g c else 0 := by
  induction l with
  | nil => rfl
  | cons b l ih =>
    rw [List.nodup_cons] at h
    rw [List.map_cons, List.sum_cons, ih h.2]
    by_cases hc : c = b
    · subst hc
      simp [h.1]
    · simp [hc]

theorem sum_filter_indicator {α : Type} [DecidableEq α] {l : List α} (h : l.Nodup) (g : α → Int) {c : α} (hc : c ∈ l) :
    ((l.filter fun b => g b ≠ 0).map fun b => g b * if c = b then 1 else 0).sum = g c := by
  rw [sum_indicator (h.filter _)]
  by_cases hg : g c = 0 <;> simp [hc, hg]

theorem nodup_axes : Axis.all.Nodup := by decide

theorem nodup_bases : Base.all.Nodup := by decide

/-! ## Products of texts -/

/-- a text that spells a power, with the exponents that it spells -/
abbrev Item : Type := String × (Slot → Int)

/-- items that spell what they say, in different places -/
structure Sound (r : Registry Float) (items : List Item) : Prop where
  spells : ∀ x ∈ items, Spells r .power x.1.toList x.2
  disjoint : items.Pairwise fun x y => Separate x.2 y.2

/-- the sum of what items spell -/
def sum (items : List Item) : Slot → Int := total (items.map Prod.snd)

theorem toList_intercalate_cons (x : String) (xs : List String) :
    ("*".intercalate (x :: xs)).toList = x.toList ++ xs.flatMap fun y => '*' :: y.toList := by
  induction xs generalizing x with
  | nil => simp
  | cons y ys ih =>
    rw [String.intercalate_cons_cons, String.toList_append, String.toList_append, ih]
    simp

theorem spells_product {items : List Item} (h : Sound r items) (hne : items ≠ []) :
    Spells r .factor ("*".intercalate (items.map Prod.fst)).toList (sum items) := by
  cases items with
  | nil => exact absurd rfl hne
  | cons x items =>
    obtain ⟨hspells, hdisjoint⟩ := h
    rw [List.pairwise_cons] at hdisjoint
    rw [List.map_cons, toList_intercalate_cons]
    let factors : List (List Char × (Slot → Int)) := items.map fun y => (y.1.toList, y.2)
    have hproduct : Spells r .factor (x.1.toList ++ factors.flatMap fun y => '*' :: y.1)
        fun i => x.2 i + total (factors.map Prod.snd) i :=
      (hspells x List.mem_cons_self).single.product (fun y hy => ?_) (fun y hy => ?_) ?_
    · have htext : factors.flatMap (fun y => '*' :: y.1) =
          (items.map Prod.fst).flatMap fun y => '*' :: y.toList := by
        simp [factors, List.flatMap_map]
      have hsum : (fun i => x.2 i + total (factors.map Prod.snd) i) = sum (x :: items) := by
        funext i
        simp [factors, sum, total, Function.comp_def]
      rwa [htext, hsum] at hproduct
    · obtain ⟨z, hz, rfl⟩ := List.mem_map.1 hy
      exact hspells z (List.mem_cons_of_mem x hz)
    · obtain ⟨z, hz, rfl⟩ := List.mem_map.1 hy
      exact hdisjoint.1 z hz
    · exact List.pairwise_map.2 hdisjoint.2

theorem spells_one : Spells r .factor "1".toList (sum []) := by
  have h := spells_integer (r := r) (n := 1) (s := .one) (by decide) integerScale_written.1
  have hslots : (Sum.elim (fun _ => 0) fun b => ((Scale.one).get b).val : Slot → Int) = sum [] := by
    funext i
    rcases i with a | b
    · rfl
    · cases b <;> rfl
  rw [hslots, show Exponent.decimalDigits (1 : Nat) = "1".toList by decide] at h
  exact h.plain.single

/-- A product over a product spells the difference. -/
theorem spells_join {above below : List Item} (ha : Sound r above) (hb : Sound r below)
    (hr : ∀ i, InRange (sum above i - sum below i)) :
    Spells r .expr (join (above.map Prod.fst) (below.map Prod.fst)).toList
      fun i => sum above i - sum below i := by
  have htop : Spells r .expr
      (if (above.map Prod.fst).isEmpty then "1" else "*".intercalate (above.map Prod.fst)).toList (sum above) := by
    cases above with
    | nil => exact spells_one.whole
    | cons x above => exact (spells_product ha (by simp)).whole
  unfold join
  cases below with
  | nil =>
    have hzero : (fun i => sum above i - sum [] i) = sum above := by
      funext i
      simp [sum, total]
    rw [hzero]
    exact htop
  | cons y below =>
    have hquotient := htop.per (spells_product hb (by simp)) hr
    simpa [List.append_assoc] using hquotient

/-! ## Factors -/

theorem spells_power {symbol : String} {f : Slot → Int} (h : Spells r .atom symbol.toList f) {n : Int}
    (hn : InRange n) (hr : ∀ i, InRange (n * f i)) :
    Spells r .power (power symbol n).toList fun i => n * f i := by
  unfold power
  split
  · next hone =>
    subst hone
    simpa using h.plain
  · have := h.raised hn hr
    simpa [Exponent.decimal] using this

theorem inRange_mul {n k : Int} (hn : InRange n) (hk : k = 0 ∨ k = 1) : InRange (n * k) := by
  rcases hk with rfl | rfl
  · rw [mul_zero]
    decide
  · rwa [mul_one]

theorem scale_of_log10? {s : Scale} {k : Int} (h : s.log10? = some k) (b : Base) : (s.get b).val = k * decadic b := by
  unfold Scale.log10? at h
  split at h
  · next hs =>
    obtain ⟨hfive, hthree, hpi⟩ := hs
    cases h
    cases b <;> simp [Scale.get, decadic, ← hfive, hthree, hpi]
  · cases h

theorem inRange_of_log10? {s : Scale} {k : Int} (h : s.log10? = some k) : InRange k := by
  have htwo := (s.get .two).bounded
  rw [scale_of_log10? h, show decadic .two = 1 from rfl, mul_one] at htwo
  exact htwo

/-- items that spell a scale, and nothing of any dimension -/
structure Factors (r : Registry Float) (s : Scale) (items : List Item) : Prop where
  sound : Sound r items
  sum_eq : sum items = slots .one s
  noAxis : ∀ x ∈ items, ∀ a, x.2 (.inl a) = 0

theorem factors_one : Factors r .one [] := by
  refine ⟨⟨by simp, .nil⟩, ?_, by simp⟩
  funext i
  rcases i with a | b
  · cases a <;> rfl
  · cases b <;> rfl

theorem factors_ten {s : Scale} {k : Int} (hlog : s.log10? = some k) :
    Factors r s [(power "10" k, fun i => k * tenSlots i)] := by
  have hk : InRange k := inRange_of_log10? hlog
  have hten : ∀ i, tenSlots i = 0 ∨ tenSlots i = 1 := by
    intro i
    rcases i with a | b
    · exact Or.inl rfl
    · cases b <;> simp [tenSlots, decadic]
  refine ⟨⟨?_, List.pairwise_singleton _ _⟩, ?_, ?_⟩
  · intro x hx
    cases List.mem_singleton.1 hx
    exact spells_power spells_ten hk fun i => inRange_mul hk (hten i)
  · funext i
    rcases i with a | b
    · cases a <;> simp [sum, total, slots, tenSlots, Dimension.one, Dimension.get]
    · simp [sum, total, slots, tenSlots, scale_of_log10? hlog b]
  · intro x hx a
    cases List.mem_singleton.1 hx
    exact mul_zero k

/-- the base with the exponent that it has in a scale -/
def baseItem (s : Scale) (b : Base) : Item := (power b.factor (s.get b).val, fun i => (s.get b).val * baseSlots b i)

theorem separate_baseItem (s : Scale) {b b' : Base} (h : b ≠ b') : Separate (baseItem s b).2 (baseItem s b').2 := by
  intro i
  rcases i with a | c
  · exact Or.inl (mul_zero _)
  · by_cases hc : c = b
    · refine Or.inr ?_
      change _ * (if c = b' then 1 else 0) = 0
      rw [if_neg (fun h' => h (hc ▸ h')), mul_zero]
    · refine Or.inl ?_
      change _ * (if c = b then 1 else 0) = 0
      rw [if_neg hc, mul_zero]

theorem factors_bases {s : Scale} (hpi : (s.get .pi).val ≠ 0 → StandsFor r "pi" (baseSlots .pi)) :
    Factors r s ((Base.all.filter fun b => (s.get b).val ≠ 0).map (baseItem s)) := by
  have hbase : ∀ b i, baseSlots b i = 0 ∨ baseSlots b i = 1 := by
    intro b i
    rcases i with a | c
    · exact Or.inl rfl
    · by_cases hc : c = b
      · exact Or.inr (if_pos hc)
      · exact Or.inl (if_neg hc)
  refine ⟨⟨?_, ?_⟩, ?_, ?_⟩
  · intro x hx
    obtain ⟨b, hb, rfl⟩ := List.mem_map.1 hx
    have hne : (s.get b).val ≠ 0 := by simpa using (List.mem_filter.1 hb).2
    have hbounded := (s.get b).bounded
    exact spells_power (spells_factor fun h => hpi (h ▸ hne)) hbounded fun i => inRange_mul hbounded (hbase b i)
  · rw [List.pairwise_map]
    exact (nodup_bases.filter _).imp (separate_baseItem s)
  · funext i
    rw [sum, total, List.map_map, List.map_map]
    rcases i with a | c
    · have hone : ((Dimension.one).get a).val = 0 := by cases a <;> rfl
      change _ = ((Dimension.one).get a).val
      rw [hone]
      refine List.sum_eq_zero fun n hn => ?_
      obtain ⟨b, _, rfl⟩ := List.mem_map.1 hn
      exact mul_zero _
    · exact sum_filter_indicator nodup_bases (fun b => (s.get b).val) c.mem_all
  · intro x hx a
    obtain ⟨b, _, rfl⟩ := List.mem_map.1 hx
    exact mul_zero _

/-- **Factors of a scale.** They spell the scale, and nothing of any dimension. -/
theorem exists_factors {s : Scale} (hpi : (s.get .pi).val ≠ 0 → StandsFor r "pi" (baseSlots .pi)) :
    ∃ items, Factors r s items ∧ items.map Prod.fst = factorTerms s ∧ (s = .one → items = []) := by
  unfold factorTerms
  split
  · next hone =>
    obtain rfl : s = .one := by simpa [Scale.isOne] using hone
    exact ⟨[], factors_one, rfl, fun _ => rfl⟩
  · next hone =>
    have hne : s ≠ .one := by simpa [Scale.isOne] using hone
    cases hlog : s.log10? with
    | some k => exact ⟨_, factors_ten hlog, rfl, fun h => absurd h hne⟩
    | none =>
      refine ⟨_, factors_bases hpi, ?_, fun h => absurd h hne⟩
      rw [List.map_map]
      rfl

/-! ## Terms -/

/-- the axes of a dimension -/
def axes (d : Dimension) : List Axis := Axis.all.filter fun a => (d.get a).val ≠ 0

/-- the terms of a dimension in the symbols given -/
def termsIn (d : Dimension) (symbols : Axis → String) : List Term :=
  (axes d).map fun a => ⟨a, symbols a, (d.get a).val⟩

/-- the symbol of the base unit of an axis, where its prefix is there -/
def baseSymbol (r : Registry Float) (a : Axis) : String :=
  ((prefixSymbol? r (axisSymbol a).2).getD "") ++ (axisSymbol a).1

/-- a dimension has mass only where a prefix makes up its base unit -/
def HasBase (r : Registry Float) (d : Dimension) : Prop :=
  (d.get .mass).val ≠ 0 → (prefixSymbol? r (axisSymbol .mass).2).isSome = true

/-- the base unit of mass alone has a prefix -/
theorem HasBase.shift {d : Dimension} (h : HasBase r d) {a : Axis} (ha : (d.get a).val ≠ 0) :
    (prefixSymbol? r (axisSymbol a).2).isSome = true := by
  cases a with
  | mass => exact h ha
  | _ => rfl

theorem spells_baseSymbol {d : Dimension} {s : Scale} (hr : Speaks r d s) (h : HasBase r d) {a : Axis}
    (ha : (d.get a).val ≠ 0) : Spells r .atom (baseSymbol r a).toList (axisSlots a 0) := by
  obtain ⟨symbol, hsymbol⟩ := Option.isSome_iff_exists.1 (h.shift ha)
  have hzero : (axisSymbol a).2 - (axisSymbol a).2 = 0 := sub_self _
  have haxis := hr.axis a ha _ _ hsymbol (by rw [hzero]; decide)
  rw [hzero] at haxis
  rw [baseSymbol, hsymbol]
  exact haxis.spells

/-- **Terms of a dimension.** All of them are there, in base units, if the base unit of mass is. -/
theorem terms_eq {d : Dimension} (h : HasBase r d) : terms r d = .ok (termsIn d (baseSymbol r)) := by
  unfold terms termsIn
  rw [Outcome.mapM_eq_ok_iff, List.forall₂_map_right_iff]
  refine List.forall₂_same.2 fun a ha => ?_
  obtain ⟨symbol, hsymbol⟩ := Option.isSome_iff_exists.1 (h.shift (by simpa using (List.mem_filter.1 ha).2))
  simp only [baseSymbol, hsymbol]
  rfl

/-- without the base unit of mass there are no terms with mass -/
theorem terms_eq_error {d : Dimension} (h : ¬ HasBase r d) : terms r d = .error (.wrongType none) := by
  obtain ⟨hmass, hnone⟩ := Classical.not_imp.1 h
  rw [Option.not_isSome_iff_eq_none] at hnone
  have hfirst : Axis.all.filter (fun a => (d.get a).val ≠ 0) =
      .mass :: (Axis.all.tail.filter fun a => (d.get a).val ≠ 0) :=
    List.filter_cons_of_pos (by simpa using hmass)
  unfold terms
  rw [hfirst, List.mapM_cons]
  simp only [hnone]
  rfl

/-! ## The carrier of a power of ten -/

/-- symbols that spell the axes of a dimension, one of them at a power of ten -/
def Carries (r : Registry Float) (d : Dimension) (symbols : Axis → String) (c : Axis) (k : Int) : Prop :=
  ∀ a, (d.get a).val ≠ 0 → Spells r .atom (symbols a).toList (axisSlots a (if a = c then k else 0))

theorem carries_baseSymbol {d : Dimension} {s : Scale} (hr : Speaks r d s) (h : HasBase r d) :
    Carries r d (baseSymbol r) .mass 0 := by
  intro a ha
  rw [ite_self]
  exact spells_baseSymbol hr h ha

/-- a term that can carry a power of ten takes it into its prefix -/
theorem carry?_eq_some {residual : Int} {t u : Term} (h : t.carry? r residual = some u) :
    ∃ m symbol, prefixSymbol? r m = some symbol ∧ u = { t with symbol := symbol ++ (axisSymbol t.axis).1 } ∧
      t.exponent * (m - (axisSymbol t.axis).2) = residual := by
  unfold Term.carry? at h
  simp only at h
  split at h
  · next hdvd =>
    obtain ⟨symbol, hsymbol, rfl⟩ := Option.map_eq_some_iff.1 h
    refine ⟨_, symbol, hsymbol, rfl, ?_⟩
    rw [mul_sub, Int.mul_ediv_cancel' (Int.dvd_of_emod_eq_zero hdvd), mul_comm (axisSymbol t.axis).2]
    exact Int.add_sub_cancel _ _
  · cases h

theorem carrier?_eq_some {d : Dimension} {symbols : Axis → String} {residual : Int} {u : Term}
    (h : carrier? r residual (termsIn d symbols) = some u) : ∃ c m symbol, (d.get c).val ≠ 0 ∧
      prefixSymbol? r m = some symbol ∧ u = ⟨c, symbol ++ (axisSymbol c).1, (d.get c).val⟩ ∧
      (d.get c).val * (m - (axisSymbol c).2) = residual := by
  obtain ⟨t, ht, hu⟩ := List.exists_of_findSome?_eq_some h
  have hmem : t ∈ termsIn d symbols := by
    rcases List.mem_append.1 ht with ht | ht <;> exact List.mem_of_mem_filter ht
  obtain ⟨c, hc, rfl⟩ := List.mem_map.1 hmem
  have hne : (d.get c).val ≠ 0 := by simpa using (List.mem_filter.1 hc).2
  obtain ⟨m, symbol, hsymbol, rfl, hsum⟩ := carry?_eq_some hu
  exact ⟨c, m, symbol, hne, hsymbol, rfl, hsum⟩

theorem inRange_of_mul {n k : Int} (hn : n ≠ 0) (h : InRange (n * k)) : InRange k := by
  unfold InRange at h ⊢
  rw [Int.natAbs_mul] at h
  exact (Nat.le_mul_of_pos_left k.natAbs (Int.natAbs_pos.2 hn)).trans h

/-- **Where the scale goes.** It is left, or one of the terms carries it. -/
theorem foldScale_eq {d : Dimension} {s : Scale} (hr : Speaks r d s) (h : HasBase r d) : ∃ left symbols c k,
    foldScale r s (termsIn d (baseSymbol r)) = (left, termsIn d symbols) ∧ Carries r d symbols c k ∧
      (k = 0 ∧ left = s ∨ left = .one) ∧ ∀ b, (s.get b).val = (left.get b).val + (d.get c).val * k * decadic b := by
  have hleft : ∃ left symbols c k, (s, termsIn d (baseSymbol r)) = (left, termsIn d symbols) ∧
      Carries r d symbols c k ∧ (k = 0 ∧ left = s ∨ left = .one) ∧
        ∀ b, (s.get b).val = (left.get b).val + (d.get c).val * k * decadic b :=
    ⟨s, baseSymbol r, .mass, 0, rfl, carries_baseSymbol hr h, Or.inl ⟨rfl, rfl⟩, by simp⟩
  unfold foldScale
  cases hlog : s.log10? with
  | none => exact hleft
  | some residual =>
    simp only
    split
    · exact hleft
    · split
      · next u hu =>
        obtain ⟨c, m, symbol, hc, hsymbol, rfl, hsum⟩ := carrier?_eq_some hu
        have hresidual : InRange residual := inRange_of_log10? hlog
        refine ⟨.one, fun a => if a = c then symbol ++ (axisSymbol c).1 else baseSymbol r a, c, m - (axisSymbol c).2, ?_,
          fun a ha => ?_, Or.inr rfl, fun b => ?_⟩
        · rw [termsIn, List.map_map]
          refine congrArg (Prod.mk _) (List.map_congr_left fun a _ => ?_)
          by_cases ha : a = c
          · subst ha
            simp
          · simp [ha]
        · by_cases hac : a = c
          · subst hac
            simpa using (hr.axis a ha m symbol hsymbol (inRange_of_mul hc (hsum ▸ hresidual))).spells
          · simpa [hac] using spells_baseSymbol hr h ha
        · have hone : ((Scale.one).get b).val = 0 := by cases b <;> rfl
          rw [hone, hsum, zero_add]
          exact scale_of_log10? hlog b
      · exact hleft

/-! ## Compositions -/

/-- the power of an axis -/
def item (symbols : Axis → String) (c : Axis) (k : Int) (n : Axis → Int) (a : Axis) : Item :=
  (power (symbols a) (n a), fun i => n a * axisSlots a (if a = c then k else 0) i)

theorem sound_items {d : Dimension} {symbols : Axis → String} {c : Axis} {k : Int} (hs : Carries r d symbols c k)
    {n : Axis → Int} (hn : ∀ a, InRange (n a)) (hk : InRange (n c * k)) {l : List Axis} (hl : l.Nodup)
    (hd : ∀ a ∈ l, (d.get a).val ≠ 0) : Sound r (l.map (item symbols c k n)) := by
  refine ⟨fun x hx => ?_, List.pairwise_map.2 (hl.imp fun {a b} hne i => ?_)⟩
  · obtain ⟨a, hal, rfl⟩ := List.mem_map.1 hx
    refine spells_power (hs a (hd a hal)) (hn a) fun i => ?_
    rcases i with b | b
    · exact inRange_mul (hn a) (by by_cases h : b = a <;> simp [axisSlots, h])
    · by_cases ha : a = c
      · subst ha
        rw [if_pos rfl, axisSlots, Sum.elim_inr, ← mul_assoc]
        exact inRange_mul hk (by cases b <;> simp [decadic])
      · rw [if_neg ha, axisSlots, Sum.elim_inr, zero_mul, mul_zero]
        decide
  · rcases i with x | _
    · by_cases hx : x = a
      · refine Or.inr ?_
        have hb : x ≠ b := fun h => hne (hx ▸ h)
        simp [item, axisSlots, hb]
      · refine Or.inl ?_
        simp [item, axisSlots, hx]
    · by_cases ha : a = c
      · refine Or.inr ?_
        have hb : b ≠ c := fun h => hne (ha.trans h.symm)
        simp [item, axisSlots, hb]
      · refine Or.inl ?_
        simp [item, axisSlots, ha]

theorem sum_append (xs ys : List Item) (i : Slot) : sum (xs ++ ys) i = sum xs i + sum ys i := by
  simp [sum, total]

theorem sum_items_axis (symbols : Axis → String) (c : Axis) (k : Int) (n : Axis → Int) {l : List Axis} (hl : l.Nodup)
    (a : Axis) : sum (l.map (item symbols c k n)) (.inl a) = if a ∈ l then n a else 0 := by
  rw [sum, total, List.map_map, List.map_map, ← sum_indicator hl n a]
  rfl

theorem sum_items_base (symbols : Axis → String) (c : Axis) (k : Int) (n : Axis → Int) {l : List Axis} (hl : l.Nodup)
    (b : Base) : sum (l.map (item symbols c k n)) (.inr b) = if c ∈ l then n c * k * decadic b else 0 := by
  rw [sum, total, List.map_map, List.map_map, ← sum_indicator hl (fun a => n a * k * decadic b) c]
  refine congrArg List.sum (List.map_congr_left fun a _ => ?_)
  by_cases ha : a = c
  · subst ha
    simp [item, axisSlots, mul_assoc]
  · have hc : ¬ c = a := fun h => ha h.symm
    simp [item, axisSlots, ha, hc]

/-- the axes above the bar, and those below it -/
def above (d : Dimension) : List Axis := (axes d).filter fun a => 0 < (d.get a).val

def below (d : Dimension) : List Axis := (axes d).filter fun a => (d.get a).val < 0

theorem mem_above {d : Dimension} {a : Axis} : a ∈ above d ↔ 0 < (d.get a).val := by
  simp only [above, axes, List.mem_filter, a.mem_all, true_and, decide_eq_true_eq]
  omega

theorem mem_below {d : Dimension} {a : Axis} : a ∈ below d ↔ (d.get a).val < 0 := by
  simp only [below, axes, List.mem_filter, a.mem_all, true_and, decide_eq_true_eq]
  omega

theorem nodup_above (d : Dimension) : (above d).Nodup := (nodup_axes.filter _).filter _

theorem nodup_below (d : Dimension) : (below d).Nodup := (nodup_axes.filter _).filter _

/-- the powers above the bar, and those below it -/
def upper (d : Dimension) (symbols : Axis → String) (c : Axis) (k : Int) : List Item :=
  (above d).map (item symbols c k fun a => (d.get a).val)

def lower (d : Dimension) (symbols : Axis → String) (c : Axis) (k : Int) : List Item :=
  (below d).map (item symbols c k fun a => -(d.get a).val)

section Powers

variable {d : Dimension} {symbols : Axis → String} {c : Axis} {k : Int}

theorem sound_upper (hs : Carries r d symbols c k) (hk : InRange ((d.get c).val * k)) :
    Sound r (upper d symbols c k) := by
  refine sound_items hs (fun a => (d.get a).bounded) hk (nodup_above d) fun a ha => ?_
  have := mem_above.1 ha
  omega

theorem sound_lower (hs : Carries r d symbols c k) (hk : InRange ((d.get c).val * k)) :
    Sound r (lower d symbols c k) := by
  refine sound_items hs (fun a => ?_) ?_ (nodup_below d) fun a ha => ?_
  · rw [InRange, Int.natAbs_neg]
    exact (d.get a).bounded
  · rw [InRange, neg_mul, Int.natAbs_neg]
    exact hk
  · have := mem_below.1 ha
    omega

theorem sum_upper_sub_lower_axis (a : Axis) :
    sum (upper d symbols c k) (.inl a) - sum (lower d symbols c k) (.inl a) = (d.get a).val := by
  rw [upper, lower, sum_items_axis _ _ _ _ (nodup_above d), sum_items_axis _ _ _ _ (nodup_below d)]
  simp only [mem_above, mem_below]
  split <;> split <;> omega

theorem sum_upper_sub_lower_base (b : Base) :
    sum (upper d symbols c k) (.inr b) - sum (lower d symbols c k) (.inr b) = (d.get c).val * k * decadic b := by
  rw [upper, lower, sum_items_base _ _ _ _ (nodup_above d), sum_items_base _ _ _ _ (nodup_below d)]
  simp only [mem_above, mem_below, neg_mul]
  rcases lt_trichotomy (d.get c).val 0 with h | h | h
  · rw [if_neg (by omega), if_pos h]
    omega
  · simp [h]
  · rw [if_pos h, if_neg (by omega)]
    omega

end Powers

theorem compose_eq {d : Dimension} {s : Scale} (hbase : HasBase r d) {left : Scale} {symbols : Axis → String}
    (h : foldScale r s (termsIn d (baseSymbol r)) = (left, termsIn d symbols)) :
    compose r d s = .ok (join
      (factorTerms left ++ (above d).map fun a => power (symbols a) (d.get a).val)
      ((below d).map fun a => power (symbols a) (-(d.get a).val))) := by
  unfold compose
  rw [terms_eq hbase]
  -- what is left after the terms, with the scale folded
  refine (congrArg (fun x : Scale × List Term => (.ok (join
    (factorTerms x.1 ++ (x.2.filter (0 < ·.exponent)).map fun t => power t.symbol t.exponent)
    ((x.2.filter (·.exponent < 0)).map fun t => power t.symbol (-t.exponent))) : Outcome String)) h).trans ?_
  simp only [termsIn, List.filter_map, List.map_map]
  rfl

/-- There is a composition exactly if the base unit of mass is there where it is wanted. -/
theorem compose_eq_error_iff {d : Dimension} {s : Scale} {fault : Fault} :
    compose r d s = .error fault ↔ ¬ HasBase r d ∧ fault = .wrongType none := by
  by_cases hbase : HasBase r d
  · refine ⟨fun h => ?_, fun h => absurd hbase h.1⟩
    unfold compose at h
    rw [terms_eq hbase] at h
    cases h
  · have herror : compose r d s = .error (.wrongType none) := by
      unfold compose
      rw [terms_eq_error hbase]
      rfl
    rw [herror, Except.error.injEq]
    exact ⟨fun h => ⟨hbase, h.symm⟩, fun h => h.2.symm⟩

/-- **Compositions.** A composition spells its dimension and scale, where its symbols are read as they are meant. -/
theorem spells_compose {d : Dimension} {s : Scale} (hr : Speaks r d s) {text : String} (h : compose r d s = .ok text) :
    Spells r .expr text.toList (slots d s) := by
  have hbase : HasBase r d := by
    refine Classical.byContradiction fun hbase => ?_
    cases h.symm.trans (compose_eq_error_iff.2 ⟨hbase, rfl⟩)
  obtain ⟨left, symbols, c, k, hfold, hcarries, hleft, hscale⟩ := foldScale_eq hr hbase
  have hpi : (left.get .pi).val ≠ 0 → StandsFor r "pi" (baseSlots .pi) := by
    intro hne
    rcases hleft with ⟨-, rfl⟩ | rfl
    · exact hr.pi hne
    · exact absurd rfl hne
  obtain ⟨factors, ⟨hfactors, hsum, hzero⟩, htext, hnone⟩ := exists_factors hpi
  -- the power carried is in range, because the scale has it or there is none
  have hk : InRange ((d.get c).val * k) := by
    rcases hleft with ⟨rfl, -⟩ | rfl
    · rw [mul_zero]
      decide
    · have h : (s.get .two).val = 0 + (d.get c).val * k * 1 := hscale .two
      rw [zero_add, mul_one] at h
      exact h ▸ (s.get .two).bounded
  have hupper : Sound r (upper d symbols c k) := sound_upper hcarries hk
  have hall : Sound r (factors ++ upper d symbols c k) := by
    refine ⟨fun x hx => (List.mem_append.1 hx).elim (hfactors.spells x) (hupper.spells x),
      List.pairwise_append.2 ⟨hfactors.disjoint, hupper.disjoint, fun x hx y hy i => ?_⟩⟩
    rcases i with a | b
    · exact Or.inl (hzero x hx a)
    · rcases hleft with ⟨rfl, -⟩ | hone
      · obtain ⟨a, _, rfl⟩ := List.mem_map.1 hy
        exact Or.inr (by simp [item, axisSlots])
      · rw [hnone hone] at hx
        cases hx
  have hslots : (fun i => sum (factors ++ upper d symbols c k) i - sum (lower d symbols c k) i) = slots d s := by
    funext i
    rw [sum_append, hsum, add_sub_assoc]
    rcases i with a | b
    · have hone : slots .one left (.inl a) = 0 := by cases a <;> rfl
      rw [hone, zero_add]
      exact sum_upper_sub_lower_axis a
    · rw [sum_upper_sub_lower_base b]
      exact (hscale b).symm
  have hjoin := spells_join hall (sound_lower hcarries hk) fun i => by
    rw [congrFun hslots i]
    exact inRange_slots d s i
  rw [hslots, List.map_append, htext, upper, lower, List.map_map, List.map_map] at hjoin
  cases (compose_eq hbase hfold).symm.trans h
  exact hjoin

end UnitAlgebra.Naming

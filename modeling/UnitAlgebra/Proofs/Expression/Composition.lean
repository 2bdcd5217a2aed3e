/-
Texts that are put together so that they evaluate. A text spells exponents, for a rule of the grammar, when it has a
derivation by the rule and the tree evaluates to a storage unit with exactly these exponents. Names and integers spell
their own; powers, products and quotients of spelled texts spell multiples, sums and differences, as long as they are
in range.

Results:
- `Spells.raised`, `Spells.times`, `Spells.per`: how spelled texts are put together.
- `Spells.product`: a product of texts that spell exponents in different places never overflows.
- `Spells.evaluateText`: what a spelled text evaluates to.
-/
import UnitAlgebra.Proofs.Expression.Homomorphism
import UnitAlgebra.Proofs.Text.Case

namespace UnitAlgebra

/-! ## Exponents in their places -/

/-- exponents have five digits at most -/
theorem natAbs_lt_of_inRange {n : Int} (hn : InRange n) {k : Nat} (hk : 5 ≤ k) : n.natAbs < 10 ^ k :=
  calc n.natAbs < 10 ^ 5 := Nat.lt_of_le_of_lt hn (by decide)
    _ ≤ 10 ^ k := Nat.pow_le_pow_right (by decide) hk

/-- where a unit has an exponent: at an axis of its dimension, or at a base of its scale -/
abbrev Slot : Type := Axis ⊕ Base

namespace UnitMeaning

def exponent (u : UnitMeaning Float) : Slot → Int
  | .inl a => (u.dimension.get a).val
  | .inr b => (u.scale.get b).val

/-- a storage unit with the exponents given -/
structure IsExact (u : UnitMeaning Float) (f : Slot → Int) : Prop where
  exponents : ∀ i, u.exponent i = f i
  factor : u.factor = Numeric.one
  offset : u.offset = Numeric.zero

variable {u v : UnitMeaning Float} {f g : Slot → Int}

theorem IsExact.inRange (h : u.IsExact f) (i : Slot) : InRange (f i) := by
  rw [← h.exponents i]
  cases i with
  | inl a => exact (u.dimension.get a).bounded
  | inr b => exact (u.scale.get b).bounded

theorem Follows.exists_exponents {exact : Prop} {o : Outcome (UnitMeaning Float)}
    (h : Follows (fun a => f (.inl a)) (fun b => f (.inr b)) exact o) (he : exact) (hr : ∀ i, InRange (f i)) :
    ∃ w, o = .ok w ∧ ∀ i, w.exponent i = f i := by
  obtain ⟨w, hw⟩ := (h.returns he).2 ⟨fun a => hr (.inl a), fun b => hr (.inr b)⟩
  obtain ⟨hd, hs⟩ := h.exponents w hw
  refine ⟨w, hw, fun i => ?_⟩
  cases i with
  | inl a => exact hd a
  | inr b => exact hs b

/-- what is left of a unit whose dimension and scale come first -/
theorem ok_of_bind {dimension : Outcome Dimension} {scale : Outcome Scale}
    {rest : Dimension → Scale → Outcome (UnitMeaning Float)} {w : UnitMeaning Float}
    (h : (dimension >>= fun d => scale >>= rest d) = .ok w) : ∃ d s, rest d s = .ok w := by
  cases dimension with
  | error fault => cases h
  | ok d =>
    cases scale with
    | error fault => cases h
    | ok s => exact ⟨d, s, h⟩

theorem isOne_one : Numeric.isOne (Numeric.one : Float) = true := rfl

theorem IsExact.exists_mul (hu : u.IsExact f) (hv : v.IsExact g) (h : ∀ i, InRange (f i + g i)) :
    ∃ w, u.mul v = .ok w ∧ w.IsExact fun i => f i + g i := by
  obtain ⟨w, hw, he⟩ := Follows.exists_exponents (f := fun i => u.exponent i + v.exponent i) (follows_mul u v True)
    trivial fun i => by rw [hu.exponents, hv.exponents]; exact h i
  obtain ⟨d, s, hrest⟩ := ok_of_bind hw
  cases hrest
  refine ⟨_, hw, fun i => by rw [he, hu.exponents, hv.exponents], ?_, rfl⟩
  change Numeric.mul u.factor v.factor = Numeric.one
  rw [hu.factor, hv.factor]
  rfl

theorem IsExact.exists_div (hu : u.IsExact f) (hv : v.IsExact g) (h : ∀ i, InRange (f i - g i)) :
    ∃ w, u.div v = .ok w ∧ w.IsExact fun i => f i - g i := by
  have hzero : Numeric.isZero v.factor = false := by
    rw [hv.factor]
    exact Binary64.isZero_of_isOne isOne_one
  obtain ⟨w, hw, he⟩ := Follows.exists_exponents (f := fun i => u.exponent i - v.exponent i) (follows_div u v)
    hzero fun i => by rw [hu.exponents, hv.exponents]; exact h i
  obtain ⟨d, s, hrest⟩ := ok_of_bind hw
  rw [hzero, if_neg (by simp)] at hrest
  cases hrest
  refine ⟨_, hw, fun i => by rw [he, hu.exponents, hv.exponents], ?_, rfl⟩
  change Numeric.div u.factor v.factor = Numeric.one
  rw [hu.factor, hv.factor]
  rfl

theorem IsExact.exists_pow (hu : u.IsExact f) {n : Int} (hn : InRange n) (h : ∀ i, InRange (n * f i)) :
    ∃ w, u.pow n = .ok w ∧ w.IsExact fun i => n * f i := by
  have hpower : Numeric.power u.factor n = .ok 1.0 := by
    rw [hu.factor]
    exact Binary64.power_of_isOne isOne_one (natAbs_lt_of_inRange hn (by decide))
  obtain ⟨w, hw, he⟩ := Follows.exists_exponents (f := fun i => n * u.exponent i) (follows_pow u n)
    ⟨_, hpower⟩ fun i => by rw [hu.exponents]; exact h i
  have hexponents : ∀ i, w.exponent i = n * f i := fun i => by rw [he, hu.exponents]
  refine ⟨w, hw, ?_⟩
  unfold pow at hw
  split at hw
  · cases hw
    exact ⟨hexponents, hu.factor, hu.offset⟩
  · obtain ⟨d, s, hrest⟩ := ok_of_bind hw
    rw [hpower] at hrest
    cases hrest
    exact ⟨hexponents, show (1.0 : Float) = Numeric.one from rfl, rfl⟩

end UnitMeaning

namespace Expression

open Text UnitMeaning

/-! ## Texts of derivations -/

/-- a text without blanks that is read as the leaves of a derivation, all of them short -/
structure Writes {k : Category} (cs : List Char) (d : Derivation k) : Prop where
  reads : Reads cs d.leaves
  solid : ∀ c ∈ cs, isBlank c = false
  short : ∀ t ∈ d.leaves, t.Short

/-- a tree evaluates to a storage unit with the exponents given -/
def Denotes (r : Registry Float) (t : UnitExpr) (f : Slot → Int) : Prop :=
  ∃ u, evaluate r false t = .ok u ∧ u.IsExact f

/-- a text has a derivation by a rule that evaluates to a storage unit with the exponents given -/
def Spells (r : Registry Float) (k : Category) (cs : List Char) (f : Slot → Int) : Prop :=
  ∃ d : Derivation k, Writes cs d ∧ Denotes r d.tree f

variable {r : Registry Float} {cs ds : List Char} {f g : Slot → Int}

theorem Writes.between {k l m : Category} {d : Derivation k} {e : Derivation l} {j : Derivation m} {c : Char}
    {t : Terminal} (hm : mark? c = some t) (ht : t.Short) (hd : Writes cs d) (he : Writes ds e)
    (hj : j.leaves = d.leaves ++ t :: e.leaves) : Writes (cs ++ c :: ds) j := by
  refine ⟨hj ▸ hd.reads.append (he.reads.mark hm) (apart_mark hm _), fun x hx => ?_, fun x hx => ?_⟩
  · rcases List.mem_append.1 hx with hx | hx
    · exact hd.solid x hx
    · rcases List.mem_cons.1 hx with rfl | hx
      · exact (isMark_of_mark? hm).blank
      · exact he.solid x hx
  · rw [hj] at hx
    rcases List.mem_append.1 hx with hx | hx
    · exact hd.short x hx
    · rcases List.mem_cons.1 hx with rfl | hx
      · exact ht
      · exact he.short x hx

theorem Writes.plain {d : Derivation .atom} (h : Writes cs d) : Writes cs (.plain d) := ⟨h.reads, h.solid, h.short⟩

theorem Writes.single {d : Derivation .power} (h : Writes cs d) : Writes cs (.single d) := ⟨h.reads, h.solid, h.short⟩

theorem Writes.whole {d : Derivation .factor} (h : Writes cs d) : Writes cs (.whole d) := ⟨h.reads, h.solid, h.short⟩

theorem Writes.group {d : Derivation .expr} (h : Writes cs d) : Writes ('(' :: cs ++ [')']) (.group d) := by
  refine ⟨reads_group h.reads, fun c hc => ?_, fun t ht => ?_⟩
  · rcases List.mem_append.1 hc with hc | hc
    · rcases List.mem_cons.1 hc with rfl | hc
      · decide
      · exact h.solid c hc
    · cases List.mem_singleton.1 hc
      decide
  · rcases List.mem_append.1 ht with ht | ht
    · rcases List.mem_cons.1 ht with rfl | ht
      · exact short_of_ne_integer (by simp)
      · exact h.short t ht
    · cases List.mem_singleton.1 ht
      exact short_of_ne_integer (by simp)

theorem solid_decimal (n : Int) : ∀ c ∈ Exponent.decimalDigits n, isBlank c = false := by
  intro c hc
  rw [← chars_decimalLiteral] at hc
  rcases (decimalLiteral n).class_of_mem hc with hs | hd
  · exact (class_of_isSign hs).1
  · exact isBlank_of_isDecimal hd

theorem Writes.raised {d : Derivation .atom} {n : Int} (h : Writes cs d) (hn : (decimalLiteral n).terminal.Short) :
    Writes (cs ++ '^' :: Exponent.decimalDigits n) (.raised d (decimalLiteral n).numeral) := by
  refine ⟨?_, fun c hc => ?_, fun t ht => ?_⟩
  · exact h.reads.append ((reads_decimal n).mark (t := .caret) rfl) (apart_mark (t := .caret) rfl _)
  · rcases List.mem_append.1 hc with hc | hc
    · exact h.solid c hc
    · rcases List.mem_cons.1 hc with rfl | hc
      · decide
      · exact solid_decimal n c hc
  · rcases List.mem_append.1 ht with ht | ht
    · exact h.short t ht
    · simp only [List.mem_cons, List.not_mem_nil, or_false] at ht
      rcases ht with rfl | rfl
      · exact short_of_ne_integer (by simp)
      · exact hn

theorem writes_integer {n : Nat} (hn : (decimalLiteral n).terminal.Short) :
    Writes (Exponent.decimalDigits n) (.integer n (Nat.toDigits 10 n).length) := by
  have hnumeral := numeral_decimalLiteral_of_nonneg n
  refine ⟨?_, solid_decimal n, fun t ht => ?_⟩
  · have h := reads_decimal n
    rwa [Literal.terminal, hnumeral] at h
  · cases List.mem_singleton.1 ht
    rwa [Literal.terminal, hnumeral] at hn

/-! ## Products, quotients and powers -/

theorem Spells.times (hf : Spells r .factor cs f) (hg : Spells r .power ds g) (h : ∀ i, InRange (f i + g i)) :
    Spells r .factor (cs ++ '*' :: ds) fun i => f i + g i := by
  obtain ⟨d, hd, u, hu, huf⟩ := hf
  obtain ⟨e, he, v, hv, hvg⟩ := hg
  obtain ⟨w, hw, hwf⟩ := huf.exists_mul hvg h
  refine ⟨.times d e, hd.between (t := .times) rfl (short_of_ne_integer (by simp)) he rfl, w, ?_, hwf⟩
  rw [Derivation.tree, evaluate, hu, hv]
  exact hw

theorem Spells.per (hf : Spells r .expr cs f) (hg : Spells r .factor ds g) (h : ∀ i, InRange (f i - g i)) :
    Spells r .expr (cs ++ '/' :: ds) fun i => f i - g i := by
  obtain ⟨d, hd, u, hu, huf⟩ := hf
  obtain ⟨e, he, v, hv, hvg⟩ := hg
  obtain ⟨w, hw, hwf⟩ := huf.exists_div hvg h
  refine ⟨.per d e, hd.between (t := .slash) rfl (short_of_ne_integer (by simp)) he rfl, w, ?_, hwf⟩
  rw [Derivation.tree, evaluate, hu, hv]
  exact hw

theorem Spells.plain (hf : Spells r .atom cs f) : Spells r .power cs f := by
  obtain ⟨d, hd, hf⟩ := hf
  exact ⟨.plain d, hd.plain, hf⟩

theorem Spells.single (hf : Spells r .power cs f) : Spells r .factor cs f := by
  obtain ⟨d, hd, hf⟩ := hf
  exact ⟨.single d, hd.single, hf⟩

theorem Spells.whole (hf : Spells r .factor cs f) : Spells r .expr cs f := by
  obtain ⟨d, hd, hf⟩ := hf
  exact ⟨.whole d, hd.whole, hf⟩

theorem short_decimal {n : Int} (hn : InRange n) : (decimalLiteral n).terminal.Short := by
  intro m hm
  cases hm
  exact (digits_decimalLiteral_le (by decide) (natAbs_lt_of_inRange hn (Nat.le_refl 5))).trans (by decide)

theorem Spells.raised (hf : Spells r .atom cs f) {n : Int} (hn : InRange n) (h : ∀ i, InRange (n * f i)) :
    Spells r .power (cs ++ '^' :: Exponent.decimalDigits n) fun i => n * f i := by
  obtain ⟨d, hd, u, hu, huf⟩ := hf
  obtain ⟨w, hw, hwf⟩ := huf.exists_pow hn h
  refine ⟨.raised d (decimalLiteral n).numeral, hd.raised (short_decimal hn), w, ?_, hwf⟩
  rw [Derivation.tree, evaluate, hu, value_decimalLiteral]
  exact hw

/-! ## Names and integers -/

theorem writes_name {s : String} (hne : s.toList ≠ []) (hs : s.toList.all isNameChar = true) :
    Writes s.toList (.name s) := by
  have hletters := List.all_eq_true.1 hs
  refine ⟨?_, fun c hc => isBlank_of_isNameChar (hletters c hc), ?_⟩
  · let n : Name := ⟨s.toList, hne, hletters⟩
    have hlex : Lexeme (n.chars ++ []) [n.terminal] [] := Lexeme.name n (stopsAt_nil _) fun l hl => by
      obtain ⟨c, rest, hc, _⟩ := l.exists_head
      rw [hc] at hl
      exact absurd (List.prefix_nil.1 hl) (by simp)
    rw [List.append_nil] at hlex
    have := Reads.cons hlex .nil
    simpa [n, Name.terminal, Derivation.leaves] using this
  · intro t ht
    cases List.mem_singleton.1 ht
    exact short_of_ne_integer (by simp)

theorem spells_name {s : String} {u : UnitMeaning Float} (hne : s.toList ≠ [])
    (hs : s.toList.all isNameChar = true) (hr : resolve r false s = .ok u) (hu : u.IsExact f) :
    Spells r .atom s.toList f :=
  ⟨.name s, writes_name hne hs, u, hr, hu⟩

theorem spells_integer {n : Nat} {s : Scale} (hn : InRange n) (hs : integerScale n = .ok s) :
    Spells r .atom (Exponent.decimalDigits n) (Sum.elim (fun _ => 0) fun b => (s.get b).val) := by
  refine ⟨.integer n (Nat.toDigits 10 n).length, writes_integer (short_decimal hn), .stored .one s, ?_, ?_, rfl, rfl⟩
  · rw [Derivation.tree, evaluate, hs]
    rfl
  · intro i
    cases i with
    | inl a => cases a <;> rfl
    | inr b => rfl

/-! ## Products of many texts -/

/-- two lists of exponents of which one is zero in every place -/
def Separate (f g : Slot → Int) : Prop := ∀ i, f i = 0 ∨ g i = 0

/-- the sums of lists of exponents -/
def total (fs : List (Slot → Int)) : Slot → Int := fun i => (fs.map fun f => f i).sum

/-- **Products in different places.** A product of texts that spell exponents in different places spells all of them. -/
theorem Spells.product {items : List (List Char × (Slot → Int))} (hf : Spells r .factor cs f)
    (hi : ∀ x ∈ items, Spells r .power x.1 x.2) (hd : ∀ x ∈ items, Separate f x.2)
    (hp : items.Pairwise fun x y => Separate x.2 y.2) :
    Spells r .factor (cs ++ items.flatMap fun x => '*' :: x.1) fun i => f i + total (items.map Prod.snd) i := by
  induction items generalizing cs f with
  | nil => simpa [total] using hf
  | cons x items ih =>
    have hx := hi x List.mem_cons_self
    rw [List.pairwise_cons] at hp
    -- a sum of two exponents of which one is zero is one of them
    have hrange : ∀ i, InRange (f i + x.2 i) := by
      intro i
      obtain ⟨_, _, _, _, huf⟩ := hf
      obtain ⟨_, _, _, _, hug⟩ := hx
      rcases hd x List.mem_cons_self i with h | h
      · rw [h, zero_add]
        exact hug.inRange i
      · rw [h, add_zero]
        exact huf.inRange i
    have hnext := ih (hf.times hx hrange) (fun y hy => hi y (List.mem_cons_of_mem x hy)) ?_ hp.2
    · simpa [total, List.flatMap_cons, add_assoc] using hnext
    · intro y hy i
      rcases hd y (List.mem_cons_of_mem x hy) i with h | h
      · rcases hp.1 y hy i with h' | h'
        · refine Or.inl ?_
          change f i + x.2 i = 0
          rw [h, h', add_zero]
        · exact Or.inr h'
      · exact Or.inr h

/-! ## What spelled texts evaluate to -/

/-- What a spelled text evaluates to. -/
theorem Spells.evaluateText {s : String} (h : Spells r .expr s.toList f) :
    ∃ u, evaluateText r false s = .ok u ∧ u.IsExact f := by
  obtain ⟨d, hd, u, hu, huf⟩ := h
  have hreads : Reads (trim s.toList) d.leaves := by
    rw [trim_of_solid hd.solid]
    exact hd.reads
  refine ⟨titled d.tree (trimmed s) u, ?_, ?_⟩
  · rw [evaluateText_of_derivation hreads hd.short, hu]
    rfl
  · obtain ⟨he, hfactor, hoffset⟩ := huf
    cases d.tree <;> exact ⟨he, hfactor, hoffset⟩

end Expression

end UnitAlgebra

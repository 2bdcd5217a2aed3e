/-
Evaluation respects products, quotients and powers of texts. Texts that have a meaning can be put in parentheses and
joined: the joined text is read as the joined derivation, and its meaning is the product, the quotient or the power of
the meanings, as far as exponents go.

Results:
- `evaluateText_of_derivation`: the meaning of a text is that of the tree of its derivation.
- `exists_meaning`: a text with a meaning has a derivation whose tree has it.
- `reads_product`, `reads_quotient`, `reads_power`: how joined texts are read.
- `evaluateText_joined`: exponents of joined texts add, subtract and multiply, and overflow only where they must.
-/
import UnitAlgebra.Expression.Evaluate
import UnitAlgebra.Proofs.Expression.Written
import UnitAlgebra.Proofs.Unit.Arithmetic

namespace UnitAlgebra.Expression

open Text

/-! ## Meanings of texts -/

section

variable {κ : Type} [Numeric κ]

/-- the meaning of a tree under the title of the text; a lone name keeps its own -/
def titled (t : UnitExpr) (text : String) (u : UnitMeaning κ) : UnitMeaning κ :=
  match t with
  | .identifier _ => u
  | _ => { u with text := some text }

omit [Numeric κ] in
theorem dropText_titled (t : UnitExpr) (text : String) (u : UnitMeaning κ) : (titled t text u).dropText = u.dropText := by
  cases t <;> rfl

theorem parse_trimmed (text : String) : parse (trimmed text) = parse text := by
  rw [parse, trimmed_trimmed]
  rfl

theorem evaluateText_of_parse {r : Registry κ} {strict : Bool} {text : String} {t : UnitExpr} (h : parse text = .ok t) :
    evaluateText r strict text =
      ((evaluate r strict t).mapError (inExpression (trimmed text))).map (titled t (trimmed text)) := by
  simp only [evaluateText, parse_trimmed, h]
  change ((evaluate r strict t).mapError (inExpression (trimmed text)) >>= _) = _
  cases evaluate r strict t with
  | error fault => rfl
  | ok u => cases t <;> rfl

/-- The meaning of a text is that of the tree of its derivation. -/
theorem evaluateText_of_derivation {r : Registry κ} {strict : Bool} {text : String} {d : Derivation .expr}
    (h : Reads (trim text.toList) d.leaves) (hs : ∀ t ∈ d.leaves, t.Short) :
    evaluateText r strict text =
      ((evaluate r strict d.tree).mapError (inExpression (trimmed text))).map (titled d.tree (trimmed text)) :=
  evaluateText_of_parse (parse_of_derivation h hs)

/-- A text with a meaning has a derivation whose tree has it. -/
theorem exists_meaning {r : Registry κ} {strict : Bool} {text : String} {u : UnitMeaning κ}
    (h : evaluateText r strict text = .ok u) :
    ∃ d : Derivation .expr, Reads text.toList d.leaves ∧ (∀ t ∈ d.leaves, t.Short) ∧
      ∃ v, evaluate r strict d.tree = .ok v ∧ v.dropText = u.dropText := by
  cases hp : parse text with
  | error fault =>
    simp only [evaluateText, parse_trimmed, hp] at h
    cases h
  | ok t =>
    obtain ⟨d, hreads, hshort, rfl⟩ := exists_derivation hp
    rw [evaluateText_of_parse hp] at h
    cases he : evaluate r strict d.tree with
    | error fault =>
      rw [he] at h
      cases h
    | ok v =>
      rw [he] at h
      cases h
      exact ⟨d, hreads, hshort, v, he, (dropText_titled _ _ v).symm⟩

end

/-! ## Joined texts -/

/-- a derivation in parentheses -/
def Derivation.grouped (d : Derivation .expr) : Derivation .power := .plain (.group d)

def Derivation.product (d e : Derivation .expr) : Derivation .expr := .whole (.times (.single d.grouped) e.grouped)

def Derivation.quotient (d e : Derivation .expr) : Derivation .expr :=
  .per (.whole (.single d.grouped)) (.single e.grouped)

def Derivation.raise (d : Derivation .expr) (n : Int) : Derivation .expr :=
  .whole (.single (.raised (.group d) (decimalLiteral n).numeral))

theorem reads_between {cs ds : List Char} {ts us : List Terminal} {c : Char} {t : Terminal} (hm : mark? c = some t)
    (ht : Reads cs ts) (hu : Reads ds us) :
    Reads (trim (('(' :: cs ++ [')']) ++ c :: ('(' :: ds ++ [')'])))
      ((.opening :: ts ++ [.closing]) ++ t :: (.opening :: us ++ [.closing])) := by
  have hshape : ('(' :: cs ++ [')']) ++ c :: ('(' :: ds ++ [')']) = '(' :: (cs ++ ')' :: c :: '(' :: ds) ++ [')'] := by
    simp
  rw [hshape, trim_between (by decide) (by decide), ← hshape]
  exact (reads_group ht).append (.mark hm (reads_group hu)) (apart_mark hm _)

variable {e₁ e₂ : String} {d₁ d₂ : Derivation .expr}

theorem reads_product (h₁ : Reads e₁.toList d₁.leaves) (h₂ : Reads e₂.toList d₂.leaves) :
    Reads (trim ("(" ++ e₁ ++ ")*(" ++ e₂ ++ ")").toList) (d₁.product d₂).leaves := by
  have h := reads_between (c := '*') (t := .times) rfl h₁ h₂
  simpa [Derivation.product, Derivation.grouped, Derivation.leaves] using h

theorem reads_quotient (h₁ : Reads e₁.toList d₁.leaves) (h₂ : Reads e₂.toList d₂.leaves) :
    Reads (trim ("(" ++ e₁ ++ ")/(" ++ e₂ ++ ")").toList) (d₁.quotient d₂).leaves := by
  have h := reads_between (c := '/') (t := .slash) rfl h₁ h₂
  simpa [Derivation.quotient, Derivation.grouped, Derivation.leaves] using h

theorem reads_power (h₁ : Reads e₁.toList d₁.leaves) (n : Int) :
    Reads (trim ("(" ++ e₁ ++ ")^" ++ Exponent.decimal n).toList) (d₁.raise n).leaves := by
  have hnumber : Reads ('^' :: Exponent.decimalDigits n) [.caret, (decimalLiteral n).terminal] :=
    .mark rfl (reads_decimal n)
  have h := (reads_group h₁).append hnumber (apart_mark (t := .caret) rfl _)
  have htext : ("(" ++ e₁ ++ ")^" ++ Exponent.decimal n).toList =
      ('(' :: e₁.toList ++ [')', '^']) ++ Exponent.decimalDigits n := by
    simp [Exponent.decimal]
  have hstop : StopsAt isBlank (Exponent.decimalDigits n).reverse := by
    intro c hc
    have hmem : c ∈ (decimalLiteral n).chars := by
      rw [chars_decimalLiteral]
      exact List.mem_reverse.1 (List.mem_of_mem_head? hc)
    rcases (decimalLiteral n).class_of_mem hmem with hs | hd
    · exact (class_of_isSign hs).1
    · exact isBlank_of_isDecimal hd
  have htrim : trim (('(' :: e₁.toList ++ [')', '^']) ++ Exponent.decimalDigits n) =
      ('(' :: e₁.toList ++ [')', '^']) ++ Exponent.decimalDigits n := by
    refine trim_of_head_of_last (stopsAt_cons.2 (by decide)) ?_
    rw [List.reverse_append]
    exact stopsAt_append hstop (by simpa using stopsAt_cons.2 (by decide))
  rw [htext, htrim]
  simpa [Derivation.raise, Derivation.leaves, Literal.terminal] using h

theorem short_group (h : ∀ t ∈ d₁.leaves, t.Short) : ∀ t ∈ d₁.grouped.leaves, t.Short := by
  intro t ht
  simp only [Derivation.grouped, Derivation.leaves, List.mem_append, List.mem_cons, List.not_mem_nil,
    or_false] at ht
  rcases ht with (rfl | ht) | rfl
  · exact short_of_ne_integer (by simp)
  · exact h t ht
  · exact short_of_ne_integer (by simp)

theorem short_between {t : Terminal} (ht : t.Short) (h₁ : ∀ t ∈ d₁.leaves, t.Short) (h₂ : ∀ t ∈ d₂.leaves, t.Short) :
    ∀ u ∈ d₁.grouped.leaves ++ t :: d₂.grouped.leaves, u.Short := by
  intro u hu
  rcases List.mem_append.1 hu with hu | hu
  · exact short_group h₁ u hu
  · rcases List.mem_cons.1 hu with rfl | hu
    · exact ht
    · exact short_group h₂ u hu

theorem short_power (h₁ : ∀ t ∈ d₁.leaves, t.Short) {n : Int} {k : Nat} (h0 : 0 < k) (hk : k ≤ digitLimit)
    (hn : n.natAbs < 10 ^ k) :
    ∀ u ∈ (d₁.raise n).leaves, u.Short := by
  intro u hu
  have hu : u ∈ d₁.grouped.leaves ++ [.caret, (decimalLiteral n).terminal] := hu
  rcases List.mem_append.1 hu with hu | hu
  · exact short_group h₁ u hu
  · simp only [List.mem_cons, List.not_mem_nil, or_false] at hu
    rcases hu with rfl | rfl
    · exact short_of_ne_integer (by simp)
    · intro m hm
      cases hm
      exact (digits_decimalLiteral_le h0 hn).trans hk

/-! ## Meanings of joined texts -/

section

variable {κ : Type} [Numeric κ] {dims : Axis → Int} {scales : Base → Int} {exact : Prop}

theorem follows_text {r : Registry κ} {strict : Bool} {text : String} {d : Derivation .expr}
    (h : Reads (trim text.toList) d.leaves) (hs : ∀ t ∈ d.leaves, t.Short)
    (hf : UnitMeaning.Follows dims scales exact (evaluate r strict d.tree)) :
    UnitMeaning.Follows dims scales exact (evaluateText r strict text) := by
  rw [evaluateText_of_derivation h hs]
  refine hf.map (fun _ => rfl) (fun _ => rfl) fun w => ?_
  cases d.tree <;> exact ⟨rfl, rfl⟩

end

open UnitMeaning in
/-- **Evaluation is a homomorphism on texts.** The product of two texts in parentheses has the sums of their exponents,
their quotient the differences, and a power of a text the multiples, wherever there is a result. For storage units there
is one exactly when all these integers are exponents; otherwise a dimension overflows, or else a scale does. -/
theorem evaluateText_joined (r : Registry Float) (strict : Bool) (e₁ e₂ : String) (u v : UnitMeaning Float)
    (hu : evaluateText r strict e₁ = .ok u) (hv : evaluateText r strict e₂ = .ok v) (n : Int)
    (hn : n.natAbs < 10 ^ 300) :
    Follows (fun a => (u.dimension.get a).val + (v.dimension.get a).val)
      (fun b => (u.scale.get b).val + (v.scale.get b).val) (u.isStorage ∧ v.isStorage)
      (evaluateText r strict ("(" ++ e₁ ++ ")*(" ++ e₂ ++ ")")) ∧
    Follows (fun a => (u.dimension.get a).val - (v.dimension.get a).val)
      (fun b => (u.scale.get b).val - (v.scale.get b).val) (u.isStorage ∧ v.isStorage)
      (evaluateText r strict ("(" ++ e₁ ++ ")/(" ++ e₂ ++ ")")) ∧
    Follows (fun a => n * (u.dimension.get a).val) (fun b => n * (u.scale.get b).val) u.isStorage
      (evaluateText r strict ("(" ++ e₁ ++ ")^" ++ Exponent.decimal n)) := by
  obtain ⟨d₁, hreads₁, hshort₁, u', hu', htext⟩ := exists_meaning hu
  obtain ⟨d₂, hreads₂, hshort₂, v', hv', htext'⟩ := exists_meaning hv
  obtain ⟨hdim₁, hscale₁, hfactor₁, _⟩ := parts_of_dropText htext
  obtain ⟨hdim₂, hscale₂, hfactor₂, _⟩ := parts_of_dropText htext'
  rw [← hdim₁, ← hdim₂, ← hscale₁, ← hscale₂]
  have hone : ∀ {w : UnitMeaning Float}, w.isStorage = true → Numeric.isOne w.factor = true := fun h =>
    (Bool.and_eq_true_iff.1 h).1
  refine ⟨?_, ?_, ?_⟩
  · refine follows_text (reads_product hreads₁ hreads₂)
      (short_between (short_of_ne_integer (by simp)) hshort₁ hshort₂) ?_
    have htree : evaluate r strict (d₁.product d₂).tree = u'.mul v' := by
      change (evaluate r strict d₁.tree >>= fun u => evaluate r strict d₂.tree >>= fun v => u.mul v) = _
      rw [hu', hv']
      rfl
    rw [htree]
    exact follows_mul u' v' _
  · refine follows_text (reads_quotient hreads₁ hreads₂)
      (short_between (short_of_ne_integer (by simp)) hshort₁ hshort₂) ?_
    have htree : evaluate r strict (d₁.quotient d₂).tree = u'.div v' := by
      change (evaluate r strict d₁.tree >>= fun u => evaluate r strict d₂.tree >>= fun v => u.div v) = _
      rw [hu', hv']
      rfl
    rw [htree]
    refine (follows_div u' v').weaken fun h => ?_
    rw [hfactor₂]
    exact Binary64.isZero_of_isOne (hone h.2)
  · refine follows_text (reads_power hreads₁ n) (short_power hshort₁ (by decide) (by decide) hn) ?_
    have htree : evaluate r strict (d₁.raise n).tree = u'.pow n := by
      change (evaluate r strict d₁.tree >>= fun u => u.pow (decimalLiteral n).numeral.value) = _
      rw [hu', value_decimalLiteral]
      rfl
    rw [htree]
    refine (follows_pow u' n).weaken fun h => ?_
    rw [hfactor₁]
    exact ⟨1.0, Binary64.power_of_isOne (hone h) hn⟩

/-- a registry that knows the meter alone -/
def meterOnly : Registry Float :=
  { Registry.empty [] [] with
    symbols := [("m", ⟨⟨"meter", "m", [], .one, Numeric.one, Numeric.zero, .metric⟩, ⟨"Length", "L", { length := 1 }, []⟩⟩)] }

/-- the meter times itself, and a power of it that is out of range -/
theorem evaluateText_joined_meter : (-40000 : Int).natAbs < 10 ^ 300 ∧ ∃ u,
    evaluateText meterOnly false "m" = .ok u ∧
    (∃ w, evaluateText meterOnly false ("(" ++ "m" ++ ")*(" ++ "m" ++ ")") = .ok w ∧
      (w.dimension.get .length).val = 2) ∧
    ∃ cause, evaluateText meterOnly false ("(" ++ "m" ++ ")^" ++ Exponent.decimal (-40000)) =
      .error (.unit (.exponentOverflow cause)) := by
  have hn : (-40000 : Int).natAbs < 10 ^ 300 := by decide +kernel
  have hm : evaluateText meterOnly false "m" =
      .ok ⟨{ length := 1 }, .one, Numeric.one, Numeric.zero, some "m"⟩ := by
    rw [evaluateText_of_parse (show parse "m" = .ok (.identifier "m") by decide +kernel)]
    rfl
  have hone : UnitMeaning.isStorage (⟨{ length := 1 }, .one, Numeric.one, Numeric.zero, some "m"⟩ : UnitMeaning Float) :=
    by decide +kernel
  obtain ⟨hproduct, _, hpower⟩ := evaluateText_joined meterOnly false "m" "m" _ _ hm hm (-40000) hn
  refine ⟨hn, _, hm, ?_, hpower.dimensionOverflow hone ⟨.length, by decide⟩⟩
  obtain ⟨w, hw⟩ := (hproduct.returns ⟨hone, hone⟩).2 ⟨fun a => by cases a <;> decide, fun b => by cases b <;> decide⟩
  exact ⟨w, hw, (hproduct.exponents w hw).1 .length⟩

end UnitAlgebra.Expression

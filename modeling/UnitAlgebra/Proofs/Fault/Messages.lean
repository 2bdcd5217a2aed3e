/-
The vectors in messages. A message names dimensions and scales between words of its own; what stands behind a vector
begins with a character that no text of a vector has, so each vector is found again. Where the catalog has a family of
the dimension, the text stands in brackets behind the name of the family, and no name is mistaken for a text.

Results:
- `Dimension.eq_of_describe_append`: a dimension is found where a message goes on with its description.
- `UnitError.message_injective`, `Fault.message_injective`: faults that differ in vectors have different messages.
- `displays_unambiguous`: no two vectors are written, told of in a message or looked up alike.
-/
import UnitAlgebra.Fault.Message
import UnitAlgebra.Proofs.Registry.Derived

namespace UnitAlgebra

/-! ## What stands behind a vector -/

def isDelimiter (c : Char) : Bool := c = ' ' || c = ',' || c = ':'

/-- the end of a message, or what goes on with a delimiter -/
def Delimited (s : String) : Prop := s.toList.head?.all isDelimiter = true

instance (s : String) : Decidable (Delimited s) := inferInstanceAs (Decidable (_ = true))

theorem delimited_append {s t : String} (hne : s ≠ "") (h : Delimited s) : Delimited (s ++ t) := by
  unfold Delimited
  rw [String.toList_append, List.head?_append_of_ne_nil _ (mt String.toList_eq_nil_iff.1 hne)]
  exact h

theorem isDelimiter_of_head? {s : String} (h : Delimited s) {c : Char} (hc : s.toList.head? = some c) :
    isDelimiter c = true := by
  unfold Delimited at h
  rwa [hc] at h

theorem Delimited.stopsAt {s : String} (h : Delimited s) : Text.StopsAt isDisplayed s.toList := by
  intro c hc
  have hdelimiter := isDelimiter_of_head? h hc
  simp only [isDelimiter, Bool.or_eq_true, decide_eq_true_eq] at hdelimiter
  rcases hdelimiter with (rfl | rfl) | rfl <;> decide

theorem Scale.eq_of_delimited {s t : Scale} {x y : String} (hx : Delimited x) (hy : Delimited y)
    (h : s.text ++ x = t.text ++ y) : s = t ∧ x = y := by
  have hlist : s.text.toList ++ x.toList = t.text.toList ++ y.toList := by
    rw [← String.toList_append, h, String.toList_append]
  obtain ⟨hst, hxy⟩ := eq_of_text_append hx.stopsAt hy.stopsAt hlist
  exact ⟨hst, String.toList_injective hxy⟩

/-! ## Descriptions of dimensions -/

namespace Dimension

variable {d e : Dimension} {x y : String}

theorem eq_of_delimited (hx : Delimited x) (hy : Delimited y) (h : d.text ++ x = e.text ++ y) : d = e ∧ x = y := by
  have hlist : d.text.toList ++ x.toList = e.text.toList ++ y.toList := by
    rw [← String.toList_append, h, String.toList_append]
  obtain ⟨hde, hxy⟩ := eq_of_text_append hx.stopsAt hy.stopsAt hlist
  exact ⟨hde, String.toList_injective hxy⟩

/-- a name that has no bracket, and goes on with another character than a delimiter where it cannot be read as a text -/
def IsTitle (name : String) : Prop :=
  '(' ∉ name.toList ∧ (name.toList.dropWhile isDisplayed).head?.any (fun c => !isDelimiter c) = true

instance (name : String) : Decidable (IsTitle name) := by
  unfold IsTitle
  infer_instance

theorem isTitle_of_familyName? {name : String} (h : Catalog.familyName? d = some name) : IsTitle name := by
  have hall : ∀ f ∈ (Catalog.families : List (UnitFamily Float)), IsTitle f.name := by decide +kernel
  obtain ⟨f, hf, rfl⟩ := Option.map_eq_some_iff.1 h
  exact hall f (List.mem_of_find?_eq_some hf)

theorem text_append_ne {name : String} (h : IsTitle name) (hx : Delimited x) : d.text ++ x ≠ name ++ y := by
  intro heq
  obtain ⟨c, hc, hother⟩ := (Option.any_eq_true _ _).1 h.2
  have hlist : d.text.toList ++ x.toList = name.toList ++ y.toList := by
    rw [← String.toList_append, heq, String.toList_append]
  have hrest := congrArg (List.dropWhile isDisplayed) hlist
  rw [Text.dropWhile_run (fun _ => isDisplayed_of_mem) hx.stopsAt, List.dropWhile_append] at hrest
  rw [if_neg (by intro hnil; rw [List.isEmpty_iff.1 hnil] at hc; cases hc)] at hrest
  have hdelimiter := isDelimiter_of_head? hx (by rw [hrest, List.head?_append, hc]; rfl)
  rw [hdelimiter] at hother
  cases hother

/-- names end at their brackets, and then texts at theirs -/
theorem eq_of_title_append {name name' : String} (hname : IsTitle name) (hname' : IsTitle name')
    (h : name ++ (" (" ++ (d.text ++ (")" ++ x))) = name' ++ (" (" ++ (e.text ++ (")" ++ y)))) : d = e ∧ x = y := by
  have hbracket : ∀ {n : String}, IsTitle n → ∀ c ∈ n.toList ++ [' '], (c != '(') = true := by
    intro n hn c hc
    rcases List.mem_append.1 hc with hc | hc
    · exact bne_iff_ne.2 (ne_of_mem_of_not_mem hc hn.1)
    · obtain rfl := List.mem_singleton.1 hc
      decide
  have hlist := congrArg String.toList h
  simp only [String.toList_append] at hlist
  have hsplit : (name.toList ++ [' ']) ++ '(' :: (d.text.toList ++ ')' :: x.toList) =
      (name'.toList ++ [' ']) ++ '(' :: (e.text.toList ++ ')' :: y.toList) := by
    rw [List.append_assoc, List.append_assoc]
    exact hlist
  obtain ⟨-, htext⟩ := Text.run_injective (hbracket hname) (hbracket hname') (Text.stopsAt_cons.2 (by decide))
    (Text.stopsAt_cons.2 (by decide)) hsplit
  obtain ⟨hde, hrest⟩ := eq_of_text_append (Text.stopsAt_cons.2 (by decide)) (Text.stopsAt_cons.2 (by decide))
    (List.cons.inj htext).2
  exact ⟨hde, String.toList_injective (List.cons.inj hrest).2⟩

/-- A dimension is found where a message goes on with its description. -/
theorem eq_of_describe_append (hx : Delimited x) (hy : Delimited y) (h : d.describe ++ x = e.describe ++ y) :
    d = e ∧ x = y := by
  unfold describe at h
  cases hd : Catalog.familyName? d with
  | none =>
    cases he : Catalog.familyName? e with
    | none =>
      rw [hd, he] at h
      exact eq_of_delimited hx hy h
    | some name =>
      simp only [hd, he, String.append_assoc] at h
      exact absurd h (text_append_ne (isTitle_of_familyName? he) hx)
  | some name =>
    cases he : Catalog.familyName? e with
    | none =>
      simp only [hd, he, String.append_assoc] at h
      exact absurd h.symm (text_append_ne (isTitle_of_familyName? hd) hy)
    | some name' =>
      simp only [hd, he, String.append_assoc] at h
      exact eq_of_title_append (isTitle_of_familyName? hd) (isTitle_of_familyName? he) h

end Dimension

/-! ## Faults that differ in vectors -/

namespace DimensionOverflow

/-- the same overflow, of other dimensions -/
inductive Alike : DimensionOverflow → DimensionOverflow → Prop where
  | same (o : DimensionOverflow) : Alike o o
  | product (d e d' e' : Dimension) : Alike (.product d e) (.product d' e')
  | power (d d' : Dimension) (exponent : String) : Alike (.power d exponent) (.power d' exponent)

theorem text_injective {o p : DimensionOverflow} (h : Alike o p) (heq : o.text = p.text) : o = p := by
  cases h with
  | same => rfl
  | product d e d' e' =>
    delta text at heq
    simp only [String.append_assoc, String.append_right_inj] at heq
    obtain ⟨rfl, hrest⟩ := Dimension.eq_of_delimited (delimited_append (by decide) (by decide))
      (delimited_append (by decide) (by decide)) heq
    rw [String.append_right_inj] at hrest
    rw [Dimension.text_injective hrest]
  | power d d' exponent =>
    delta text at heq
    simp only [String.append_assoc] at heq
    obtain ⟨rfl, -⟩ := Dimension.eq_of_delimited (delimited_append (by decide) (by decide))
      (delimited_append (by decide) (by decide)) heq
    rfl

end DimensionOverflow

namespace ScaleOverflow

/-- the same overflow, of other scales -/
inductive Alike : ScaleOverflow → ScaleOverflow → Prop where
  | same (o : ScaleOverflow) : Alike o o
  | product (s t s' t' : Scale) : Alike (.product s t) (.product s' t')
  | power (s s' : Scale) (exponent : String) : Alike (.power s exponent) (.power s' exponent)
  | value (s s' : Scale) : Alike (.value s) (.value s')

theorem text_injective {o p : ScaleOverflow} (h : Alike o p) (heq : o.text = p.text) : o = p := by
  cases h with
  | same => rfl
  | product s t s' t' =>
    delta text at heq
    simp only [String.append_assoc, String.append_right_inj] at heq
    obtain ⟨rfl, hrest⟩ := Scale.eq_of_delimited (delimited_append (by decide) (by decide))
      (delimited_append (by decide) (by decide)) heq
    rw [String.append_right_inj] at hrest
    rw [Scale.text_injective hrest]
  | power s s' exponent =>
    delta text at heq
    simp only [String.append_assoc, String.append_right_inj] at heq
    obtain ⟨rfl, -⟩ := Scale.eq_of_delimited (delimited_append (by decide) (by decide))
      (delimited_append (by decide) (by decide)) heq
    rfl
  | value s s' =>
    rw [Scale.text_injective ((String.append_right_inj _).1 heq)]

end ScaleOverflow

namespace UnitError

/-- the same error, of other vectors -/
inductive Alike : UnitError → UnitError → Prop where
  | same (e : UnitError) : Alike e e
  | dimensionMismatch (d e d' e' : Dimension) (o : Option Operation) :
    Alike (.dimensionMismatch d e o) (.dimensionMismatch d' e' o)
  | scaleMismatch (s t s' t' : Scale) (o : Option Operation) : Alike (.scaleMismatch s t o) (.scaleMismatch s' t' o)
  | invalidTextUnit (text : String) {e f : UnitError} (h : Alike e f) :
    Alike (.invalidTextUnit text e) (.invalidTextUnit text f)
  | invalidMappingUnit (unit : String) {e f : UnitError} (h : Alike e f) :
    Alike (.invalidMappingUnit unit e) (.invalidMappingUnit unit f)
  | exponentOverflow {o p : DimensionOverflow} (h : o.Alike p) : Alike (.exponentOverflow o) (.exponentOverflow p)
  | scaleOverflow {o p : ScaleOverflow} (h : o.Alike p) : Alike (.scaleOverflow o) (.scaleOverflow p)

theorem eq_of_describe_pair {d e d' e' : Dimension} {between : String} (hne : between ≠ "")
    (hbetween : Delimited between)
    (h : d.describe ++ (between ++ e.describe) = d'.describe ++ (between ++ e'.describe)) : d = d' ∧ e = e' := by
  have hdelimited : ∀ x, Delimited (between ++ x) := fun x => delimited_append hne hbetween
  obtain ⟨hd, hrest⟩ := Dimension.eq_of_describe_append (hdelimited _) (hdelimited _) h
  rw [String.append_right_inj] at hrest
  have hend : e.describe ++ "" = e'.describe ++ "" := by rw [hrest]
  exact ⟨hd, (Dimension.eq_of_describe_append (by decide) (by decide) hend).1⟩

/-- Errors that differ in vectors have different messages. -/
theorem message_injective {e f : UnitError} (h : Alike e f) (heq : e.message = f.message) : e = f := by
  induction h with
  | same => rfl
  | dimensionMismatch d e d' e' o =>
    cases o with
    | none =>
      delta message at heq
      simp only [String.append_assoc, String.append_right_inj] at heq
      obtain ⟨rfl, rfl⟩ := eq_of_describe_pair (by decide) (by decide) heq
      rfl
    | some o =>
      delta message at heq
      simp only [String.append_assoc, String.append_right_inj] at heq
      obtain ⟨rfl, rfl⟩ := eq_of_describe_pair (by decide) (by decide) heq
      rfl
  | scaleMismatch s t s' t' o =>
    delta message at heq
    simp only [String.append_assoc, String.append_right_inj] at heq
    obtain ⟨rfl, hrest⟩ := Scale.eq_of_delimited (delimited_append (by decide) (by decide))
      (delimited_append (by decide) (by decide)) heq
    rw [String.append_right_inj] at hrest
    obtain ⟨rfl, -⟩ := Scale.eq_of_delimited (by decide) (by decide) hrest
    rfl
  | invalidTextUnit text h ih =>
    rw [ih ((String.append_right_inj _).1 heq)]
  | invalidMappingUnit unit h ih =>
    rw [ih ((String.append_right_inj _).1 heq)]
  | exponentOverflow h =>
    rw [DimensionOverflow.text_injective h ((String.append_right_inj _).1 heq)]
  | scaleOverflow h =>
    rw [ScaleOverflow.text_injective h ((String.append_right_inj _).1 heq)]

end UnitError

namespace ValueFault

/-- the same fault, of another dimension -/
inductive Alike : ValueFault → ValueFault → Prop where
  | same (f : ValueFault) : Alike f f
  | powerNotInteger (d e : Dimension) (exponent : String) :
    Alike (.powerNotInteger d exponent) (.powerNotInteger e exponent)
  | root (d e : Dimension) (order : String) : Alike (.root d order) (.root e order)
  | exponentNotRational (function : String) (d e : Dimension) :
    Alike (.exponentNotRational function d) (.exponentNotRational function e)

theorem message_injective {f g : ValueFault} (h : Alike f g) (heq : f.message = g.message) : f = g := by
  cases h with
  | same => rfl
  | powerNotInteger d e exponent =>
    delta message at heq
    simp only [String.append_assoc, String.append_right_inj] at heq
    obtain ⟨rfl, -⟩ := Dimension.eq_of_delimited (delimited_append (by decide) (by decide))
      (delimited_append (by decide) (by decide)) heq
    rfl
  | root d e order =>
    have htext : d.text = e.text := by
      delta message at heq
      dsimp only at heq
      split at heq
      · exact (String.append_right_inj _).1 heq
      · split at heq <;> exact (String.append_right_inj _).1 heq
    rw [Dimension.text_injective htext]
  | exponentNotRational function d e =>
    delta message at heq
    simp only [String.append_assoc, String.append_right_inj] at heq
    obtain ⟨rfl, -⟩ := Dimension.eq_of_describe_append (by decide) (by decide) heq
    rfl

end ValueFault

namespace Fault

/-- the same fault, of other vectors -/
inductive Alike : Fault → Fault → Prop where
  | same (f : Fault) : Alike f f
  | unit {e f : UnitError} (h : e.Alike f) : Alike (.unit e) (.unit f)
  | badValue {f g : ValueFault} (h : f.Alike g) : Alike (.badValue (some f)) (.badValue (some g))

/-- Faults that differ in vectors have different messages. -/
theorem message_injective {f g : Fault} (h : Alike f g) (heq : f.message = g.message) : f = g := by
  cases h with
  | same => rfl
  | unit h => rw [UnitError.message_injective h (Option.some.inj heq)]
  | badValue h => rw [ValueFault.message_injective h (Option.some.inj heq)]

end Fault

theorem Conflict.dimension_injective {first second : String} {d e : Dimension}
    (h : (sharedDimension first second d).message = (sharedDimension first second e).message) : d = e :=
  Dimension.text_injective ((String.append_right_inj _).1 h)

/-! ## Displays -/

/-- **Displays of vectors are unambiguous.** No two dimensions and no two scales are written alike. So two faults that
differ in their vectors have different messages, and so have two conflicts; no two dimensions have the same text where
texts are compared as names of families, and the text of a dimension finds the family that the dimension finds. -/
theorem displays_unambiguous :
    (∀ d e : Dimension, d.text = e.text → d = e) ∧ (∀ s t : Scale, s.text = t.text → s = t) ∧
      (∀ f g : Fault, f.Alike g → f.message = g.message → f = g) ∧
        (∀ first second (d e : Dimension), (Conflict.sharedDimension first second d).message =
          (Conflict.sharedDimension first second e).message → d = e) ∧
          (∀ d e : Dimension, Spelling.familyName d.text = Spelling.familyName e.text → d = e) ∧
            ∀ d : Dimension, Catalog.registry.findFamily? d.text = Catalog.registry.familyOf? d :=
  ⟨fun _ _ => Dimension.text_injective, fun _ _ => Scale.text_injective, fun _ _ => Fault.message_injective,
    fun _ _ _ _ => Conflict.dimension_injective, fun _ _ => Dimension.key_injective,
    Registry.findFamily?_text Catalog.derived _ _⟩

/-- one dimension in place of another is seen in the message, and the two forms of a thousand are one scale -/
theorem displays_unambiguous_length :
    (Fault.mismatch { length := 1 } { time := 1 } .add).message ≠
        (Fault.mismatch { length := 1 } { mass := 1 } .add).message ∧
      (⟨3, 0, 3, 0⟩ : Scale) = .ten 3 := by
  obtain ⟨-, hscales, hfaults, -⟩ := displays_unambiguous
  constructor
  · intro h
    have heq := hfaults _ _ (.unit (.dimensionMismatch _ _ _ _ _)) h
    exact absurd heq (by decide)
  · exact hscales _ _ rfl

end UnitAlgebra

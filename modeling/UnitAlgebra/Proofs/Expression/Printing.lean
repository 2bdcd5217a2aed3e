/-
Printed trees are read back. A tree is printed for the rule of the grammar that its outermost operation has: a quotient
for expressions, a product for factors, a power for powers, a leaf for atoms. Where a tighter rule is due the printer
puts parentheses, which stand for atoms.

Results:
- `Prints.loosen`: what is printed for a rule does for all looser rules.
- `Prints.fitted`: an operand does for the rule that is due, in parentheses or without.
- `prints_text`: a tree is printed for the rule of its outermost operation.
- `evaluateText_text`: a printed tree denotes what the tree does.
- `parse_text`: a printed tree is parsed to itself.
-/
import UnitAlgebra.Proofs.Expression.Composition

namespace UnitAlgebra.Expression

open Text

/-! ## What can be written -/

/-- an integer with no more digits than may be read -/
def Writable (n : Int) : Prop := (Nat.toDigits 10 n.natAbs).length ≤ digitLimit

instance (n : Int) : Decidable (Writable n) := inferInstanceAs (Decidable (_ ≤ _))

/-- a tree with names of letters and with integers that can be read -/
def Printable : UnitExpr → Prop
  | .identifier name => name.toList ≠ [] ∧ name.toList.all isNameChar = true
  | .integer value => Writable value
  | .mul left right | .div left right => Printable left ∧ Printable right
  | .pow base exponent => Printable base ∧ Writable exponent

instance Printable.decide : (t : UnitExpr) → Decidable (Printable t)
  | .identifier _ => inferInstanceAs (Decidable (_ ∧ _))
  | .integer _ => inferInstanceAs (Decidable (Writable _))
  | .mul left right | .div left right =>
    have := Printable.decide left
    have := Printable.decide right
    inferInstanceAs (Decidable (_ ∧ _))
  | .pow base _ =>
    have := Printable.decide base
    inferInstanceAs (Decidable (_ ∧ _))

theorem Writable.short {n : Int} (h : Writable n) : (decimalLiteral n).terminal.Short := by
  intro m hm
  cases hm
  rw [Literal.digits_numeral]
  exact h

/-! ## Texts of trees -/

/-- a text is read as a tree by a rule of the grammar -/
def Prints (k : Category) (cs : List Char) (t : UnitExpr) : Prop := ∃ d : Derivation k, Writes cs d ∧ d.tree = t

variable {cs ds : List Char} {s t : UnitExpr}

theorem Prints.plain (h : Prints .atom cs t) : Prints .power cs t := by
  obtain ⟨d, hd, rfl⟩ := h
  exact ⟨.plain d, hd.plain, rfl⟩

theorem Prints.single (h : Prints .power cs t) : Prints .factor cs t := by
  obtain ⟨d, hd, rfl⟩ := h
  exact ⟨.single d, hd.single, rfl⟩

theorem Prints.whole (h : Prints .factor cs t) : Prints .expr cs t := by
  obtain ⟨d, hd, rfl⟩ := h
  exact ⟨.whole d, hd.whole, rfl⟩

theorem Prints.group (h : Prints .expr cs t) : Prints .atom ('(' :: cs ++ [')']) t := by
  obtain ⟨d, hd, rfl⟩ := h
  exact ⟨.group d, hd.group, rfl⟩

theorem Prints.times (hs : Prints .factor cs s) (ht : Prints .power ds t) :
    Prints .factor (cs ++ '*' :: ds) (.mul s t) := by
  obtain ⟨d, hd, rfl⟩ := hs
  obtain ⟨e, he, rfl⟩ := ht
  exact ⟨.times d e, hd.between (t := .times) rfl (short_of_ne_integer (by simp)) he rfl, rfl⟩

theorem Prints.per (hs : Prints .expr cs s) (ht : Prints .factor ds t) :
    Prints .expr (cs ++ '/' :: ds) (.div s t) := by
  obtain ⟨d, hd, rfl⟩ := hs
  obtain ⟨e, he, rfl⟩ := ht
  exact ⟨.per d e, hd.between (t := .slash) rfl (short_of_ne_integer (by simp)) he rfl, rfl⟩

theorem Prints.raised (ht : Prints .atom cs t) {n : Int} (hn : Writable n) :
    Prints .power (cs ++ '^' :: Exponent.decimalDigits n) (.pow t n) := by
  obtain ⟨d, hd, rfl⟩ := ht
  exact ⟨.raised d (decimalLiteral n).numeral, hd.raised hn.short, by rw [Derivation.tree, value_decimalLiteral]⟩

/-! ## Rules by how tight they bind -/

/-- expressions bind loosest, and atoms tightest -/
def Category.tightness : Category → Nat
  | .expr => 0
  | .factor => 1
  | .power => 2
  | .atom => 3

/-- What is printed for a rule does for all looser rules. -/
theorem Prints.loosen {j k : Category} (h : Prints j cs t) (hk : k.tightness ≤ j.tightness) : Prints k cs t := by
  match j, k with
  | .expr, .expr | .factor, .factor | .power, .power | .atom, .atom => exact h
  | .factor, .expr => exact h.whole
  | .power, .factor => exact h.single
  | .power, .expr => exact h.single.whole
  | .atom, .power => exact h.plain
  | .atom, .factor => exact h.plain.single
  | .atom, .expr => exact h.plain.single.whole
  | .expr, .factor | .expr, .power | .expr, .atom | .factor, .power | .factor, .atom | .power, .atom =>
    exact absurd hk (by decide)

/-- the rule of the outermost operation of a tree -/
def category : UnitExpr → Category
  | .identifier _ | .integer _ => .atom
  | .mul _ _ => .factor
  | .div _ _ => .expr
  | .pow _ _ => .power

theorem tightness_of_not_div (h : t.isDiv = false) : Category.factor.tightness ≤ (category t).tightness := by
  cases t with
  | div => cases h
  | _ => simp [category, Category.tightness]

theorem tightness_of_not_mul_div (h : (t.isMul || t.isDiv) = false) :
    Category.power.tightness ≤ (category t).tightness := by
  cases t with
  | mul | div => cases h
  | _ => simp [category, Category.tightness]

theorem tightness_of_leaf (h : (t.isMul || t.isDiv || t.isPow) = false) :
    Category.atom.tightness ≤ (category t).tightness := by
  cases t with
  | mul | div | pow => cases h
  | _ => simp [category, Category.tightness]

/-- An operand does for the rule that is due, in parentheses or without. -/
theorem Prints.fitted {k : Category} {needed : Bool} (h : Prints (category t) t.text.toList t)
    (hk : needed = false → k.tightness ≤ (category t).tightness) :
    Prints k (UnitExpr.parenthesized needed t.text).toList t := by
  cases needed with
  | false => exact h.loosen (hk rfl)
  | true =>
    have hgroup : Prints .atom ('(' :: t.text.toList ++ [')']) t := (h.loosen (Nat.zero_le _)).group
    have htext : (UnitExpr.parenthesized true t.text).toList = '(' :: t.text.toList ++ [')'] := by
      simp [UnitExpr.parenthesized]
    rw [htext]
    exact hgroup.loosen (by cases k <;> decide)

/-! ## Printed trees -/

theorem toList_decimal (n : Int) : (Exponent.decimal n).toList = Exponent.decimalDigits n := String.toList_ofList

theorem prints_integer {n : Nat} (hn : Writable n) : Prints .atom (Exponent.decimalDigits n) (.integer n) :=
  ⟨.integer n (Nat.toDigits 10 n).length, writes_integer hn.short, rfl⟩

/-- A tree is printed for the rule of its outermost operation. -/
theorem prints_text (h : Printable t) : Prints (category t) t.text.toList t := by
  induction t with
  | identifier name => exact ⟨.name name, writes_name h.1 h.2, rfl⟩
  | integer value =>
    rw [UnitExpr.text, toList_decimal]
    exact prints_integer h
  | mul left right hleft hright =>
    have hfirst : Prints .factor (UnitExpr.parenthesized left.isDiv left.text).toList left :=
      (hleft h.1).fitted tightness_of_not_div
    have hsecond : Prints .power (UnitExpr.parenthesized (right.isMul || right.isDiv) right.text).toList right :=
      (hright h.2).fitted tightness_of_not_mul_div
    simpa [UnitExpr.text, category] using hfirst.times hsecond
  | div left right hleft hright =>
    have hfirst : Prints .expr left.text.toList left := (hleft h.1).loosen (Nat.zero_le _)
    have hsecond : Prints .factor (UnitExpr.parenthesized right.isDiv right.text).toList right :=
      (hright h.2).fitted tightness_of_not_div
    simpa [UnitExpr.text, category] using hfirst.per hsecond
  | pow base exponent hbase =>
    have hfirst :
        Prints .atom (UnitExpr.parenthesized (base.isMul || base.isDiv || base.isPow) base.text).toList base :=
      (hbase h.1).fitted tightness_of_leaf
    simpa [UnitExpr.text, category, toList_decimal] using hfirst.raised h.2

theorem evaluateText_text {κ : Type} [Numeric κ] {r : Registry κ} {strict : Bool} (h : Printable t) :
    evaluateText r strict t.text =
      ((evaluate r strict t).mapError (inExpression (trimmed t.text))).map (titled t (trimmed t.text)) := by
  obtain ⟨d, hd, rfl⟩ := (prints_text h).loosen (k := .expr) (Nat.zero_le _)
  refine evaluateText_of_derivation ?_ hd.short
  rw [trim_of_solid hd.solid]
  exact hd.reads

/-- **Printing and parsing.** A printed tree is parsed to itself: nothing is lost by the parentheses that are left out,
and nothing by those that are put in. -/
theorem parse_text (h : Printable t) : parse t.text = .ok t := by
  obtain ⟨d, hd, htree⟩ := (prints_text h).loosen (k := .expr) (Nat.zero_le _)
  have hreads : Reads (trim t.text.toList) d.leaves := by
    rw [trim_of_solid hd.solid]
    exact hd.reads
  rw [parse_of_derivation hreads hd.short, htree]

/-- operations on either side of others, with and without need for parentheses -/
def nested : UnitExpr :=
  .mul (.div (.identifier "a") (.div (.identifier "b") (.mul (.identifier "c") (.div (.identifier "d") (.integer 2)))))
    (.mul (.pow (.pow (.identifier "x") 2) (-3)) (.pow (.mul (.identifier "y") (.identifier "z")) 0))

theorem parse_text_nested : Printable nested ∧ nested.text = "(a/(b/c*(d/2)))*((x^2)^-3*(y*z)^0)" ∧
    parse "(a/(b/c*(d/2)))*((x^2)^-3*(y*z)^0)" = .ok nested := by
  have h : Printable nested := by decide
  have htext : nested.text = "(a/(b/c*(d/2)))*((x^2)^-3*(y*z)^0)" := by decide
  refine ⟨h, htext, ?_⟩
  rw [← htext]
  exact parse_text h

end UnitAlgebra.Expression

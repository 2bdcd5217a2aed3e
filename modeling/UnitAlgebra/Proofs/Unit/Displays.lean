/-
The texts of vectors. A product of powers is written as its bases with superscript exponents, joined by dots; bases
without an exponent are left out, and the exponent one is not written. It can still be read: dots stand in no power,
superscripts stand in no base, and so every power is found again, with its base and its exponent. A text that is written
for another reason, the `1` of a vector without exponents or the superscript of a ten, begins with no base.

Results:
- `Exponent.product_injective`: exponents can be read off a product of legible bases.
- `Dimension.text_injective`, `Scale.text_injective`: no two vectors are written alike.
- `Dimension.key_injective`: nor are two dimensions, where texts are compared as names of families.
- `Dimension.eq_of_text_append`, `Scale.eq_of_text_append`: a vector is found at the beginning of a longer text.
-/
import UnitAlgebra.Proofs.Text.Case

namespace UnitAlgebra

/-! ## Products of powers -/

theorem mem_of_mem_intercalate {α : Type} {sep : List α} {parts : List (List α)} {c : α}
    (h : c ∈ sep.intercalate parts) : c ∈ sep ∨ ∃ p ∈ parts, c ∈ p := by
  induction parts with
  | nil => simp at h
  | cons p parts ih =>
    cases parts with
    | nil => exact .inr ⟨p, List.mem_cons_self, by simpa using h⟩
    | cons q rest =>
      rw [List.intercalate_cons_cons, List.mem_append, List.mem_append] at h
      rcases h with (h | h) | h
      · exact .inr ⟨p, List.mem_cons_self, h⟩
      · exact .inl h
      · exact (ih h).imp_right fun ⟨t, ht, hc⟩ => ⟨t, List.mem_cons_of_mem _ ht, hc⟩

theorem map_intercalate {α β : Type} (g : α → β) (sep : List α) (parts : List (List α)) :
    (sep.intercalate parts).map g = (sep.map g).intercalate (parts.map (List.map g)) := by
  induction parts with
  | nil => rfl
  | cons p parts ih =>
    cases parts with
    | nil => simp
    | cons q rest => simpa [List.intercalate_cons_cons] using ih

namespace Exponent

/-- a digit or the sign of a superscript -/
def isRaised (c : Char) : Bool := "⁻⁰¹²³⁴⁵⁶⁷⁸⁹".toList.contains c

/-- what is written behind a base -/
def mark (a : Exponent) : List Char := if a.val = 1 then [] else (decimalDigits a.val).map raised

theorem toList_power (base : String) (a : Exponent) : (power base a).toList = base.toList ++ a.mark := by
  unfold power mark
  split
  · simp
  · simp [superscript]

theorem isRaised_raised {c : Char} (h : c = '-' ∨ c.isDigit = true) : isRaised (raised c) = true := by
  rcases h with rfl | h
  · decide
  · have hc : c.toNat < 58 ∧ 48 ≤ c.toNat := by
      simp only [Char.isDigit, Bool.and_eq_true, decide_eq_true_eq, UInt32.le_iff_toNat_le] at h
      exact ⟨Nat.lt_succ_of_le h.2, h.1⟩
    have hall : ∀ v < 58, 48 ≤ v → isRaised (raised (Char.ofNat v)) = true := by decide
    simpa [Char.ofNat_toNat] using hall c.toNat hc.1 hc.2

theorem digit_of_mem_decimalDigits {n : Int} {c : Char} (h : c ∈ decimalDigits n) : c = '-' ∨ c.isDigit = true := by
  unfold decimalDigits at h
  split at h
  · rcases List.mem_cons.1 h with rfl | h
    · exact .inl rfl
    · exact .inr (isDigit_of_mem_toDigits h)
  · exact .inr (isDigit_of_mem_toDigits h)

theorem isRaised_of_mem_mark {a : Exponent} {c : Char} (h : c ∈ a.mark) : isRaised c = true := by
  unfold mark at h
  split at h
  · cases h
  · obtain ⟨d, hd, rfl⟩ := List.mem_map.1 h
    exact isRaised_raised (digit_of_mem_decimalDigits hd)

theorem decimalDigits_ne_nil (n : Int) : decimalDigits n ≠ [] := by
  unfold decimalDigits
  split
  · exact List.cons_ne_nil _ _
  · exact Nat.toDigits_ne_nil

theorem mark_injective {a b : Exponent} (h : a.mark = b.mark) : a = b := by
  unfold mark at h
  split at h <;> split at h
  · next ha hb => exact Exponent.ext (ha.trans hb.symm)
  · exact absurd (List.map_eq_nil_iff.1 h.symm) (decimalDigits_ne_nil _)
  · exact absurd (List.map_eq_nil_iff.1 h) (decimalDigits_ne_nil _)
  · exact Exponent.ext (superscript_injective (congrArg String.ofList h))

section

variable {ι : Type}

/-- spellings of bases that can be told from one another, from exponents and from what joins powers -/
structure Legible (spelling : ι → List Char) : Prop where
  nonempty : ∀ i, spelling i ≠ []
  plain : ∀ i, ∀ c ∈ spelling i, isRaised c = false ∧ c ≠ '·'
  apart : ∀ i j, spelling i = spelling j → i = j

theorem plain_of_all {cs : List Char} (h : cs.all (fun c => !isRaised c && c != '·') = true) :
    ∀ c ∈ cs, isRaised c = false ∧ c ≠ '·' := by
  intro c hc
  simpa using List.all_eq_true.1 h c hc

/-- the powers of a product, one for every base that has an exponent -/
def powers (bases : List ι) (spelling : ι → List Char) (f : ι → Exponent) : List (List Char) :=
  (bases.filter fun i => (f i).val ≠ 0).map fun i => spelling i ++ (f i).mark

/-- the powers, joined by dots -/
def product (bases : List ι) (spelling : ι → List Char) (f : ι → Exponent) : List Char :=
  List.intercalate ['·'] (powers bases spelling f)

variable {bases : List ι} {spelling : ι → List Char} {f g : ι → Exponent}

theorem mem_powers {p : List Char} :
    p ∈ powers bases spelling f ↔ ∃ i ∈ bases, (f i).val ≠ 0 ∧ spelling i ++ (f i).mark = p := by
  simp only [powers, List.mem_map, List.mem_filter, decide_eq_true_eq, and_assoc]

/-- a power is a base with an exponent in one way only -/
theorem Legible.power_injective (h : Legible spelling) {i j : ι} {a b : Exponent}
    (heq : spelling i ++ a.mark = spelling j ++ b.mark) : i = j ∧ a = b := by
  have hplain : ∀ k, ∀ c ∈ spelling k, (!isRaised c) = true := by
    intro k c hc
    simp [(h.plain k c hc).1]
  have hstop : ∀ e : Exponent, Text.StopsAt (fun c => !isRaised c) e.mark := by
    intro e c hc
    simp [isRaised_of_mem_mark (List.mem_of_mem_head? hc)]
  obtain ⟨hspelling, hmark⟩ := Text.run_injective (hplain i) (hplain j) (hstop a) (hstop b) heq
  exact ⟨h.apart i j hspelling, mark_injective hmark⟩

theorem isRaised_dot : isRaised '·' = false := by decide

theorem Legible.dot_notMem (h : Legible spelling) : ∀ p ∈ powers bases spelling f, '·' ∉ p := by
  intro p hp
  obtain ⟨i, -, -, rfl⟩ := mem_powers.1 hp
  intro hdot
  rcases List.mem_append.1 hdot with hdot | hdot
  · exact (h.plain i _ hdot).2 rfl
  · have := isRaised_of_mem_mark hdot
    rw [isRaised_dot] at this
    cases this

theorem powers_ne_nil {i : ι} (hi : i ∈ bases) (hf : (f i).val ≠ 0) : powers bases spelling f ≠ [] :=
  List.ne_nil_of_mem (mem_powers.2 ⟨i, hi, hf, rfl⟩)

/-- **Exponents can be read off a product** in which there are any. -/
theorem product_injective (h : Legible spelling) (hbases : ∀ i, i ∈ bases) (hf : powers bases spelling f ≠ [])
    (hg : powers bases spelling g ≠ []) (heq : product bases spelling f = product bases spelling g) : f = g := by
  have hpowers : powers bases spelling f = powers bases spelling g := by
    rw [← List.splitOn_intercalate '·' h.dot_notMem hf, ← List.splitOn_intercalate '·' h.dot_notMem hg]
    exact congrArg _ heq
  -- a base with an exponent on one side has the same one on the other
  have hside : ∀ {u v : ι → Exponent}, powers bases spelling u = powers bases spelling v →
      ∀ i, (u i).val ≠ 0 → u i = v i := by
    intro u v huv i hi
    have hmem : spelling i ++ (u i).mark ∈ powers bases spelling v := huv ▸ mem_powers.2 ⟨i, hbases i, hi, rfl⟩
    obtain ⟨j, -, -, hj⟩ := mem_powers.1 hmem
    obtain ⟨rfl, hvalue⟩ := h.power_injective hj
    exact hvalue.symm
  funext i
  by_cases hi : (f i).val = 0
  · by_cases hj : (g i).val = 0
    · exact Exponent.ext (hi.trans hj.symm)
    · exact (hside hpowers.symm i hj).symm
  · exact hside hpowers i hi

theorem exists_head_product (h : Legible spelling) (hf : powers bases spelling f ≠ []) :
    ∃ i, ∃ c ∈ (spelling i).head?, c ∈ (product bases spelling f).head? := by
  obtain ⟨p, ps, hpowers⟩ := List.exists_cons_of_ne_nil hf
  obtain ⟨i, -, -, hp⟩ := mem_powers.1 (hpowers ▸ List.mem_cons_self)
  obtain ⟨c, cs, hspelling⟩ := List.exists_cons_of_ne_nil (h.nonempty i)
  refine ⟨i, c, by simp [hspelling], ?_⟩
  rw [product, hpowers, ← hp, hspelling]
  cases ps with
  | nil => simp
  | cons q qs => simp

theorem mem_product {c : Char} (h : c ∈ product bases spelling f) :
    c = '·' ∨ isRaised c = true ∨ ∃ i, c ∈ spelling i := by
  rcases mem_of_mem_intercalate h with hdot | ⟨p, hp, hc⟩
  · exact .inl (List.mem_singleton.1 hdot)
  · obtain ⟨i, -, -, rfl⟩ := mem_powers.1 hp
    rcases List.mem_append.1 hc with hc | hc
    · exact .inr (.inr ⟨i, hc⟩)
    · exact .inr (.inl (isRaised_of_mem_mark hc))

theorem map_product {g : Char → Char} (hdot : g '·' = '·') (hraised : ∀ c, isRaised c = true → g c = c) :
    (product bases spelling f).map g = product bases (fun i => (spelling i).map g) f := by
  have hmark : ∀ a : Exponent, a.mark.map g = a.mark := fun a =>
    (List.map_congr_left fun c hc => hraised c (isRaised_of_mem_mark hc)).trans a.mark.map_id
  rw [product, product, map_intercalate, List.map_singleton, hdot, powers, powers, List.map_map]
  congr 2
  funext i
  simp [hmark]

end

end Exponent

/-! ## Dimensions -/

namespace Axis

theorem legible : Exponent.Legible fun a : Axis => a.symbol.toList where
  nonempty := by rintro ⟨⟩ <;> decide
  plain := by rintro ⟨⟩ <;> exact Exponent.plain_of_all (by decide)
  apart := by rintro ⟨⟩ ⟨⟩ <;> decide

/-- the symbols of the axes in small letters can still be told from one another -/
theorem legible_small : Exponent.Legible fun a : Axis => a.symbol.toList.map Text.small where
  nonempty := by rintro ⟨⟩ <;> decide
  plain := by rintro ⟨⟩ <;> exact Exponent.plain_of_all (by decide +kernel)
  apart := by rintro ⟨⟩ ⟨⟩ <;> decide +kernel

end Axis

namespace Dimension

/-- the characters of a dimension, with the given spellings of its axes -/
def displayed (spelling : Axis → List Char) (d : Dimension) : List Char :=
  if d = one then ['1'] else Exponent.product Axis.all spelling d.get

theorem toList_text (d : Dimension) : d.text.toList = d.displayed fun a => a.symbol.toList := by
  unfold text isOne displayed
  by_cases h : d = one
  · simp [h]
  · simp [h, Exponent.product, Exponent.powers, Exponent.toList_power, Function.comp_def]

variable {spelling : Axis → List Char} {d e : Dimension}

theorem powers_ne_nil (h : d ≠ one) : Exponent.powers Axis.all spelling d.get ≠ [] := by
  by_contra hnil
  refine h (ext_get fun a => Exponent.ext ?_)
  by_contra ha
  have hone : (one.get a).val = 0 := by cases a <;> rfl
  exact Exponent.powers_ne_nil a.mem_all (hone ▸ ha) hnil

theorem displayed_injective (h : Exponent.Legible spelling) (hone : ∀ a, '1' ∉ spelling a)
    (heq : d.displayed spelling = e.displayed spelling) : d = e := by
  -- no product is read as the dimension of bare numbers
  have hapart : ∀ {u : Dimension}, u ≠ one → ['1'] ≠ Exponent.product Axis.all spelling u.get := by
    intro u hu hproduct
    have hpowers : Exponent.powers Axis.all spelling u.get ≠ [] := powers_ne_nil hu
    obtain ⟨a, c, hspelling, hc⟩ := Exponent.exists_head_product h hpowers
    rw [← hproduct] at hc
    obtain rfl : '1' = c := by simpa using hc
    exact hone a (List.mem_of_mem_head? hspelling)
  unfold displayed at heq
  split at heq <;> split at heq
  · next hd he => exact hd.trans he.symm
  · next he => exact absurd heq (hapart he)
  · next hd he => exact absurd heq.symm (hapart hd)
  · next hd he =>
    have hget := Exponent.product_injective h Axis.mem_all (powers_ne_nil hd) (powers_ne_nil he) heq
    exact ext_get fun a => congrFun hget a

/-- **No two dimensions are written alike.** -/
theorem text_injective (h : d.text = e.text) : d = e := by
  refine displayed_injective Axis.legible (by rintro ⟨⟩ <;> decide) ?_
  rw [← toList_text, ← toList_text, h]

theorem map_displayed {g : Char → Char} (hone : g '1' = '1') (hdot : g '·' = '·')
    (hraised : ∀ c, Exponent.isRaised c = true → g c = c) :
    (d.displayed spelling).map g = d.displayed fun a => (spelling a).map g := by
  unfold displayed
  split
  · simp [hone]
  · exact Exponent.map_product hdot hraised

end Dimension

/-! ## Scales -/

namespace Base

theorem legible : Exponent.Legible fun b : Base => b.symbol.toList where
  nonempty := by rintro ⟨⟩ <;> decide
  plain := by rintro ⟨⟩ <;> exact Exponent.plain_of_all (by decide)
  apart := by rintro ⟨⟩ ⟨⟩ <;> decide

end Base

namespace Scale

variable {s t : Scale}

/-- the powers of a scale that is no power of ten -/
def product (s : Scale) : List Char := Exponent.product Base.all (fun b => b.symbol.toList) s.get

theorem toList_text_cases (s : Scale) : (s = one ∧ s.text.toList = ['1']) ∨
    (∃ n, s.log10? = some n ∧ s.text.toList = '1' :: '0' :: (Exponent.superscript n).toList) ∨
      s ≠ one ∧ s.text.toList = s.product := by
  unfold text isOne
  by_cases h : s = one
  · exact .inl ⟨h, by simp [h]⟩
  · cases hten : s.log10? with
    | some n => exact .inr (.inl ⟨n, rfl, by simp [h]⟩)
    | none =>
      refine .inr (.inr ⟨h, ?_⟩)
      simp [h, product, Exponent.product, Exponent.powers, Exponent.toList_power, Function.comp_def]

theorem powers_ne_nil (h : s ≠ one) : Exponent.powers Base.all (fun b => b.symbol.toList) s.get ≠ [] := by
  by_contra hnil
  refine h (ext_get fun b => Exponent.ext ?_)
  by_contra hb
  have hone : (one.get b).val = 0 := by cases b <;> rfl
  exact Exponent.powers_ne_nil b.mem_all (hone ▸ hb) hnil

theorem head?_product (h : s ≠ one) : s.product.head? ≠ some '1' := by
  obtain ⟨b, c, hspelling, hc⟩ := Exponent.exists_head_product Base.legible (powers_ne_nil h)
  intro hone
  obtain rfl : c = '1' := Option.some.inj (hc.symm.trans hone)
  revert hspelling
  cases b <;> decide

theorem eq_of_log10? {n : Int} (hs : s.log10? = some n) (ht : t.log10? = some n) : s = t := by
  have hten : ∀ {u : Scale}, u.log10? = some n → u.two.val = n ∧ u.five.val = n ∧ u.three.val = 0 ∧ u.pi.val = 0 := by
    intro u hu
    unfold log10? at hu
    split at hu
    · next h =>
      obtain ⟨htwo, hthree, hpi⟩ := h
      cases hu
      exact ⟨rfl, congrArg Exponent.val htwo.symm, congrArg Exponent.val hthree, congrArg Exponent.val hpi⟩
    · cases hu
  obtain ⟨hstwo, hsfive, hsthree, hspi⟩ := hten hs
  obtain ⟨httwo, htfive, htthree, htpi⟩ := hten ht
  refine ext_get fun b => Exponent.ext ?_
  cases b with
  | two => exact hstwo.trans httwo.symm
  | three => exact hsthree.trans htthree.symm
  | five => exact hsfive.trans htfive.symm
  | pi => exact hspi.trans htpi.symm

/-- **No two scales are written alike.** -/
theorem text_injective (h : s.text = t.text) : s = t := by
  rcases toList_text_cases s with ⟨hone, hs⟩ | ⟨n, hn, hs⟩ | ⟨hs', hs⟩ <;>
    rcases toList_text_cases t with ⟨hone', ht⟩ | ⟨m, hm, ht⟩ | ⟨ht', ht⟩ <;>
      have hlist := hs.symm.trans ((congrArg String.toList h).trans ht)
  · exact hone.trans hone'.symm
  · cases hlist
  · exact absurd (hlist ▸ rfl) (head?_product ht')
  · cases hlist
  · have hexponent : n = m := Exponent.superscript_injective (String.toList_injective (by simpa using hlist))
    exact eq_of_log10? hn (hexponent ▸ hm)
  · exact absurd (hlist ▸ rfl) (head?_product ht')
  · exact absurd (hlist ▸ rfl) (head?_product hs')
  · exact absurd (hlist ▸ rfl) (head?_product hs')
  · have hget := Exponent.product_injective Base.legible Base.mem_all (powers_ne_nil hs') (powers_ne_nil ht') hlist
    exact ext_get fun b => congrFun hget b

end Scale

/-! ## Texts of vectors within longer texts -/

/-- the characters that texts of vectors are made of -/
def displayedChars : List Char := "⁻⁰¹²³⁴⁵⁶⁷⁸⁹·10235πMLTIθNCdA".toList

def isDisplayed (c : Char) : Bool := displayedChars.contains c

theorem isDisplayed_of_isRaised {c : Char} (h : Exponent.isRaised c = true) : isDisplayed c = true := by
  have hall : "⁻⁰¹²³⁴⁵⁶⁷⁸⁹".toList.all isDisplayed = true := by decide
  exact List.all_eq_true.1 hall c (List.contains_iff_mem.1 h)

namespace Dimension

theorem isDisplayed_of_mem {d : Dimension} {c : Char} (h : c ∈ d.text.toList) : isDisplayed c = true := by
  have hsymbols : ∀ a : Axis, a.symbol.toList.all isDisplayed = true := by rintro ⟨⟩ <;> decide
  rw [toList_text] at h
  unfold displayed at h
  split at h
  · obtain rfl := List.mem_singleton.1 h
    decide
  · rcases Exponent.mem_product h with rfl | hraised | ⟨a, ha⟩
    · decide
    · exact isDisplayed_of_isRaised hraised
    · exact List.all_eq_true.1 (hsymbols a) c ha

/-- A dimension is found at the beginning of a longer text. -/
theorem eq_of_text_append {d e : Dimension} {r s : List Char} (hr : Text.StopsAt isDisplayed r)
    (hs : Text.StopsAt isDisplayed s) (h : d.text.toList ++ r = e.text.toList ++ s) : d = e ∧ r = s := by
  obtain ⟨htext, hrest⟩ := Text.run_injective (fun _ => isDisplayed_of_mem) (fun _ => isDisplayed_of_mem) hr hs h
  exact ⟨text_injective (String.toList_injective htext), hrest⟩

theorem toList_key (d : Dimension) : (Spelling.familyName d.text).toList = d.text.toList.map Text.small := by
  have hchars : displayedChars.all (fun c => Text.isSimple c && !Text.isDropped (Text.small c)) = true := by
    decide +kernel
  have htext : ∀ c ∈ d.text.toList, Text.isSimple c = true ∧ (!Text.isDropped (Text.small c)) = true := fun c hc =>
    Bool.and_eq_true_iff.1 (List.all_eq_true.1 hchars c (List.contains_iff_mem.1 (isDisplayed_of_mem hc)))
  rw [Text.toList_familyName fun c hc => (htext c hc).1, List.filter_eq_self.2]
  intro c hc
  obtain ⟨b, hb, rfl⟩ := List.mem_map.1 hc
  exact (htext b hb).2

/-- **No two dimensions have the same text where texts are compared as names of families.** -/
theorem key_injective {d e : Dimension} (h : Spelling.familyName d.text = Spelling.familyName e.text) : d = e := by
  have hraised : ∀ c, Exponent.isRaised c = true → Text.small c = c := by
    have hall : "⁻⁰¹²³⁴⁵⁶⁷⁸⁹".toList.all (fun c => Text.small c == c) = true := by decide +kernel
    exact fun c hc => beq_iff_eq.1 (List.all_eq_true.1 hall c (List.contains_iff_mem.1 hc))
  have hkey : ∀ d : Dimension, (Spelling.familyName d.text).toList =
      d.displayed fun a => a.symbol.toList.map Text.small := by
    intro d
    rw [toList_key, toList_text]
    exact map_displayed (by decide) (by decide +kernel) hraised
  refine displayed_injective Axis.legible_small (by rintro ⟨⟩ <;> decide +kernel) ?_
  rw [← hkey, ← hkey, h]

/-- a letter that texts are not compared by -/
def isForeign (c : Char) : Bool := !(Text.isDropped c || "⁻⁰¹²³⁴⁵⁶⁷⁸⁹·10235πmltiθncda".toList.contains c)

/-- a name with a letter of its own is not compared as a text -/
theorem key_ne {d : Dimension} {name : String} (hname : name.toList.all Text.isSimple = true)
    (hletter : (name.toList.map Text.small).any isForeign = true) :
    Spelling.familyName d.text ≠ Spelling.familyName name := by
  have hchars : displayedChars.all (fun c => !isForeign (Text.small c)) = true := by decide +kernel
  intro hkey
  obtain ⟨c, hc, hforeign⟩ := List.any_eq_true.1 hletter
  have hkept : (!Text.isDropped c) = true := by
    simp only [isForeign, Bool.not_or, Bool.and_eq_true] at hforeign
    exact hforeign.1
  have hmem : c ∈ (Spelling.familyName name).toList := by
    rw [Text.toList_familyName (List.all_eq_true.1 hname)]
    exact List.mem_filter.2 ⟨hc, hkept⟩
  rw [← hkey, toList_key] at hmem
  obtain ⟨b, hb, rfl⟩ := List.mem_map.1 hmem
  have hdisplayed := List.all_eq_true.1 hchars b (List.contains_iff_mem.1 (isDisplayed_of_mem hb))
  rw [hforeign] at hdisplayed
  cases hdisplayed

end Dimension

namespace Scale

theorem isDisplayed_of_mem {s : Scale} {c : Char} (h : c ∈ s.text.toList) : isDisplayed c = true := by
  have hsymbols : ∀ b : Base, b.symbol.toList.all isDisplayed = true := by rintro ⟨⟩ <;> decide
  rcases toList_text_cases s with ⟨-, hs⟩ | ⟨n, -, hs⟩ | ⟨-, hs⟩ <;> rw [hs] at h
  · obtain rfl := List.mem_singleton.1 h
    decide
  · simp only [Exponent.superscript, String.toList_ofList, List.mem_cons, List.mem_map] at h
    rcases h with rfl | rfl | ⟨b, hb, rfl⟩
    · decide
    · decide
    · exact isDisplayed_of_isRaised (Exponent.isRaised_raised (Exponent.digit_of_mem_decimalDigits hb))
  · rcases Exponent.mem_product h with rfl | hraised | ⟨b, hb⟩
    · decide
    · exact isDisplayed_of_isRaised hraised
    · exact List.all_eq_true.1 (hsymbols b) c hb

/-- A scale is found at the beginning of a longer text. -/
theorem eq_of_text_append {s t : Scale} {r r' : List Char} (hr : Text.StopsAt isDisplayed r)
    (hr' : Text.StopsAt isDisplayed r') (h : s.text.toList ++ r = t.text.toList ++ r') : s = t ∧ r = r' := by
  obtain ⟨htext, hrest⟩ := Text.run_injective (fun _ => isDisplayed_of_mem) (fun _ => isDisplayed_of_mem) hr hr' h
  exact ⟨text_injective (String.toList_injective htext), hrest⟩

end Scale

end UnitAlgebra

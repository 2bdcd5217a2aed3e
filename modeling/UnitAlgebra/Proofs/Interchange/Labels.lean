/-
The label beside a number. A quantity that is written in a unit is its number in that unit with a label behind it:
the text that the unit was written with, or else the name of the storage unit; a format shows the symbol of the unit.
The label of a text, and its symbol, mean what the text means. A unit that has lost its text is labelled by its storage
unit, so that its factor is lost, and a unit whose offset was taken away keeps the text that it had before.

Results:
- `exists_label`, `Catalog.exists_symbolOf`: the label and the symbol of a text mean the unit of the text.
- `Obtained.kept`: what the text says that an obtained unit keeps.
- `toText_eq_ok_iff`, `toMapping_eq_ok_iff`, `writtenAs_eq_ok_iff`: what a quantity is written as, in a unit.
- `labels_mean`: what the labels mean that are written beside numbers.
- `labels_mislead`: a label that denotes another unit than the number is in.
-/
import UnitAlgebra.Proofs.Catalog.Display
import UnitAlgebra.Proofs.Expression.Strictness
import UnitAlgebra.Proofs.Interchange.RoundTrip
import UnitAlgebra.Proofs.Quantity.Layers

namespace UnitAlgebra

open Expression Catalog

/-! ## Meanings -/

variable {u v w : UnitMeaning Float} {text label : String}

theorem Means.unique (hu : Means text u) (hv : Means text v) : u.dropText = v.dropText := by
  obtain ⟨w, hw, huw⟩ := hu
  obtain ⟨w', hw', hvw⟩ := hv
  cases hw.symm.trans hw'
  exact huw.symm.trans hvw

theorem means_storage {d : Dimension} {s : Scale} (h : Naming.unitName registry d s = .ok text) :
    Means text (.stored d s) := by
  obtain ⟨⟨d', s', factor, offset, title⟩, hw, rfl, rfl, rfl, rfl⟩ := Naming.names_of_spells (Naming.spells_unitName h)
  exact ⟨_, hw, rfl⟩

/-! ## Units without a text -/

namespace UnitMeaning

variable {κ : Type} [Numeric κ] {x y : UnitMeaning κ} {n : Int}

/-- products have neither a text nor an offset -/
theorem bare_of_mul {z : UnitMeaning κ} (h : x.mul y = .ok z) : z.text = none ∧ z.offset = Numeric.zero := by
  obtain ⟨d, -, h⟩ := Outcome.bind_eq_ok_iff.1 h
  obtain ⟨s, -, h⟩ := Outcome.bind_eq_ok_iff.1 h
  cases h
  exact ⟨rfl, rfl⟩

theorem bare_of_div {z : UnitMeaning κ} (h : x.div y = .ok z) : z.text = none ∧ z.offset = Numeric.zero := by
  obtain ⟨d, -, h⟩ := Outcome.bind_eq_ok_iff.1 h
  obtain ⟨s, -, h⟩ := Outcome.bind_eq_ok_iff.1 h
  split at h
  · cases h
  · cases h
    exact ⟨rfl, rfl⟩

/-- only the first power keeps what a unit was written as -/
theorem bare_of_pow (h : x.pow n = .ok y) : y = x ∨ y.text = none ∧ y.offset = Numeric.zero := by
  unfold pow at h
  split at h
  · cases h
    exact .inl rfl
  · obtain ⟨d, -, h⟩ := Outcome.bind_eq_ok_iff.1 h
    obtain ⟨s, -, h⟩ := Outcome.bind_eq_ok_iff.1 h
    obtain ⟨f, -, h⟩ := Outcome.bind_eq_ok_iff.1 h
    cases h
    exact .inr ⟨rfl, rfl⟩

end UnitMeaning

/-! ## What a unit keeps -/

/-- the text that a unit keeps says the unit, or the unit before its offset was taken away; one without a text has no
offset -/
structure Kept (u : UnitMeaning Float) : Prop where
  titled : ∀ text, u.text = some text → ∃ v, Means text v ∧ (u = v ∨ u = v.withoutOffset)
  untitled : u.text = none → u.offset = Numeric.zero

theorem kept_of_bare (h : u.text = none ∧ u.offset = Numeric.zero) : Kept u := by
  refine ⟨fun text htext => ?_, fun _ => h.2⟩
  rw [h.1] at htext
  cases htext

theorem kept_of_means (htext : u.text = some text) (h : Means text u) : Kept u := by
  refine ⟨fun s hs => ?_, fun hnone => ?_⟩
  · cases htext.symm.trans hs
    exact ⟨u, h, .inl rfl⟩
  · cases htext.symm.trans hnone

/-- a tree of names evaluates to a unit that is the name, or that has neither a text nor an offset -/
theorem kept_of_evaluate {t : UnitExpr} (hn : ∀ s ∈ t.identifiers, IsName s.toList) {strict : Bool}
    (h : evaluate registry strict t = .ok u) : Kept u := by
  induction t generalizing u with
  | identifier name =>
    obtain ⟨hresolve, htext⟩ := resolve_of_strict h
    have hname := hn name (List.mem_singleton_self name)
    exact kept_of_means htext ⟨u, evaluateText_name hname hresolve, rfl⟩
  | integer value =>
    obtain ⟨s, -, h⟩ := Outcome.bind_eq_ok_iff.1 h
    cases h
    exact kept_of_bare ⟨rfl, rfl⟩
  | mul left right _ _ =>
    obtain ⟨v, -, h⟩ := Outcome.bind_eq_ok_iff.1 h
    obtain ⟨w, -, h⟩ := Outcome.bind_eq_ok_iff.1 h
    exact kept_of_bare (UnitMeaning.bare_of_mul h)
  | div left right _ _ =>
    obtain ⟨v, -, h⟩ := Outcome.bind_eq_ok_iff.1 h
    obtain ⟨w, -, h⟩ := Outcome.bind_eq_ok_iff.1 h
    exact kept_of_bare (UnitMeaning.bare_of_div h)
  | pow base n ih =>
    obtain ⟨v, hv, h⟩ := Outcome.bind_eq_ok_iff.1 h
    rcases UnitMeaning.bare_of_pow h with rfl | hbare
    · exact ih hn hv
    · exact kept_of_bare hbare

theorem exists_title {strict : Bool} (h : evaluateText registry strict text = .ok u) :
    ∃ title, u.text = some title ∧ Means title u := by
  cases hp : parse text with
  | error fault =>
    simp only [evaluateText, parse_trimmed, hp] at h
    cases h
  | ok t =>
    rw [evaluateText_of_parse hp] at h
    cases he : evaluate registry strict t with
    | error fault =>
      rw [he] at h
      cases h
    | ok v =>
      rw [he] at h
      have htitled : titled t (Text.trimmed text) v = u := Except.ok.inj h
      have hwhole : evaluateText registry false (Text.trimmed text) = .ok u := by
        rw [evaluateText_of_parse ((parse_trimmed text).trans hp), evaluate_of_strict he, trimmed_trimmed]
        exact congrArg Except.ok htitled
      cases t with
      | identifier name =>
        subst htitled
        obtain ⟨hresolve, htext⟩ := resolve_of_strict he
        have hname := isName_of_parse hp (List.mem_singleton_self name)
        exact ⟨name, htext, v, evaluateText_name hname hresolve, rfl⟩
      | _ => exact ⟨Text.trimmed text, by rw [← htitled]; rfl, u, hwhole, rfl⟩

/-- **The label of a text means the unit of the text.** -/
theorem exists_label (h : evaluateText registry false text = .ok u) :
    ∃ label, u.label registry = .ok label ∧ Means label u := by
  obtain ⟨title, htitle, hmeans⟩ := exists_title h
  exact ⟨title, by rw [UnitMeaning.label, htitle], hmeans⟩

/-! ## Units that are obtained -/

/-- units that are got from texts: by evaluating a text, or the tree of one, and by operations on such units -/
inductive Obtained : UnitMeaning Float → Prop where
  | text {strict : Bool} {text : String} {u : UnitMeaning Float} (h : evaluateText registry strict text = .ok u) :
    Obtained u
  | tree {strict : Bool} {text : String} {t : UnitExpr} {u : UnitMeaning Float} (hp : parse text = .ok t)
    (h : evaluate registry strict t = .ok u) : Obtained u
  | mul {u v w : UnitMeaning Float} (hu : Obtained u) (hv : Obtained v) (h : u.mul v = .ok w) : Obtained w
  | div {u v w : UnitMeaning Float} (hu : Obtained u) (hv : Obtained v) (h : u.div v = .ok w) : Obtained w
  | pow {u w : UnitMeaning Float} {n : Int} (hu : Obtained u) (h : u.pow n = .ok w) : Obtained w
  | storage {u : UnitMeaning Float} (hu : Obtained u) : Obtained u.storage
  | withoutOffset {u : UnitMeaning Float} (hu : Obtained u) : Obtained u.withoutOffset

/-- **What the text says that an obtained unit keeps.** -/
theorem Obtained.kept (h : Obtained u) : Kept u := by
  induction h with
  | text h =>
    obtain ⟨title, htitle, hmeans⟩ := exists_title h
    exact kept_of_means htitle hmeans
  | tree hp h => exact kept_of_evaluate (fun s hs => isName_of_parse hp hs) h
  | mul _ _ h _ _ => exact kept_of_bare (UnitMeaning.bare_of_mul h)
  | div _ _ h _ _ => exact kept_of_bare (UnitMeaning.bare_of_div h)
  | pow _ h ih =>
    rcases UnitMeaning.bare_of_pow h with rfl | hbare
    · exact ih
    · exact kept_of_bare hbare
  | storage _ _ => exact kept_of_bare ⟨rfl, rfl⟩
  | withoutOffset _ ih =>
    refine ⟨fun text htext => ?_, fun _ => rfl⟩
    obtain ⟨v, hv, hu⟩ := ih.titled text htext
    refine ⟨v, hv, .inr ?_⟩
    rcases hu with rfl | rfl <;> rfl

/-- the label of a unit with a text means the unit as it was written, and so the unit itself only with its offset -/
theorem label_titled (hkept : Kept u) (htext : u.text = some text) (h : u.label registry = .ok label) :
    ∃ v, Means label v ∧ (u = v ∨ u = v.withoutOffset) ∧ (Means label u ↔ u.offset = v.offset) := by
  obtain ⟨v, hmeans, hu⟩ := hkept.titled text htext
  have hlabel : text = label := by
    rw [UnitMeaning.label, htext] at h
    exact Except.ok.inj h
  subst hlabel
  refine ⟨v, hmeans, hu, fun hu' => (UnitMeaning.parts_of_dropText (hu'.unique hmeans)).2.2.2, fun hoffset => ?_⟩
  rcases hu with rfl | rfl
  · exact hmeans
  · have hsame : v.withoutOffset = v := by
      obtain ⟨d, s, factor, offset, title⟩ := v
      cases hoffset
      rfl
    rwa [hsame]

/-- the label of a unit without a text means its storage unit, and so the unit itself only if it has no factor -/
theorem label_untitled (hkept : Kept u) (htext : u.text = none) (h : u.label registry = .ok label) :
    Means label u.storage ∧ u.offset = Numeric.zero ∧ (Means label u ↔ u.factor = Numeric.one) := by
  have hname : Naming.unitName registry u.dimension u.scale = .ok label := by rwa [UnitMeaning.label, htext] at h
  have hstorage : Means label u.storage := means_storage hname
  have hoffset := hkept.untitled htext
  refine ⟨hstorage, hoffset, fun hmeans => ?_, fun hfactor => ?_⟩
  · exact congrArg UnitMeaning.factor (hmeans.unique hstorage)
  · obtain ⟨d, s, factor, offset, title⟩ := u
    cases hfactor
    cases hoffset
    exact hstorage

/-! ## What is written -/

namespace Session

variable {c : Context Float} {m m' : Store Float} {q : Quantity (Operand Float)} {x out : Operand Float}
  {written : String}

/-- a quantity as a text: its number in a unit, and a label -/
def IsText (c : Context Float) (m : Store Float) (q : Quantity (Operand Float)) (x : Operand Float) (label : String)
    (written : String) (m' : Store Float) : Prop :=
  q.value.rank m = 0 ∧ ∃ value a, expressedIn q x c m = .ok (value, m') ∧ value.toNumber m' = .ok a ∧
    written = Decimal.text a ++ " " ++ label

/-- a quantity as a mapping: its plain value in a unit, and a label -/
def IsMapping (c : Context Float) (m : Store Float) (q : Quantity (Operand Float)) (x : Operand Float) (label : String)
    (out : Operand Float) (m' : Store Float) : Prop :=
  ∃ value y m₁, expressedIn q x c m = .ok (value, m₁) ∧ plainValue value c m₁ = .ok (y, m') ∧
    out = .mapping [("value", y), ("unit", .text label)]

/-- a quantity in a format: its value in a unit, and a symbol -/
def IsFormatted (c : Context Float) (m : Store Float) (q : Quantity (Operand Float)) (x : Operand Float)
    (symbol : String) (written : String) (m' : Store Float) : Prop :=
  ∃ value shown m₁, expressedIn q x c m = .ok (value, m₁) ∧ formatted value [] c m₁ = .ok (shown, m') ∧
    written = shown ++ " " ++ symbol

theorem unitOf_of_meaning (hx : x.meaning c.registry = .ok u) : unitOf x c m = .ok (u, m) := by
  have h := tells_unitOf (c := c) (m := m) x
  rw [Tells, hx] at h
  exact h

theorem label_eq_ok_iff : Session.label u c m = .ok (label, m') ↔ u.label c.registry = .ok label ∧ m = m' :=
  lift_eq_ok_iff (c := c)

theorem sharedValue_of_meaning (hx : x.meaning c.registry = .ok u) : sharedValue q x = expressedIn q x := by
  cases x with
  | absent => cases hx
  | _ => rfl

theorem sharedName_eq_ok_iff (hx : x.meaning c.registry = .ok u) :
    sharedName q x c m = .ok (label, m') ↔ u.label c.registry = .ok label ∧ m = m' := by
  have hlabel : sharedName q x = (do Session.label (← unitOf x)) := by
    cases x with
    | absent => cases hx
    | _ => rfl
  rw [hlabel, bind_of_ok (unitOf_of_meaning hx), label_eq_ok_iff]

/-- A single quantity is written as its number in the unit, with the label of the unit. -/
theorem toText_eq_ok_iff (hx : x.meaning c.registry = .ok u) :
    toText q x c m = .ok (written, m') ↔ ∃ label, u.label c.registry = .ok label ∧ IsText c m q x label written m' := by
  have hrun : q.value.rank m = 0 → toText q x c m = (do
      let value ← expressedIn q x
      let number ← value.toNumber (← get)
      return Decimal.text number ++ " " ++ (← sharedName q x) : Session Float String) c m := by
    intro hrank
    unfold toText
    refine (bind_of_ok (get_eq_ok c m)).trans ?_
    simp only [hrank, ne_eq, not_true, if_false, sharedValue_of_meaning hx]
  constructor
  · intro h
    by_cases hrank : q.value.rank m = 0
    · rw [hrun hrank] at h
      obtain ⟨value, m₁, hvalue, h⟩ := bind_eq_ok_iff.1 h
      rw [bind_of_ok (get_eq_ok c m₁)] at h
      obtain ⟨a, m₂, ha, h⟩ := bind_eq_ok_iff.1 h
      obtain ⟨hnumber, rfl⟩ := lift_eq_ok_iff.1 ha
      obtain ⟨name, m₃, hname, h⟩ := bind_eq_ok_iff.1 h
      obtain ⟨hlabel, rfl⟩ := (sharedName_eq_ok_iff hx).1 hname
      cases h
      exact ⟨name, hlabel, hrank, value, a, hvalue, hnumber, rfl⟩
    · unfold toText at h
      rw [bind_of_ok (get_eq_ok c m)] at h
      simp only [hrank, ne_eq, not_false_eq_true, if_true] at h
      cases h
  · rintro ⟨name, hname, hrank, value, a, hvalue, ha, rfl⟩
    rw [hrun hrank, bind_of_ok hvalue, bind_of_ok (get_eq_ok c m'), bind_of_ok (lift_eq_ok_iff.2 ⟨ha, rfl⟩)]
    exact bind_of_ok ((sharedName_eq_ok_iff hx).2 ⟨hname, rfl⟩)

/-- A quantity is shared as its plain value in the unit, with the label of the unit. -/
theorem toMapping_eq_ok_iff (hx : x.meaning c.registry = .ok u) :
    toMapping q x c m = .ok (out, m') ↔ ∃ label, u.label c.registry = .ok label ∧ IsMapping c m q x label out m' := by
  unfold toMapping
  rw [sharedValue_of_meaning hx]
  constructor
  · intro h
    obtain ⟨value, m₁, hvalue, h⟩ := bind_eq_ok_iff.1 h
    obtain ⟨y, m₂, hy, h⟩ := bind_eq_ok_iff.1 h
    obtain ⟨name, m₃, hname, h⟩ := bind_eq_ok_iff.1 h
    obtain ⟨hlabel, rfl⟩ := (sharedName_eq_ok_iff hx).1 hname
    cases h
    exact ⟨name, hlabel, value, y, m₁, hvalue, hy, rfl⟩
  · rintro ⟨name, hname, value, y, m₁, hvalue, hy, rfl⟩
    rw [bind_of_ok hvalue, bind_of_ok hy]
    exact bind_of_ok ((sharedName_eq_ok_iff hx).2 ⟨hname, rfl⟩)

/-! ## Formats -/

theorem colon_notMem (h : evaluateText c.registry false text = .ok u) : ':' ∉ text.toList ∧ text.toList ≠ [] := by
  obtain ⟨d, hreads, -⟩ := exists_meaning h
  refine ⟨fun hcolon => ?_, fun hnil => ?_⟩
  · have := hreads.isReadable hcolon
    revert this
    decide
  · rw [hnil] at hreads
    exact d.leaves_ne_nil hreads.eq_nil

/-- A quantity is formatted in a unit as its value, with the symbol of the unit. -/
theorem writtenAs_eq_ok_iff (h : evaluateText c.registry false text = .ok u) {symbol : String}
    (hs : ∀ m, symbolOf text c m = .ok (symbol, m)) :
    writtenAs q (text ++ ":") c m = .ok (written, m') ↔ IsFormatted c m q (.text text) symbol written m' := by
  obtain ⟨hcolon, hne⟩ := colon_notMem h
  obtain ⟨a, as, htext⟩ := List.exists_cons_of_ne_nil hne
  have hsplit : QuantityFormat.split (text ++ ":").toList = ⟨some text.toList, []⟩ := by
    rw [htext] at hcolon
    have := QuantityFormat.split_colon hcolon []
    rw [String.toList_append, htext]
    exact this
  have hrun : writtenAs q (text ++ ":") = (do
      let value ← expressedIn q (.text text)
      let symbol ← symbolOf text
      return (← formatted value []) ++ " " ++ symbol) := by
    simp only [writtenAs, hsplit, String.ofList_toList]
  rw [hrun]
  constructor
  · intro h
    obtain ⟨value, m₁, hvalue, h⟩ := bind_eq_ok_iff.1 h
    rw [bind_of_ok (hs m₁)] at h
    obtain ⟨shown, m₂, hshown, h⟩ := bind_eq_ok_iff.1 h
    cases h
    exact ⟨value, shown, m₁, hvalue, hshown, rfl⟩
  · rintro ⟨value, shown, m₁, hvalue, hshown, rfl⟩
    rw [bind_of_ok hvalue, bind_of_ok (hs m₁), bind_of_ok hshown]
    rfl

/-! ## What labels mean -/

/-- **What the labels mean that are written beside numbers.** With the built-in registry, a quantity that is written in
a unit is its number in that unit with the label of the unit, as a text and as a mapping. The label of a text, and the
symbol that a format shows for it, mean the unit of the text. The label of an obtained unit that keeps a text means the
unit, or the unit before its offset was taken away. Without a text, the label means the storage unit: it is right
exactly if the unit has no factor. -/
theorem labels_mean (p : ScalePolicy) (m : Store Float) (q : Quantity (Operand Float)) :
    let c : Context Float := ⟨p, Catalog.registry⟩
    (∀ (x : Operand Float) (u : UnitMeaning Float), x.meaning Catalog.registry = .ok u → ∀ m',
      (∀ written, toText q x c m = .ok (written, m') ↔
        ∃ label, u.label Catalog.registry = .ok label ∧ IsText c m q x label written m') ∧
      ∀ out, toMapping q x c m = .ok (out, m') ↔
        ∃ label, u.label Catalog.registry = .ok label ∧ IsMapping c m q x label out m') ∧
    (∀ text u, evaluateText Catalog.registry false text = .ok u →
      (∃ label, u.label Catalog.registry = .ok label ∧ Means label u) ∧
      ∃ symbol, Means symbol u ∧ ∀ written m',
        writtenAs q (text ++ ":") c m = .ok (written, m') ↔ IsFormatted c m q (.text text) symbol written m') ∧
    ∀ u label, Obtained u → u.label Catalog.registry = .ok label →
      (∀ text, u.text = some text →
        ∃ v, Means label v ∧ (u = v ∨ u = v.withoutOffset) ∧ (Means label u ↔ u.offset = v.offset)) ∧
      (u.text = none → Means label u.storage ∧ u.offset = Numeric.zero ∧ (Means label u ↔ u.factor = Numeric.one)) := by
  intro c
  have hc : c.registry = Catalog.registry := by dsimp only [c]
  clear_value c
  refine ⟨fun x u hx m' => ?_, fun text u hu => ⟨exists_label hu, ?_⟩, fun u label hu hlabel =>
    ⟨fun text htext => label_titled hu.kept htext hlabel, fun htext => label_untitled hu.kept htext hlabel⟩⟩
  · rw [← hc] at hx ⊢
    exact ⟨fun _ => toText_eq_ok_iff hx, fun _ => toMapping_eq_ok_iff hx⟩
  · obtain ⟨symbol, hmeans, hs⟩ := exists_symbolOf hu hc
    rw [← hc] at hu
    exact ⟨symbol, hmeans, fun _ _ => writtenAs_eq_ok_iff hu hs⟩

/-! ## A lost factor and a lost offset -/

def inch : UnitMeaning Float := ⟨{ length := 1 }, .ten (-2), 2.54, Numeric.zero, some "in"⟩

def meter : UnitMeaning Float := ⟨{ length := 1 }, .one, Numeric.one, Numeric.zero, some "m"⟩

def celsius : UnitMeaning Float := ⟨{ temperature := 1 }, .one, Numeric.one, 273.15, some "degC"⟩

/-- an inch in a meter -/
def slope : UnitMeaning Float := ⟨.one, .ten (-2), Numeric.div 2.54 Numeric.one, Numeric.zero, none⟩

theorem evaluateText_inch : evaluateText Catalog.registry false "in" = .ok inch := by
  have hlisted : ("in", (⟨_, _⟩ : Entry Float)) ∈ Registry.symbolListing families :=
    Registry.mem_symbolListing.2 ⟨List.mem_cons_of_mem _ List.mem_cons_self,
      List.mem_cons_of_mem _ List.mem_cons_self, List.mem_cons_self⟩
  exact evaluateText_name (by decide) (resolve_symbol hlisted)

theorem evaluateText_meter : evaluateText Catalog.registry false "m" = .ok meter := by
  have hlisted : ("m", (⟨_, _⟩ : Entry Float)) ∈ Registry.symbolListing families :=
    Registry.mem_symbolListing.2 ⟨List.mem_cons_of_mem _ List.mem_cons_self, List.mem_cons_self, List.mem_cons_self⟩
  exact evaluateText_name (by decide) (resolve_symbol hlisted)

theorem evaluateText_celsius : evaluateText Catalog.registry false "degC" = .ok celsius := by
  have hfamily : (⟨"Temperature", _, _, _⟩ : UnitFamily Float) ∈ families :=
    List.mem_cons_of_mem _ (List.mem_cons_of_mem _ (List.mem_cons_of_mem _ (List.mem_cons_of_mem _ List.mem_cons_self)))
  have hlisted : ("degC", (⟨_, _⟩ : Entry Float)) ∈ Registry.symbolListing families :=
    Registry.mem_symbolListing.2 ⟨hfamily, List.mem_cons_of_mem _ List.mem_cons_self, List.mem_cons_self⟩
  exact evaluateText_name (by decide) (resolve_symbol hlisted)

theorem obtained_slope : Obtained slope := .div (.text evaluateText_inch) (.text evaluateText_meter) rfl

theorem label_slope : slope.label Catalog.registry = .ok "10^-2" := rfl

/-- the inch, and the inch in a meter, in which the factor is lost -/
theorem labels_mean_slope :
    let c : Context Float := ⟨.strict, Catalog.registry⟩
    let m : Store Float := ⟨[]⟩
    let q : Quantity (Operand Float) := ⟨.number 1.0, .one, .one⟩
    ((Operand.unit slope).meaning Catalog.registry = .ok slope ∧
      ∀ written, toText q (.unit slope) c m = .ok (written, m) ↔
        ∃ label, slope.label Catalog.registry = .ok label ∧ IsText c m q (.unit slope) label written m) ∧
    (evaluateText Catalog.registry false "in" = .ok inch ∧
      ∃ label, inch.label Catalog.registry = .ok label ∧ Means label inch) ∧
    (Obtained inch ∧ inch.label Catalog.registry = .ok "in" ∧ inch.text = some "in" ∧
      ∃ v, Means "in" v ∧ (inch = v ∨ inch = v.withoutOffset) ∧ (Means "in" inch ↔ inch.offset = v.offset)) ∧
    (Obtained slope ∧ slope.label Catalog.registry = .ok "10^-2" ∧ slope.text = none ∧
      Means "10^-2" slope.storage ∧ slope.offset = Numeric.zero ∧
      (Means "10^-2" slope ↔ slope.factor = Numeric.one)) := by
  intro c m q
  obtain ⟨hwritten, htext, hlabel⟩ := labels_mean .strict m q
  exact ⟨⟨rfl, (hwritten (.unit slope) slope rfl m).1⟩, ⟨evaluateText_inch, (htext "in" inch evaluateText_inch).1⟩,
    ⟨.text evaluateText_inch, rfl, rfl, (hlabel inch "in" (.text evaluateText_inch) rfl).1 "in" rfl⟩,
    ⟨obtained_slope, label_slope, rfl, (hlabel slope "10^-2" obtained_slope label_slope).2 rfl⟩⟩

/-- **Labels can mislead.** A number in inches to the meter is written with the label of a hundredth, and a number of
degrees that do not count from zero with the label of those that do. -/
theorem labels_mislead :
    let c : Context Float := ⟨.strict, Catalog.registry⟩
    let m : Store Float := ⟨[]⟩
    (Obtained slope ∧ ¬ Means "10^-2" slope ∧
      toText ⟨.number 1.0, slope.dimension, slope.scale⟩ (.unit slope) c m =
        .ok (Decimal.text (Numeric.div 1.0 slope.factor) ++ " " ++ "10^-2", m)) ∧
    (Obtained celsius.withoutOffset ∧ ¬ Means "degC" celsius.withoutOffset ∧
      toText ⟨.number 1.0, celsius.dimension, celsius.scale⟩ (.unit celsius.withoutOffset) c m =
        .ok (Decimal.text 1.0 ++ " " ++ "degC", m)) := by
  intro c m
  have hc : c.registry = Catalog.registry := by dsimp only [c]
  clear_value c
  have hfactor : Numeric.isOne slope.factor = false := rfl
  have hoffset : Numeric.isZero celsius.offset = false := rfl
  have hcelsius : Obtained celsius := .text evaluateText_celsius
  refine ⟨⟨obtained_slope, fun hmeans => ?_, ?_⟩, ⟨hcelsius.withoutOffset, fun hmeans => ?_, ?_⟩⟩
  · rw [(label_untitled obtained_slope.kept rfl label_slope).2.2.1 hmeans] at hfactor
    cases hfactor
  · exact (toText_eq_ok_iff rfl).2 ⟨"10^-2", hc ▸ label_slope, rfl, _, _, rfl, rfl, rfl⟩
  · have hkept : Means "degC" celsius := ⟨celsius, evaluateText_celsius, rfl⟩
    have hsame : celsius.offset = Numeric.zero := (UnitMeaning.parts_of_dropText (hkept.unique hmeans)).2.2.2
    rw [hsame] at hoffset
    cases hoffset
  · exact (toText_eq_ok_iff rfl).2 ⟨"degC", rfl, rfl, _, _, rfl, rfl, rfl⟩

end Session

end UnitAlgebra

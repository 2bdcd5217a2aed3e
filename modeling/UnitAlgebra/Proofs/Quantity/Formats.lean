/-
Number formats beside units. A format of a quantity may begin with a unit; a number format never is taken for one, and
behind a unit it leaves the unit alone, whatever its fill is. So a quantity is written in its own unit by every number
format, as its bare value is written by that format, with one exception: a fill of braces is refused.

Results:
- `split_chars`, `unit_eq_none_iff`: number formats select no unit, and all other formats do.
- `split_unit_chars`: what stands before the first colon is the unit, whatever number format follows.
- `formatted_chars`: what a single value is written as by a number format, with the refusal of braces.
- `writtenAs_chars`: a quantity is written in its own unit by every number format.
- `braces_refused`: a number format that writes a bare number, but no quantity.
-/
import UnitAlgebra.Proofs.Naming.Registries
import UnitAlgebra.Proofs.NumberFormat.Grammar
import UnitAlgebra.Proofs.Session.Memory
import UnitAlgebra.Quantity.Written

namespace UnitAlgebra

/-! ## Units in formats -/

namespace QuantityFormat

variable (p : NumberFormat.Spec)

theorem isNumber_chars : isNumber p.chars = true := by
  rw [isNumber, p.read?_chars]
  exact p.isReal_format

/-- A number format selects no unit. -/
theorem split_chars : split p.chars = ⟨none, p.chars⟩ := by
  by_cases hcolon : ':' ∈ p.chars
  · -- a colon can only be the fill, and nothing stands before it
    have hfill : p.fill = some ':' := (NumberFormat.Spec.mem_chars (by decide) (by decide)).1 hcolon
    obtain ⟨rest, hrest⟩ : ∃ rest, p.chars = ':' :: rest := by
      unfold NumberFormat.Spec.fill at hfill
      obtain ⟨⟨fill, j⟩, hplacing, rfl⟩ := Option.bind_eq_some_iff.1 hfill
      exact ⟨j.mark :: p.body, by simp [NumberFormat.Spec.chars, NumberFormat.Spec.placingText, hplacing]⟩
    have hnumber := isNumber_chars p
    rw [hrest] at hnumber ⊢
    have hunit : (':' :: rest).takeWhile isInUnit = [] := by simp [isInUnit]
    simp [split, hunit, hnumber]
  · rw [split_without_colon hcolon, if_pos (isNumber_chars p)]

/-- A format selects no unit exactly if it is a number format. -/
theorem unit_eq_none_iff {cs : List Char} : (split cs).unit = none ↔ ∃ p : NumberFormat.Spec, p.chars = cs := by
  constructor
  · intro h
    unfold split at h
    split at h
    · cases h
    · split at h
      · next hnumber =>
        obtain ⟨f, hf, hreal⟩ := (Option.any_eq_true _ _).1 hnumber
        exact NumberFormat.Spec.exists_spec hf hreal
      · cases h
  · rintro ⟨p, rfl⟩
    rw [split_chars]

/-- What stands before the first colon is the unit, whatever number format follows. -/
theorem split_unit_chars {unit : List Char} (hne : unit ≠ []) (hcolon : ':' ∉ unit) :
    split (unit ++ ':' :: p.chars) = ⟨some unit, places p.chars⟩ := by
  obtain ⟨c, rest, rfl⟩ := List.exists_cons_of_ne_nil hne
  exact split_colon hcolon p.chars

end QuantityFormat

namespace NumberFormat

/-- A written format writes every number, unless it is too wide or asks for groups in a form that has none. -/
theorem Spec.write_format (p : Spec) (x : Float) : p.format.write x =
    if p.format.isTooWide || p.format.isMisgrouped then .error (.badValue none)
    else .ok (String.ofList (p.format.placed (p.format.pieces x))) := by
  rw [write, p.isReal_format, Bool.not_true, Bool.or_false]

/-- the fill is a brace -/
def Spec.isBraced (p : Spec) : Bool := p.fill = some '\x7b' || p.fill = some '\x7d'

theorem Spec.contains_brace (p : Spec) : (p.chars.contains '\x7b' || p.chars.contains '\x7d') = p.isBraced := by
  have hbrace : ∀ {c : Char}, place c = 0 → Justification.ofChar? c = none →
      p.chars.contains c = decide (p.fill = some c) := by
    intro c hplace hmark
    rw [Bool.eq_iff_iff, List.contains_iff_mem, decide_eq_true_iff]
    exact mem_chars hplace hmark
  rw [hbrace (by decide) (by decide), hbrace (by decide) (by decide), isBraced]

end NumberFormat

/-! ## Quantities in their own units -/

namespace Session

variable {c : Context Float} {m : Store Float} {x : Operand Float} {cell : Cell Float}

/-- A single value is written by the format, unless the fill is a brace; only the empty format is not the same for
truth values. -/
theorem formatted_chars (p : NumberFormat.Spec) (hcell : singleCell? x c m = .ok (some cell, m))
    (hflag : p.chars = [] → ∀ b, cell ≠ .flag b) : formatted x p.chars c m =
      if p.isBraced then .error (.badValue none) else (formattedCell p.format cell).map fun text => (text, m) := by
  have hread := p.read?_chars
  have hrun : formatted x p.chars c m = (do
      if p.chars.contains '\x7b' || p.chars.contains '\x7d' then throw (.badValue none)
      return ← formattedCell p.format cell : Session Float String) c m := by
    refine (bind_of_ok hcell).trans ?_
    generalize p.chars = spec at hread hflag ⊢
    cases cell with
    | flag b =>
      cases spec with
      | nil => exact absurd rfl (hflag rfl b)
      | cons d rest => simp only [hread]
    | integer n => cases spec <;> simp only [hread]
    | real y => cases spec <;> simp only [hread]
  rw [hrun, p.contains_brace]
  cases p.isBraced with
  | true => rfl
  | false =>
    change (formattedCell p.format cell >>= fun text => Except.ok (text, m)) = _
    cases formattedCell p.format cell with
    | error fault => rfl
    | ok text => rfl

/-- what a quantity is written as beside its unit; a bare number has none -/
def besideUnit (q : Quantity (Operand Float)) (text name : String) : String :=
  if q.dimension.isOne && q.scale.isOne then text else beside text name

/-- **A quantity is written in its own unit by every number format**, unless the fill is a brace. -/
theorem writtenAs_chars (p : NumberFormat.Spec) {q : Quantity (Operand Float)} {name : String}
    (hcell : singleCell? q.value c m = .ok (some cell, m)) (hflag : p.chars = [] → ∀ b, cell ≠ .flag b)
    (hname : nameOf q.dimension q.scale c m = .ok (name, m)) : writtenAs q (String.ofList p.chars) c m =
      if p.isBraced then .error (.badValue none)
      else (formattedCell p.format cell).map fun text => (besideUnit q text name, m) := by
  have hown : writtenAs q (String.ofList p.chars) = withUnitName q (formatted q.value p.chars) := by
    simp only [writtenAs, String.toList_ofList, QuantityFormat.split_chars]
  rw [hown]
  unfold withUnitName besideUnit
  split
  · exact formatted_chars p hcell hflag
  · rw [bind_of_ok hname]
    change (formatted q.value p.chars c m >>= fun r => Except.ok (beside r.1 name, r.2)) = _
    rw [formatted_chars p hcell hflag]
    cases p.isBraced with
    | true => rfl
    | false =>
      cases formattedCell p.format cell with
      | error fault => rfl
      | ok text => rfl

/-- **Number formats are never taken for units.** A number format, whatever its fill is, selects no unit, and all other
formats do; behind a text without a colon, that text is selected. So a single value is written in the unit of its
quantity, as the format writes it alone, unless the fill is a brace, which is refused. The format writes every number,
but for widths and numbers of places that are too large, and for groups in the form of the place. -/
theorem formats_name_no_unit (p : NumberFormat.Spec) :
    QuantityFormat.split p.chars = ⟨none, p.chars⟩ ∧
      (∀ cs, (QuantityFormat.split cs).unit = none ↔ ∃ p : NumberFormat.Spec, p.chars = cs) ∧
      (∀ unit, unit ≠ [] → ':' ∉ unit →
        QuantityFormat.split (unit ++ ':' :: p.chars) = ⟨some unit, QuantityFormat.places p.chars⟩) ∧
      (∀ x, p.format.write x = if p.format.isTooWide || p.format.isMisgrouped then .error (.badValue none)
        else .ok (String.ofList (p.format.placed (p.format.pieces x)))) ∧
      ∀ (c : Context Float) (m : Store Float) (q : Quantity (Operand Float)) (cell : Cell Float) (name : String),
        singleCell? q.value c m = .ok (some cell, m) → (p.chars = [] → ∀ b, cell ≠ .flag b) →
          nameOf q.dimension q.scale c m = .ok (name, m) → writtenAs q (String.ofList p.chars) c m =
            if p.isBraced then .error (.badValue none)
            else (formattedCell p.format cell).map fun text => (besideUnit q text name, m) :=
  ⟨QuantityFormat.split_chars p, fun _ => QuantityFormat.unit_eq_none_iff,
    fun _ hne hcolon => QuantityFormat.split_unit_chars p hne hcolon, p.write_format,
    fun _ _ _ _ _ hcell hflag hname => writtenAs_chars p hcell hflag hname⟩

/-- a field of ten characters, with a fill on the right -/
def filled (fill : Char) : NumberFormat.Spec where
  placing := some (some fill, .left)
  sign := .unstated
  unsignedZero := false
  alternate := false
  zero := false
  width := ['1', '0']
  grouping := none
  precision := none
  form := none
  width_digits := List.all_eq_true.1 (by decide)
  precision_digits := nofun
  form_real := nofun

/-- a length of one and a half meters -/
def someLength : Quantity (Operand Float) := ⟨.number 1.5, { length := 1 }, .one⟩

theorem nameOf_of_unitName {d : Dimension} {s : Scale} {name : String} (h : Naming.unitName c.registry d s = .ok name) :
    nameOf d s c m = .ok (name, m) := by
  change (Naming.unitName c.registry d s >>= fun name => Except.ok (name, m)) = _
  rw [h]
  rfl

theorem nameOf_someLength (hc : c.registry = Catalog.registry) :
    nameOf someLength.dimension someLength.scale c m = .ok ("m", m) := by
  obtain ⟨f, hf, hd, hsymbol⟩ : ∃ f ∈ (Catalog.families : List (UnitFamily Float)),
      f.dimension = { length := 1 } ∧ Naming.registered? f .one = some "m" :=
    ⟨_, List.mem_cons_of_mem _ List.mem_cons_self, rfl, by decide +kernel⟩
  have hfamily : Catalog.registry.familyOf? { length := 1 } = some f := hd ▸ Naming.familyOf?_registry hf
  refine nameOf_of_unitName ?_
  rw [hc]
  exact Naming.unitName_registered (by decide) hfamily hsymbol

theorem exists_filled (fill : Char) (x : Float) : ∃ text, formattedCell (filled fill).format (.real x) = .ok text := by
  have hwide : (filled fill).format.isTooWide = false := rfl
  have hgroups : (filled fill).format.isMisgrouped = false := rfl
  have hwritten := (filled fill).write_format x
  rw [hwide, hgroups] at hwritten
  exact ⟨_, hwritten⟩

/-- a colon fills a field and is no unit, before it there may be kilometers, and a length is written in meters -/
theorem formats_name_no_unit_colon :
    let c : Context Float := ⟨.smallerWins, Catalog.registry⟩
    let m : Store Float := ⟨[]⟩
    (filled ':').chars = ":<10".toList ∧ QuantityFormat.split ":<10".toList = ⟨none, ":<10".toList⟩ ∧
      QuantityFormat.split "km::<10".toList = ⟨some "km".toList, ":<10".toList⟩ ∧
      ∃ text, writtenAs someLength (String.ofList ":<10".toList) c m = .ok (text ++ " " ++ "m", m) := by
  intro c m
  have hname : nameOf someLength.dimension someLength.scale c m = .ok ("m", m) := nameOf_someLength (by dsimp only [c])
  obtain ⟨hown, -, hunit, -, hwritten⟩ := formats_name_no_unit (filled ':')
  refine ⟨rfl, hown, hunit "km".toList (by decide) (by decide), ?_⟩
  obtain ⟨text, htext⟩ := exists_filled ':' 1.5
  refine ⟨text, (hwritten c m someLength (.real 1.5) "m" rfl nofun hname).trans ?_⟩
  rw [htext]
  rfl

/-- **Braces are refused.** The same field with a brace as its fill is a number format, which writes one and a half, but
a length of one and a half meters is not written by it. -/
theorem braces_refused :
    let c : Context Float := ⟨.smallerWins, Catalog.registry⟩
    let m : Store Float := ⟨[]⟩
    ∀ fill ∈ ['\x7b', '\x7d'], (filled fill).chars = [fill, '<', '1', '0'] ∧
      QuantityFormat.split [fill, '<', '1', '0'] = ⟨none, [fill, '<', '1', '0']⟩ ∧
      (∃ text, formattedCell (filled fill).format (.real 1.5) = .ok text) ∧
      ¬ ∃ shown m', writtenAs someLength (String.ofList [fill, '<', '1', '0']) c m = .ok (shown, m') := by
  intro c m fill hfill
  have hname : nameOf someLength.dimension someLength.scale c m = .ok ("m", m) := nameOf_someLength (by dsimp only [c])
  have hbraced : (filled fill).isBraced = true := by
    simp only [List.mem_cons, List.not_mem_nil, or_false] at hfill
    rcases hfill with rfl | rfl <;> decide
  refine ⟨rfl, QuantityFormat.split_chars (filled fill), exists_filled fill 1.5, ?_⟩
  rintro ⟨shown, m', h⟩
  have hcell : singleCell? someLength.value c m = .ok (some (.real 1.5), m) := rfl
  have hrefused := writtenAs_chars (filled fill) hcell nofun hname
  rw [hbraced, if_pos rfl] at hrefused
  cases h.symm.trans hrefused

end Session

end UnitAlgebra

/-
The blank between the number and the unit of a quantity text may be left out. A number takes all letters that could
belong to it, so this is so only because of the names in the catalog: none is the letter of a power of ten alone, and
none begins as the long word for infinity goes on behind the short one.

Results:
- `clear_of_resolve`: no name that has a meaning in the catalog is taken for a part of the number in front of it.
- `detached_of_evaluateText`: the same for whole unit texts that begin with a letter or a parenthesis.
- `spacing_optional`: a quantity text with the blank and the one without it tell of the same quantity.
-/
import UnitAlgebra.Proofs.Catalog.Display
import UnitAlgebra.Proofs.Decimal.Beginning
import UnitAlgebra.Proofs.Expression.Blame
import UnitAlgebra.Proofs.Interchange.Labels
import UnitAlgebra.Proofs.Interchange.Refusals

namespace UnitAlgebra

open Decimal (Clear Detached WrittenNumber isLetter splitWord)

/-! ## Letters and blanks -/

namespace Text

theorem compared_of_isLetter {letter c : Char} (hl : letter ∈ "inity".toList) (h : isLetter letter c = true)
    (hkey : isKey (compared c) = true) : compared c = letter := by
  have hletters : "inity".toList.all (fun l => compared l = l && compared l.toUpper = l) = true := by decide +kernel
  have hlookalikes : isKey (compared 'ı') = false ∧ isKey (compared 'İ') = false := by decide +kernel
  have hsame := List.all_eq_true.1 hletters letter hl
  simp only [Bool.and_eq_true, decide_eq_true_eq] at hsame
  simp only [isLetter, Bool.or_eq_true, Bool.and_eq_true, decide_eq_true_eq] at h
  rcases h with (rfl | rfl) | ⟨-, rfl | rfl⟩
  · exact hsame.1
  · exact hsame.2
  · rw [hlookalikes.2] at hkey
    cases hkey
  · rw [hlookalikes.1] at hkey
    cases hkey

/-- a text that begins with letters of the word is compared as one that begins with the word -/
theorem prefix_of_splitWord {word cs written rest : List Char} (hword : ∀ l ∈ word, l ∈ "inity".toList)
    (h : splitWord word cs = some (written, rest)) (hkeys : ∀ c ∈ cs, isKey (compared c) = true) :
    word <+: cs.map compared := by
  obtain ⟨rfl, hletters⟩ := Decimal.exists_of_splitWord h
  have hwritten : written.map compared = word := by
    clear h
    induction hletters with
    | nil => rfl
    | @cons letter c word cs hletter _ ih =>
      rw [List.map_cons, compared_of_isLetter (hword letter List.mem_cons_self) hletter (hkeys c List.mem_cons_self),
        ih (fun l hl => hword l (List.mem_cons_of_mem _ hl)) fun d hd => hkeys d (List.mem_cons_of_mem c hd)]
  rw [List.map_append, hwritten]
  exact List.prefix_append _ _

theorem trim_cons_blank {c : Char} (hc : isBlank c = true) (cs : List Char) : trim (c :: cs) = trim cs := by
  rw [trim, trim, List.dropWhile_cons_of_pos hc]

end Text

/-! ## Names of the catalog -/

namespace Catalog

open Expression Registry Text

theorem clear_symbol {s : String} {e : Entry Float} (h : (s, e) ∈ symbolListing families) : Clear s.toList := by
  have all : ∀ e ∈ symbolListing (families : List (UnitFamily Float)), Clear e.1.toList := by decide +kernel
  exact all _ h

/-- names are no letters of powers, and none begins with the rest of the long word for infinity -/
theorem clear_key {k : String} {e : Entry Float} (h : (k, e) ∈ nameListing families) :
    k.toList ≠ ['e'] ∧ ¬ "inity".toList <+: k.toList := by
  have all : ∀ f ∈ (families : List (UnitFamily Float)), ∀ u ∈ f.units, ∀ n ∈ [u.name, Spelling.plural u.name],
      n.toList.map compared ≠ ['e'] ∧ ¬ "inity".toList <+: n.toList.map compared := by decide +kernel
  obtain ⟨hf, hu, n, hn, rfl⟩ := mem_nameListing.1 h
  have hplain := orderly.plainNames n (List.mem_flatMap.2 ⟨_, hf, List.mem_flatMap.2 ⟨_, hu, hn⟩⟩)
  rw [toList_unitName (fun c hc => (hplain c hc).1) fun c hc => (hplain c hc).2]
  exact all _ hf _ hu n hn

theorem clear_name {s : String} {e : Entry Float} (hs : IsName s.toList) (h : registry.findName? s = some e) :
    Clear s.toList := by
  have hmem := mem_of_findName? h
  have hkeys := (isKey_of_mem hmem).2
  have hcompared : (Spelling.unitName s).toList = s.toList.map compared :=
    toList_unitName_of_keys (fun c hc => isBlank_of_isNameChar (List.all_eq_true.1 hs.2 c hc)) hkeys
  obtain ⟨hletter, hword⟩ := clear_key hmem
  rw [hcompared] at hkeys hletter hword
  have hsmall : compared 'e' = 'e' ∧ compared 'E' = 'e' := by decide +kernel
  refine ⟨fun heq => ?_, fun heq => ?_, ?_⟩
  · rw [heq, List.map_singleton, hsmall.1] at hletter
    exact hletter rfl
  · rw [heq, List.map_singleton, hsmall.2] at hletter
    exact hletter rfl
  · cases hsplit : splitWord "inity".toList s.toList with
    | none => rfl
    | some found =>
      obtain ⟨written, rest⟩ := found
      have hprefix := prefix_of_splitWord (fun l hl => hl) hsplit fun c hc => hkeys _ (List.mem_map_of_mem hc)
      exact absurd hprefix hword

/-- the word does not begin as the symbols of prefixes do, and does not go on as their names do -/
theorem prefixes_clear : ∀ p ∈ prefixes,
    (∀ s ∈ p.symbols, ∃ c rest, s.toList = c :: rest ∧ isLetter 'i' c = false) ∧
      ∃ c rest, p.name.toList.tail = c :: rest ∧ isLetter 'n' c = false := by
  have all : prefixes.all (fun p =>
      (p.symbols.all fun s => s.toList.head?.any fun c => !isLetter 'i' c) &&
        p.name.toList.tail.head?.any fun c => !isLetter 'n' c) = true := by decide +kernel
  have hsplit : ∀ {letter : Char} {cs : List Char}, cs.head?.any (fun c => !isLetter letter c) = true →
      ∃ c rest, cs = c :: rest ∧ isLetter letter c = false := by
    intro letter cs h
    cases cs with
    | nil => cases h
    | cons c rest => exact ⟨c, rest, rfl, by simpa using h⟩
  intro p hp
  have hboth := List.all_eq_true.1 all p hp
  rw [Bool.and_eq_true] at hboth
  exact ⟨fun s hs => hsplit (List.all_eq_true.1 hboth.1 s hs), hsplit hboth.2⟩

theorem clear_prefixed {s : String} {p : SiPrefix} {e : Entry Float}
    (h : registry.findPrefixed? s = .ok (some (p, e))) : Clear s.toList := by
  rw [findPrefixed?, builtFrom.prefixes] at h
  obtain ⟨hp, hsplit⟩ := exists_of_splitByFirst h
  obtain ⟨hsymbols, c', name, hname, hsecond⟩ := prefixes_clear p hp
  rcases cases_of_splitBy hp hsplit with ⟨t, ht, b, htext, hb⟩ | ⟨c, b, -, htext, -⟩
  · -- behind the symbol of the prefix stands that of a unit, so the text has two letters at least
    obtain ⟨hne, -⟩ := isName_symbol (mem_of_findSymbol? hb)
    rw [String.toList_ofList] at hne
    obtain ⟨c, rest, hc, hfirst⟩ := hsymbols t ht
    obtain ⟨d, ds, hd⟩ := List.exists_cons_of_ne_nil (List.append_ne_nil_of_right_ne_nil rest hne)
    rw [htext, hc, List.cons_append, hd]
    refine ⟨by simp, by simp, ?_⟩
    change splitWord ('i' :: "nity".toList) (c :: d :: ds) = none
    rw [splitWord, hfirst]
    rfl
  · rw [htext, hname, List.cons_append]
    refine ⟨by simp, by simp, ?_⟩
    change splitWord ('i' :: 'n' :: "ity".toList) (c :: c' :: (name ++ b)) = none
    rw [splitWord, splitWord, hsecond]
    simp

/-- **No name of the catalog is taken for a part of a number** that stands in front of it. -/
theorem clear_of_resolve {s : String} {u : UnitMeaning Float} (hs : IsName s.toList)
    (h : resolve registry false s = .ok u) : Clear s.toList := by
  cases hf : registry.find? s with
  | some e =>
    cases hsymbol : registry.findSymbol? s with
    | some f => exact clear_symbol (mem_of_findSymbol? hsymbol)
    | none => exact clear_name hs ((find?_of_findSymbol?_eq_none hsymbol).symm.trans hf)
  | none =>
    obtain ⟨found, hp⟩ := exists_findPrefixed?_registry s
    obtain _ | ⟨p, e⟩ := found
    · cases hpi : piNames.contains s with
      | false =>
        rw [resolve_of_unknown hpi hf hp] at h
        cases h
      | true =>
        have all : ∀ n ∈ piNames, Clear n.toList := by decide +kernel
        exact all s (List.contains_iff_mem.1 hpi)
    · exact clear_prefixed hp

end Catalog

/-! ## Units at the beginning of a text -/

namespace Expression

open Text

theorem Reads.exists_name {c : Char} {rest : List Char} {ts : List Terminal} (h : Reads (c :: rest) ts)
    (hc : isNameChar c = true) :
    ∃ (n : Name) (after : List Char), c :: rest = n.chars ++ after ∧ StopsAt isNameChar after ∧ n.terminal ∈ ts := by
  have hnoLiteral : ∀ (l : Literal) (after : List Char), c :: rest ≠ l.chars ++ after := by
    intro l after heq
    obtain ⟨d, ds, hchars, -, -, hletter⟩ := l.exists_head
    rw [hchars] at heq
    cases heq
    rw [hletter] at hc
    cases hc
  generalize hcs : c :: rest = cs at h
  cases h with
  | nil => cases hcs
  | @cons _ after ts us hlex _ =>
    cases hlex with
    | blank hb =>
      cases hcs
      rw [isBlank_of_isNameChar hc] at hb
      cases hb
    | mark hm =>
      cases hcs
      rw [mark?_of_isNameChar hc] at hm
      cases hm
    | literal l _ => exact absurd hcs (hnoLiteral l _)
    | name n hstops _ => exact ⟨n, after, rfl, hstops, List.mem_append_left _ (List.mem_singleton_self _)⟩
    | raised n l _ =>
      obtain ⟨d, ds, hchars, -, -, hletter⟩ := l.exists_head
      refine ⟨n, l.chars ++ after, rfl, ?_, List.mem_append_left _ List.mem_cons_self⟩
      rw [hchars]
      exact stopsAt_cons.2 hletter

theorem evaluateText_trimmed (r : Registry Float) (strict : Bool) (text : String) :
    evaluateText r strict (trimmed text) = evaluateText r strict text := by
  rw [evaluateText, evaluateText, trimmed_trimmed]

end Expression

namespace Catalog

open Expression Text

/-- a text begins with a letter of names or with a parenthesis -/
def BeginsUnit (cs : List Char) : Prop := ∃ c rest, cs = c :: rest ∧ (isNameChar c = true ∨ c = '(')

/-- **No unit of the catalog is taken for a part of a number** that stands in front of it. -/
theorem detached_of_evaluateText {text : String} {u : UnitMeaning Float}
    (hu : evaluateText registry false text = .ok u) (hbegins : BeginsUnit text.toList) : Detached text.toList := by
  obtain ⟨c, rest, hchars, hletter | rfl⟩ := hbegins
  · obtain ⟨d, hreads, -, v, hv, -⟩ := exists_meaning hu
    rw [hchars] at hreads
    obtain ⟨n, after, hsplit, hstops, hmem⟩ := hreads.exists_name hletter
    have hname : String.ofList n.chars ∈ d.tree.identifiers := by
      rw [d.identifiers_tree]
      exact List.mem_filterMap.2 ⟨n.terminal, hmem, rfl⟩
    obtain ⟨w, hw⟩ := exists_of_evaluate hv _ hname
    have hclear := clear_of_resolve n.isName hw
    rw [String.toList_ofList] at hclear
    rw [hchars, hsplit]
    exact Decimal.detached_of_clear n.nonempty n.letters hstops hclear
  · rw [hchars]
    exact Decimal.detached_cons (by decide) (by decide) (by decide) (by decide) rest

end Catalog

/-! ## Quantity texts -/

namespace Session

open Expression Text
open Catalog (BeginsUnit)

theorem trim_ne_nil {cs : List Char} (h : BeginsUnit cs) : trim cs ≠ [] := by
  obtain ⟨c, rest, rfl, hc⟩ := h
  have hblank : isBlank c = false := by
    rcases hc with hc | rfl
    · exact isBlank_of_isNameChar hc
    · decide
  intro hnil
  obtain ⟨front, back, hsplit, hfront, hback⟩ := exists_trim (c :: rest)
  rw [hnil, List.append_nil] at hsplit
  have hmem : c ∈ front ++ back := hsplit ▸ List.mem_cons_self
  have hall := (List.mem_append.1 hmem).elim (hfront c) (hback c)
  rw [hblank] at hall
  cases hall

theorem splitText_of_detached (n : WrittenNumber) {s unit : String} {rest : List Char}
    (hs : s.toList = n.chars ++ rest) (hrest : Detached rest) (htrim : trim rest = trim unit.toList)
    (hunit : trim unit.toList ≠ []) : splitText s = .ok (n.number, trimmed unit) := by
  have hdrop : s.toList.dropWhile isBlank = n.chars ++ rest := by
    rw [hs]
    exact dropWhile_run (show ∀ c ∈ [], isBlank c = true from nofun) (n.stopsAt_isBlank rest)
  have hempty : (trim unit.toList).isEmpty = false := by simpa using hunit
  simp only [splitText, hdrop, Decimal.splitNumber_chars n hrest, htrim, hempty]
  rfl

/-- **The blank between number and unit may be left out.** With the catalog, a number and a unit text with a meaning
that begins with a letter or a parenthesis make up a quantity text, and it tells of the same quantity whether a blank
stands between them or not: of the number in the unit. -/
theorem spacing_optional {c : Context Float} (hc : c.registry = Catalog.registry) (m : Store Float) (n : WrittenNumber)
    {unit : String} {u : UnitMeaning Float} (hu : evaluateText Catalog.registry false unit = .ok u)
    (hbegins : BeginsUnit unit.toList) :
    ∃ x, n.number.value = .ok x ∧
      let q : Quantity (Operand Float) := ⟨.number (u.intoStorage x), u.dimension, u.scale⟩
      ofText (.text (n.text ++ unit)) .absent c m = .ok (q, m) ∧
      ofText (.text (n.text ++ " " ++ unit)) .absent c m = .ok (q, m) := by
  obtain ⟨x, hx⟩ := n.exists_value (κ := Float)
  have hunit := trim_ne_nil hbegins
  have hread : ∀ s, splitText s = .ok (n.number, trimmed unit) → ofText (.text s) .absent c m =
      .ok (⟨.number (u.intoStorage x), u.dimension, u.scale⟩, m) := by
    intro s hs
    rw [ofText_eq, hs, hc]
    change Except.mapError _ (n.number.value >>= _) = _
    rw [hx]
    change Except.mapError _ (evaluateText Catalog.registry false (trimmed unit) >>= _) = _
    rw [evaluateText_trimmed, hu]
    rfl
  refine ⟨x, hx, hread _ ?_, hread _ ?_⟩
  · refine splitText_of_detached n ?_ (Catalog.detached_of_evaluateText hu hbegins) rfl hunit
    rw [String.toList_append, WrittenNumber.text, String.toList_ofList]
  · have hblank : Detached (' ' :: unit.toList) :=
      Decimal.detached_cons (by decide) (by decide) (by decide) (by decide) _
    refine splitText_of_detached n ?_ hblank (trim_cons_blank (by decide) _) hunit
    simp [WrittenNumber.text, String.toList_append]

/-- infinity below zero, in capitals -/
def minusInfinity : WrittenNumber where
  sign := some '-'
  unsigned := .word .inf "INF".toList (.cons (.inr rfl) (.cons (.inr rfl) (.cons (.inr rfl) .nil)))
  signs := by simp [isSign]

/-- an inch goes on as the short word for infinity does, and is still told from it -/
theorem spacing_optional_inch :
    let c : Context Float := ⟨.smallerWins, Catalog.registry⟩
    let m : Store Float := ⟨[]⟩
    evaluateText Catalog.registry false "in" = .ok inch ∧ BeginsUnit "in".toList ∧
      ∃ x : Float, minusInfinity.number.value = .ok x ∧
        ofText (.text "-INFin") .absent c m = .ok (⟨.number (inch.intoStorage x), inch.dimension, inch.scale⟩, m) ∧
        ofText (.text "-INF in") .absent c m = .ok (⟨.number (inch.intoStorage x), inch.dimension, inch.scale⟩, m) := by
  intro c m
  have hc : c.registry = Catalog.registry := by dsimp only [c]
  have hbegins : BeginsUnit "in".toList := ⟨'i', ['n'], rfl, .inl (by decide +kernel)⟩
  have hjoined : minusInfinity.text ++ "in" = "-INFin" := by decide +kernel
  have hspaced : minusInfinity.text ++ " " ++ "in" = "-INF in" := by decide +kernel
  have hquantity := spacing_optional hc m minusInfinity evaluateText_inch hbegins
  rw [hjoined, hspaced] at hquantity
  exact ⟨evaluateText_inch, hbegins, hquantity⟩

end Session

end UnitAlgebra

/-
Units are displayed by their symbols. A text that stands for a unit of the catalog, or for a prefix before one, is shown
as the symbol of the unit, behind the symbol of the prefix. The unit is looked for under the text as it is given, blanks
and all, while an expression is evaluated without the blanks around it. In the catalog this makes no difference: a text
of more than one name is not found, and blanks around a name do not lead to another unit.

Results:
- `splitBy_append_blank`: blanks behind a text do not change how a prefix is taken off by its name.
- `find?_trimmed`, `findPrefixed?_trimmed`: what is found under a text is found without the blanks around it.
- `exists_symbolOf`: the symbol that is shown for a text means what the text means.
-/
import UnitAlgebra.Proofs.Expression.Factors
import UnitAlgebra.Proofs.Expression.Names
import UnitAlgebra.Proofs.Session.Memory
import UnitAlgebra.Quantity.Written

namespace UnitAlgebra

/-! ## Blanks around a text -/

namespace Text

/-- a beginning without blanks is found, or not found, whatever blanks stand behind the text -/
theorem after?_append_blank {start cs back : List Char} (hs : ∀ c ∈ start, isBlank c = false)
    (hb : ∀ c ∈ back, isBlank c = true) : after? start (cs ++ back) = (after? start cs).map (· ++ back) := by
  induction start generalizing cs with
  | nil => rfl
  | cons a start ih =>
    cases cs with
    | nil =>
      cases back with
      | nil => rfl
      | cons b back =>
        have hne : a ≠ b := by
          rintro rfl
          have := hb a List.mem_cons_self
          rw [hs a List.mem_cons_self] at this
          cases this
        exact if_neg hne
    | cons c cs =>
      rw [List.cons_append, after?, after?]
      split
      · exact ih fun c hc => hs c (List.mem_cons_of_mem a hc)
      · rfl

end Text

namespace Registry

open Text Expression

variable {κ : Type} [Numeric κ] (r : Registry κ)

omit [Numeric κ] in
theorem findName?_trimmed (s : String) : r.findName? (trimmed s) = r.findName? s := by
  rw [findName?, findName?, Spelling.unitName, trimmed_trimmed]
  rfl

omit [Numeric κ] in
theorem findName?_append_blank (cs : List Char) {back : List Char} (hb : ∀ c ∈ back, isBlank c = true) :
    r.findName? (String.ofList (cs ++ back)) = r.findName? (String.ofList cs) := by
  rw [← findName?_trimmed, ← findName?_trimmed r (String.ofList cs), trimmed, trimmed, String.toList_ofList,
    String.toList_ofList, trim_append_blank hb]

variable {r}

omit [Numeric κ] in
theorem find?_of_findSymbol?_eq_none {s : String} (h : r.findSymbol? s = none) : r.find? s = r.findName? s := by
  rw [find?, h]
  rfl

omit [Numeric κ] in
theorem findName?_eq_none {s : String} (h : r.find? s = none) : r.findName? s = none := by
  cases hs : r.findSymbol? s with
  | none => rwa [← find?_of_findSymbol?_eq_none hs]
  | some e =>
    rw [find?_symbol hs] at h
    cases h

theorem splitByFirst_congr {s t : List Char} {ps : List SiPrefix} (h : ∀ p ∈ ps, r.splitBy s p = r.splitBy t p) :
    r.splitByFirst s ps = r.splitByFirst t ps := by
  induction ps with
  | nil => rfl
  | cons p ps ih =>
    rw [splitByFirst, splitByFirst, h p List.mem_cons_self, ih fun q hq => h q (List.mem_cons_of_mem p hq)]

theorem splitBy_cons {p : SiPrefix} {n : Char} {name : List Char} (hname : p.name.toList = n :: name) {c : Char}
    {rest : List Char}
    (hs : (p.stripSymbol (c :: rest)).bind (fun s => prefixable? (r.findSymbol? (String.ofList s))) = none) :
    r.splitBy (c :: rest) p = .ok (if c = n ∨ c = upperChar n then
        ((after? name rest).filter (!·.isEmpty)).bind fun s => prefixable? (r.findName? (String.ofList s))
      else none) := by
  rw [splitBy, hs]
  simp only [SiPrefix.stripName, hname]
  split
  · cases after? name rest with
    | none => rfl
    | some tail => cases tail <;> rfl
  · rfl

/-- **Blanks behind a text do not change how a prefix is taken off by its name.** -/
theorem splitBy_append_blank {p : SiPrefix} {n : Char} {name : List Char} (hname : p.name.toList = n :: name)
    (hsolid : ∀ c ∈ name, isBlank c = false) (hnone : r.findName? (String.ofList []) = none) {c : Char}
    {rest back : List Char} (hb : ∀ c ∈ back, isBlank c = true)
    (hs : ∀ tail, tail = rest ∨ tail = rest ++ back →
      (p.stripSymbol (c :: tail)).bind (fun s => prefixable? (r.findSymbol? (String.ofList s))) = none) :
    r.splitBy (c :: (rest ++ back)) p = r.splitBy (c :: rest) p := by
  let find (s : List Char) : Option (Entry κ) := prefixable? (r.findName? (String.ofList s))
  have hskip : ∀ o : Option (List Char), (o.filter (!·.isEmpty)).bind find = o.bind find := by
    rintro (_ | _ | _)
    · rfl
    · exact (congrArg prefixable? hnone).symm
    · rfl
  have hblank : ∀ cs, find (cs ++ back) = find cs := fun cs => congrArg prefixable? (r.findName?_append_blank cs hb)
  rw [splitBy_cons hname (hs _ (.inr rfl)), splitBy_cons hname (hs _ (.inl rfl)), after?_append_blank hsolid hb,
    hskip, hskip]
  cases after? name rest with
  | none => rfl
  | some tail => rw [Option.map_some, Option.bind_some, Option.bind_some, hblank]

end Registry

/-- a text denotes a unit, apart from how the unit was written -/
def Means (text : String) (u : UnitMeaning Float) : Prop :=
  ∃ w, Expression.evaluateText Catalog.registry false text = .ok w ∧ w.dropText = u.dropText

namespace Catalog

open Registry Text Expression

/-! ## Spellings of the catalog -/

/-- names are compared as small letters, and no name is that of a unit with another symbol -/
theorem names_compared : ∀ f ∈ (families : List (UnitFamily Float)), ∀ u ∈ f.units,
    ∀ n ∈ [u.name, Spelling.plural u.name],
      (n.toList ≠ [] ∧ n.toList.all (fun c => isKey (compared c)) = true) ∧
      ∀ e ∈ symbolListing (families : List (UnitFamily Float)), n.toList.length = e.1.toList.length →
        n.toList.map compared = e.1.toList.map compared → u.symbol = e.2.unit.symbol := by decide +kernel

/-- symbols are put into small letters one by one, and none begins with the name of a prefix -/
theorem symbols_unspelled : ∀ e ∈ symbolListing (families : List (UnitFamily Float)), e.1.toList.all isSimple = true ∧
    ∀ p ∈ prefixes, after? p.name.toList.tail e.1.toList.tail = none := by decide +kernel

/-- prefixes are words, and their symbols have one letter, apart from one that has two -/
theorem prefixes_lettered : ∀ p ∈ prefixes,
    (p.name.toList ≠ [] ∧ p.name.toList.all (fun c => isNameChar c && isNameChar (upperChar c)) = true) ∧
    ∀ s ∈ p.symbols, s.toList.all isNameChar = true ∧ s.toList ≠ [] ∧
      (s.toList.tail = [] ∨ s.toList.tail = ['a']) := by decide +kernel

/-- no prefixed symbol begins with the name of a prefix -/
theorem prefixed_unspelled : ∀ p ∈ prefixes, ∀ b ∈ prefixableSymbols (families : List (UnitFamily Float)),
    after? p.name.toList.tail b = none ∧ after? p.name.toList.tail ('a' :: b) = none := by
  rw [prefixableSymbols_families]
  decide +kernel

/-! ## Listed entries -/

theorem isKey_of_mem {k : String} {e : Entry Float} (h : (k, e) ∈ nameListing families) :
    k.toList ≠ [] ∧ ∀ c ∈ k.toList, isKey c = true := by
  obtain ⟨hf, hu, n, hn, rfl⟩ := mem_nameListing.1 h
  obtain ⟨⟨hne, hkeys⟩, -⟩ := names_compared _ hf _ hu n hn
  have hplain := orderly.plainNames n (List.mem_flatMap.2 ⟨_, hf, List.mem_flatMap.2 ⟨_, hu, hn⟩⟩)
  rw [toList_unitName (fun c hc => (hplain c hc).1) fun c hc => (hplain c hc).2]
  refine ⟨mt List.map_eq_nil_iff.1 hne, fun c hc => ?_⟩
  obtain ⟨d, hd, rfl⟩ := List.mem_map.1 hc
  exact List.all_eq_true.1 hkeys d hd

theorem mem_of_findSymbol? {s : String} {e : Entry Float} (h : registry.findSymbol? s = some e) :
    (s, e) ∈ symbolListing families := by
  rw [builtFrom.symbols] at h
  exact Directory.mem_of_find? h

theorem mem_of_findName? {s : String} {e : Entry Float} (h : registry.findName? s = some e) :
    (Spelling.unitName s, e) ∈ nameListing families := by
  rw [builtFrom.names] at h
  exact Directory.mem_of_find? h

theorem mem_own_symbol {e : Entry Float} (hf : e.family ∈ families) (hu : e.unit ∈ e.family.units) :
    (e.unit.symbol, e) ∈ symbolListing families := mem_symbolListing.2 ⟨hf, hu, List.mem_cons_self⟩

theorem lettered_of_findName? {s : String} {e : Entry Float} (h : registry.findName? s = some e) :
    Lettered s.toList ∧ trim s.toList ≠ [] := by
  obtain ⟨hne, hkeys⟩ := isKey_of_mem (mem_of_findName? h)
  refine ⟨lettered_of_unitName hkeys, fun hblank => hne ?_⟩
  rw [Spelling.unitName, trimmed, hblank, String.toList_ofList]
  rfl

theorem findName?_empty : registry.findName? (String.ofList []) = none := by
  cases hfind : registry.findName? (String.ofList []) with
  | none => rfl
  | some e =>
    have hne := (lettered_of_findName? hfind).2
    rw [String.toList_ofList] at hne
    exact absurd rfl hne

theorem trimmed_of_all {s : String} (h : s.toList.all isNameChar = true) : trimmed s = s :=
  trimmed_of_solid fun c hc => isBlank_of_isNameChar (List.all_eq_true.1 h c hc)

theorem findName?_symbol {s : String} {e f : Entry Float} (h : (s, e) ∈ symbolListing families)
    (hname : registry.findName? s = some f) : f = e := by
  obtain ⟨hfamily, hunit, n, hn, hkey⟩ := mem_nameListing.1 (mem_of_findName? hname)
  have hplain := orderly.plainNames n (List.mem_flatMap.2 ⟨_, hfamily, List.mem_flatMap.2 ⟨_, hunit, hn⟩⟩)
  have hcompared : n.toList.map compared = s.toList.map compared := by
    rw [← toList_unitName (fun c hc => (hplain c hc).1) fun c hc => (hplain c hc).2, hkey,
      toList_unitName (fun c hc => isBlank_of_isNameChar (List.all_eq_true.1 (isName_symbol h).2 c hc))
        (List.all_eq_true.1 (symbols_unspelled _ h).1)]
  have hlength : n.toList.length = s.toList.length := by
    have := congrArg List.length hcompared
    rwa [List.length_map, List.length_map] at this
  have hsymbol : f.unit.symbol = e.unit.symbol := (names_compared _ hfamily _ hunit n hn).2 _ h hlength hcompared
  obtain ⟨hfamily', hunit', -⟩ := mem_symbolListing.1 h
  have hf := Orderly.find?_symbol orderly builtFrom (mem_own_symbol hfamily hunit)
  have he := Orderly.find?_symbol orderly builtFrom (mem_own_symbol hfamily' hunit')
  rw [hsymbol, he] at hf
  exact (Option.some.inj hf).symm

/-! ## Blanks around a unit -/

/-- **What is found under a text is found without the blanks around it.** -/
theorem find?_trimmed {text : String} {e : Entry Float} (h : registry.find? text = some e) :
    Lettered text.toList ∧ registry.find? (trimmed text) = some e ∧ (e.unit.symbol, e) ∈ symbolListing families := by
  cases hs : registry.findSymbol? text with
  | some f =>
    rw [find?_symbol hs] at h
    cases h
    have hmem := mem_of_findSymbol? hs
    obtain ⟨-, hletters⟩ := isName_symbol hmem
    obtain ⟨hf, hu, -⟩ := mem_symbolListing.1 hmem
    refine ⟨lettered_of_all hletters, ?_, mem_own_symbol hf hu⟩
    rw [trimmed_of_all hletters, find?_symbol hs]
  | none =>
    have hname : registry.findName? text = some e := (find?_of_findSymbol?_eq_none hs).symm.trans h
    obtain ⟨hf, hu, -⟩ := mem_nameListing.1 (mem_of_findName? hname)
    refine ⟨(lettered_of_findName? hname).1, ?_, mem_own_symbol hf hu⟩
    rw [← findName?_trimmed] at hname
    cases hs' : registry.findSymbol? (trimmed text) with
    | none => exact (find?_of_findSymbol?_eq_none hs').trans hname
    | some f => rw [find?_symbol hs', findName?_symbol (mem_of_findSymbol? hs') hname]

/-! ## Blanks behind a prefixed unit -/

/-- a text begins with the name of a prefix, as far as the first letter is not looked at -/
structure Begins (p : SiPrefix) (c : Char) (rest : List Char) : Prop where
  siPrefix : p ∈ prefixes
  letter : isNameChar c = true
  after : ∃ tail, rest = p.name.toList.tail ++ tail

theorem Begins.append {p : SiPrefix} {c : Char} {rest : List Char} (h : Begins p c rest) (back : List Char) :
    Begins p c (rest ++ back) := by
  obtain ⟨hp, hc, tail, rfl⟩ := h
  exact ⟨hp, hc, tail ++ back, List.append_assoc ..⟩

theorem Begins.findSymbol?_eq_none {p : SiPrefix} {c : Char} {rest : List Char} (h : Begins p c rest) {s : String}
    (hs : s.toList = c :: rest) : registry.findSymbol? s = none := by
  obtain ⟨hp, -, tail, hrest⟩ := h
  cases hfind : registry.findSymbol? s with
  | none => rfl
  | some e =>
    have hnone := (symbols_unspelled _ (mem_of_findSymbol? hfind)).2 p hp
    rw [hs, List.tail_cons, after?_eq_some_iff.2 hrest] at hnone
    cases hnone

theorem Begins.stripSymbol_bind_eq_none {p q : SiPrefix} {c : Char} {rest : List Char} (h : Begins p c rest)
    (hq : q ∈ prefixes) :
    (q.stripSymbol (c :: rest)).bind (fun s => prefixable? (registry.findSymbol? (String.ofList s))) = none := by
  obtain ⟨hp, -, tail, hrest⟩ := h
  refine Registry.stripSymbol_bind_eq_none builtFrom fun s hs b hb heq => ?_
  obtain ⟨-, hne, htail⟩ := (prefixes_lettered q hq).2 s hs
  have hafter : after? p.name.toList.tail (s.toList.tail ++ b) = some tail := by
    rw [← List.tail_append_of_ne_nil hne, ← heq, List.tail_cons]
    exact after?_eq_some_iff.2 hrest
  obtain ⟨hnone, hnone'⟩ := prefixed_unspelled p hp b hb
  rcases htail with htail | htail
  · rw [htail, List.nil_append, hnone] at hafter
    cases hafter
  · rw [htail, List.singleton_append, hnone'] at hafter
    cases hafter

/-- blanks behind a text that begins with the name of a prefix do not change how it is taken apart -/
theorem Begins.splitBy_append_blank {p q : SiPrefix} {c : Char} {rest back : List Char} (h : Begins p c rest)
    (hq : q ∈ prefixes) (hb : ∀ c ∈ back, isBlank c = true) :
    registry.splitBy (c :: (rest ++ back)) q = registry.splitBy (c :: rest) q := by
  obtain ⟨⟨hne, hletters⟩, -⟩ := prefixes_lettered q hq
  obtain ⟨n, name, hname⟩ := List.exists_cons_of_ne_nil hne
  rw [hname] at hletters
  refine Registry.splitBy_append_blank hname (fun c hc => ?_) findName?_empty hb fun tail htail => ?_
  · have := List.all_eq_true.1 hletters c (List.mem_cons_of_mem n hc)
    exact isBlank_of_isNameChar (Bool.and_eq_true_iff.1 this).1
  · rcases htail with rfl | rfl
    · exact h.stripSymbol_bind_eq_none hq
    · exact (h.append back).stripSymbol_bind_eq_none hq

theorem cases_of_splitBy {text : List Char} {p : SiPrefix} {e : Entry Float} (hp : p ∈ prefixes)
    (h : registry.splitBy text p = .ok (some e)) :
    (∃ s ∈ p.symbols, ∃ b, text = s.toList ++ b ∧ registry.findSymbol? (String.ofList b) = some e) ∨
      ∃ c b, isNameChar c = true ∧ text = c :: (p.name.toList.tail ++ b) ∧
        registry.findName? (String.ofList b) = some e := by
  obtain ⟨⟨hne, hletters⟩, -⟩ := prefixes_lettered p hp
  obtain ⟨n, name, hname⟩ := List.exists_cons_of_ne_nil hne
  cases hs : (p.stripSymbol text).bind (fun s => prefixable? (registry.findSymbol? (String.ofList s))) with
  | some f =>
    rw [splitBy, hs] at h
    cases h
    obtain ⟨b, hstrip, hb⟩ := Option.bind_eq_some_iff.1 hs
    obtain ⟨-, s, hs, hsplit⟩ := SiPrefix.stripSymbol_eq_some hstrip
    exact .inl ⟨s, hs, b, hsplit, (Option.filter_eq_some_iff.1 hb).1⟩
  | none =>
    cases text with
    | nil =>
      have hstrip : p.stripName [] = .ok none := by simp [SiPrefix.stripName, hname]
      rw [splitBy, hs, hstrip] at h
      cases h
    | cons c rest =>
      rw [splitBy_cons hname hs] at h
      have h := Except.ok.inj h
      split at h
      · next hc =>
        obtain ⟨b, hafter, hb⟩ := Option.bind_eq_some_iff.1 h
        have hletter := List.all_eq_true.1 hletters n (hname ▸ List.mem_cons_self)
        obtain ⟨hlower, hupper⟩ := Bool.and_eq_true_iff.1 hletter
        refine .inr ⟨c, b, ?_, ?_, (Option.filter_eq_some_iff.1 hb).1⟩
        · rcases hc with rfl | rfl
          · exact hlower
          · exact hupper
        · rw [hname, List.tail_cons, after?_eq_some_iff.1 (Option.filter_eq_some_iff.1 hafter).1]
      · cases h

/-- a text that is taken apart by names still begins with the prefix without the blanks behind it -/
theorem exists_begins {text : String} {p : SiPrefix} {c : Char} {b : List Char} (hp : p ∈ prefixes)
    (hc : isNameChar c = true) (htext : text.toList = c :: (p.name.toList.tail ++ b)) (hb : trim b ≠ []) :
    ∃ rest back, Begins p c rest ∧ (∀ c ∈ back, isBlank c = true) ∧ text.toList = c :: (rest ++ back) ∧
      (trimmed text).toList = c :: rest := by
  obtain ⟨front, back, hsides, -, hback⟩ := exists_trim b
  let rest : List Char := p.name.toList.tail ++ (front ++ trim b)
  have hsplit : text.toList = c :: (rest ++ back) := by
    rw [htext]
    conv_lhs => rw [hsides]
    simp [rest]
  -- the last letter of the rest is that of the text in `b`
  have hlast : StopsAt isBlank (c :: rest).reverse := by
    have hreverse : (c :: rest).reverse = (trim b).reverse ++ (c :: (p.name.toList.tail ++ front)).reverse := by
      rw [← List.reverse_append]
      simp [rest]
    obtain ⟨d, ds, hd⟩ := List.exists_cons_of_ne_nil (mt List.reverse_eq_nil_iff.1 hb)
    have hstop := stopsAt_reverse_trim b
    rw [hd] at hstop
    rw [hreverse, hd]
    exact stopsAt_cons.2 (stopsAt_cons.1 hstop)
  refine ⟨rest, back, ⟨hp, hc, front ++ trim b, rfl⟩, hback, hsplit, ?_⟩
  rw [trimmed, String.toList_ofList, hsplit, ← List.cons_append, trim_append_blank hback]
  exact trim_of_head_of_last (stopsAt_cons.2 (isBlank_of_isNameChar hc)) hlast

/-- **A prefixed unit is found without the blanks around it.** -/
theorem findPrefixed?_trimmed {text : String} {p : SiPrefix} {e : Entry Float} (hn : registry.find? text = none)
    (h : registry.findPrefixed? text = .ok (some (p, e))) :
    Lettered text.toList ∧ registry.find? (trimmed text) = none ∧
      registry.findPrefixed? (trimmed text) = .ok (some (p, e)) ∧ Prefixed families prefixes p e := by
  rw [findPrefixed?, builtFrom.prefixes] at h
  obtain ⟨hp, hsplit⟩ := exists_of_splitByFirst h
  obtain ⟨⟨hne, hletters⟩, hsymbols⟩ := prefixes_lettered p hp
  rcases cases_of_splitBy hp hsplit with ⟨s, hs, b, htext, hb⟩ | ⟨c, b, hc, htext, hb⟩
  · have hmem := mem_of_findSymbol? hb
    obtain ⟨hf, hu, -⟩ := mem_symbolListing.1 hmem
    have hunit := (isName_symbol hmem).2
    rw [String.toList_ofList] at hunit
    have hall : text.toList.all isNameChar = true := by
      rw [htext, List.all_append, (hsymbols s hs).1, hunit]
      rfl
    rw [trimmed_of_all hall, findPrefixed?, builtFrom.prefixes]
    exact ⟨lettered_of_all hall, hn, h, ⟨hp, hf, hu, splitBy_prefixable hsplit⟩⟩
  · obtain ⟨hlettered, hblank⟩ := lettered_of_findName? hb
    rw [String.toList_ofList] at hlettered hblank
    obtain ⟨hf, hu, -⟩ := mem_nameListing.1 (mem_of_findName? hb)
    obtain ⟨rest, back, hbegins, hback, hsplit', htrimmed⟩ := exists_begins hp hc htext hblank
    have hnone : registry.findName? (trimmed text) = none := by rw [findName?_trimmed, findName?_eq_none hn]
    refine ⟨?_, ?_, ?_, ⟨hp, hf, hu, splitBy_prefixable hsplit⟩⟩
    · rw [htext]
      intro d hd
      rcases List.mem_cons.1 hd with rfl | hd
      · exact .inl hc
      · rcases List.mem_append.1 hd with hd | hd
        · have := List.all_eq_true.1 hletters d (List.mem_of_mem_tail hd)
          exact .inl (Bool.and_eq_true_iff.1 this).1
        · exact hlettered d hd
    · rw [find?_of_findSymbol?_eq_none (hbegins.findSymbol?_eq_none htrimmed), hnone]
    · rw [findPrefixed?, builtFrom.prefixes, htrimmed, ← h, hsplit']
      exact (splitByFirst_congr fun q hq => hbegins.splitBy_append_blank hq hback).symm

/-! ## Symbols that are shown -/

theorem exists_of_resolve {κ : Type} [Numeric κ] {r : Registry κ} {s : String} {p : SiPrefix} {e : Entry κ}
    {u : UnitMeaning κ} (hn : r.find? s = none) (h : r.findPrefixed? s = .ok (some (p, e)))
    (hu : resolve r false s = .ok u) :
    ∃ t v, p.scale = .ok t ∧ e.unit.scale.mul t = .ok v ∧ u = meaningOf e.unit e.family v s := by
  cases hp : p.scale with
  | error fault =>
    simp only [resolve, lookupName, hn, h, bind, Except.bind, hp] at hu
    cases hu
  | ok t =>
    cases hv : e.unit.scale.mul t with
    | error fault =>
      simp only [resolve, lookupName, hn, h, bind, Except.bind, hp, hv] at hu
      cases hu
    | ok v =>
      rw [resolve_of_findPrefixed? hn h hp hv] at hu
      exact ⟨t, v, rfl, hv, (Except.ok.inj hu).symm⟩

/-- where every prefix has a name, a search for one comes to an end -/
theorem exists_findPrefixed? {κ : Type} [Numeric κ] {r : Registry κ} (h : ∀ p ∈ r.prefixes, p.name ≠ "")
    (text : String) : ∃ found, r.findPrefixed? text = .ok found := by
  have hends := ends_splitByFirst r text.toList r.prefixes
  rw [findPrefixed?]
  cases hsplit : r.splitByFirst text.toList r.prefixes with
  | ok found => exact ⟨found, rfl⟩
  | error fault =>
    rw [hsplit] at hends
    obtain ⟨-, p, hp, hname⟩ := hends
    exact absurd hname (h p hp)

theorem exists_findPrefixed?_registry (text : String) : ∃ found, registry.findPrefixed? text = .ok found := by
  refine exists_findPrefixed? ?_ text
  rw [builtFrom.prefixes]
  exact fun p hp hname => (prefixes_lettered p hp).1.1 (String.toList_eq_nil_iff.2 hname)

section

variable {κ : Type} [Numeric κ] {c : Context κ} {text : String}

theorem symbolOf_found {e : Entry κ} (h : c.registry.find? text = some e) (m : Store κ) :
    Session.symbolOf text c m = .ok (e.unit.symbol, m) := by
  unfold Session.symbolOf
  refine (Session.bind_of_ok (show Session.registry c m = .ok (c.registry, m) from rfl)).trans ?_
  simp only [h]
  rfl

theorem symbolOf_prefixed {p : SiPrefix} {e : Entry κ} (hn : c.registry.find? text = none)
    (h : c.registry.findPrefixed? text = .ok (some (p, e))) (m : Store κ) :
    Session.symbolOf text c m = .ok (p.symbol ++ e.unit.symbol, m) := by
  unfold Session.symbolOf
  refine (Session.bind_of_ok (show Session.registry c m = .ok (c.registry, m) from rfl)).trans ?_
  simp only [hn]
  exact Session.bind_of_ok (Session.lift_eq_ok_iff.2 ⟨h, rfl⟩)

theorem symbolOf_other (hn : c.registry.find? text = none) (h : c.registry.findPrefixed? text = .ok none)
    (m : Store κ) : Session.symbolOf text c m = .ok (text, m) := by
  unfold Session.symbolOf
  refine (Session.bind_of_ok (show Session.registry c m = .ok (c.registry, m) from rfl)).trans ?_
  simp only [hn]
  exact Session.bind_of_ok (Session.lift_eq_ok_iff.2 ⟨h, rfl⟩)

end

/-- **The symbol that is shown for a text means what the text means.** -/
theorem exists_symbolOf {text : String} {u : UnitMeaning Float} (hu : evaluateText registry false text = .ok u)
    {c : Context Float} (hc : c.registry = registry) :
    ∃ symbol, Means symbol u ∧ ∀ m, Session.symbolOf text c m = .ok (symbol, m) := by
  cases hf : registry.find? text with
  | some e =>
    obtain ⟨hlettered, hfound, hmem⟩ := find?_trimmed hf
    obtain ⟨-, hresolve⟩ := resolve_of_lettered hu hlettered
    rw [resolve_of_find? hfound] at hresolve
    cases hresolve
    exact ⟨e.unit.symbol, ⟨_, evaluateText_name (isName_symbol hmem) (resolve_symbol hmem), rfl⟩,
      symbolOf_found (hc ▸ hf)⟩
  | none =>
    obtain ⟨found, hp⟩ := exists_findPrefixed?_registry text
    cases found with
    | none => exact ⟨text, ⟨u, hu, rfl⟩, symbolOf_other (hc ▸ hf) (hc ▸ hp)⟩
    | some found =>
      obtain ⟨p, e⟩ := found
      obtain ⟨hlettered, hnone, hfound, hprefixed⟩ := findPrefixed?_trimmed hf hp
      obtain ⟨-, hresolve⟩ := resolve_of_lettered hu hlettered
      obtain ⟨t, v, ht, hv, rfl⟩ := exists_of_resolve hnone hfound hresolve
      exact ⟨p.symbol ++ e.unit.symbol,
        ⟨_, evaluateText_name (isName_prefixed hprefixed) (resolve_prefixed hprefixed ht hv), rfl⟩,
        symbolOf_prefixed (hc ▸ hf) (hc ▸ hp)⟩

end Catalog

end UnitAlgebra

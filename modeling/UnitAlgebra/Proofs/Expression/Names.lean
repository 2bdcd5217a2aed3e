/-
Texts that are one name. A name is read as itself. Names do not follow one another in an expression, so a text of
letters and blanks that is read at all is one name, with blanks around it.

Results:
- `parse_name`: a name is read as itself.
- `isName_of_parse`: the identifiers of a text are names.
- `parse_lettered`: a text of letters and blanks that is read is one name.
-/
import UnitAlgebra.Proofs.Catalog.Orderly
import UnitAlgebra.Proofs.Expression.Composition

namespace UnitAlgebra.Expression

open Text
open Catalog (IsName)

/-! ## Names that are read -/

theorem Name.isName (n : Name) : IsName (String.ofList n.chars).toList := by
  rw [String.toList_ofList]
  exact ⟨n.nonempty, List.all_eq_true.2 n.letters⟩

theorem ne_name_of_mark? {c : Char} {t : Terminal} (h : mark? c = some t) (s : String) : t ≠ .name s := by
  rintro rfl
  unfold mark? at h
  split_ifs at h <;> cases h

theorem Lexeme.isName {cs rest : List Char} {ts : List Terminal} (h : Lexeme cs ts rest) {s : String}
    (hs : .name s ∈ ts) : IsName s.toList := by
  cases h with
  | blank _ => cases hs
  | mark hm => exact absurd (List.mem_singleton.1 hs).symm (ne_name_of_mark? hm s)
  | literal l _ => cases List.mem_singleton.1 hs
  | name n _ _ =>
    cases List.mem_singleton.1 hs
    exact n.isName
  | raised n l _ =>
    rcases List.mem_cons.1 hs with hs | hs
    · cases hs
      exact n.isName
    · simp [Literal.terminal] at hs

theorem Reads.isName {cs : List Char} {ts : List Terminal} (h : Reads cs ts) {s : String} (hs : .name s ∈ ts) :
    IsName s.toList := by
  induction h with
  | nil => cases hs
  | cons hlex _ ih =>
    rcases List.mem_append.1 hs with hs | hs
    · exact hlex.isName hs
    · exact ih hs

theorem Derivation.mem_leaves {k : Category} (d : Derivation k) {s : String} (h : s ∈ d.tree.identifiers) :
    .name s ∈ d.leaves := by
  induction d with
  | name text =>
    cases List.mem_singleton.1 h
    exact List.mem_singleton_self _
  | integer value digits => cases h
  | group inner ih => exact List.mem_append_left _ (List.mem_cons_of_mem _ (ih h))
  | plain base ih => exact ih h
  | raised base exponent ih => exact List.mem_append_left _ (ih h)
  | single only ih => exact ih h
  | times left right ihl ihr =>
    rcases List.mem_append.1 h with h | h
    · exact List.mem_append_left _ (ihl h)
    · exact List.mem_append_right _ (List.mem_cons_of_mem _ (ihr h))
  | whole only ih => exact ih h
  | per left right ihl ihr =>
    rcases List.mem_append.1 h with h | h
    · exact List.mem_append_left _ (ihl h)
    · exact List.mem_append_right _ (List.mem_cons_of_mem _ (ihr h))

/-- The identifiers of a text are names. -/
theorem isName_of_parse {text s : String} {t : UnitExpr} (h : parse text = .ok t) (hs : s ∈ t.identifiers) :
    IsName s.toList := by
  obtain ⟨d, hreads, -, rfl⟩ := exists_derivation h
  exact hreads.isName (d.mem_leaves hs)

/-! ## Characters that are read -/

/-- a character of some lexeme -/
def isReadable (c : Char) : Bool := isBlank c || (mark? c).isSome || isSign c || isDecimal c || isNameChar c

theorem Literal.isReadable {l : Literal} {c : Char} (h : c ∈ l.chars) : isReadable c = true := by
  rcases l.class_of_mem h with h | h <;> simp [Expression.isReadable, h]

theorem Name.isReadable {n : Name} {c : Char} (h : c ∈ n.chars) : isReadable c = true := by
  simp [Expression.isReadable, n.letters c h]

theorem Lexeme.isReadable {cs rest : List Char} {ts : List Terminal} (h : Lexeme cs ts rest) {c : Char} (hc : c ∈ cs) :
    isReadable c = true ∨ c ∈ rest := by
  cases h with
  | blank hb => exact (List.mem_cons.1 hc).imp_left fun h => by simp [Expression.isReadable, h, hb]
  | mark hm => exact (List.mem_cons.1 hc).imp_left fun h => by simp [Expression.isReadable, h, hm]
  | literal l _ => exact (List.mem_append.1 hc).imp_left Literal.isReadable
  | name n _ _ => exact (List.mem_append.1 hc).imp_left Name.isReadable
  | raised n l _ =>
    rcases List.mem_append.1 hc with hc | hc
    · exact .inl (Name.isReadable hc)
    · exact (List.mem_append.1 hc).imp_left Literal.isReadable

/-- A text that is read has no other characters. -/
theorem Reads.isReadable {cs : List Char} {ts : List Terminal} (h : Reads cs ts) {c : Char} (hc : c ∈ cs) :
    isReadable c = true := by
  induction h with
  | nil => cases hc
  | cons hlex _ ih => exact (hlex.isReadable hc).elim id ih

theorem Reads.eq_nil {ts : List Terminal} (h : Reads [] ts) : ts = [] := by
  cases h with
  | nil => rfl
  | cons hlex _ =>
    obtain ⟨c, rest, -, hsplit, -⟩ := lexeme_of_lexeme hlex 0
    cases hsplit

theorem Derivation.leaves_ne_nil {k : Category} (d : Derivation k) : d.leaves ≠ [] := by
  induction d with
  | name | integer | group => exact List.cons_ne_nil _ _
  | plain base ih | single only ih | whole only ih => exact ih
  | raised base exponent ih => exact List.append_ne_nil_of_left_ne_nil ih _
  | times left right ihl _ | per left right ihl _ => exact List.append_ne_nil_of_left_ne_nil ihl _

/-! ## Names that are written -/

/-- A name is read as itself. -/
theorem parse_name {s : String} (h : IsName s.toList) : parse s = .ok (.identifier s) := by
  have hwrites := writes_name h.1 h.2
  refine parse_of_derivation (d := .whole (.single (.plain (.name s)))) ?_ hwrites.short
  rw [trim_of_solid hwrites.solid]
  exact hwrites.reads

section

variable {κ : Type} [Numeric κ] {r : Registry κ} {strict : Bool}

theorem evaluateText_name {s : String} (h : IsName s.toList) {u : UnitMeaning κ} (hu : resolve r strict s = .ok u) :
    evaluateText r strict s = .ok u := by
  rw [evaluateText_of_parse (parse_name h), evaluate, hu]
  rfl

end

/-! ## Letters and blanks -/

/-- letters and blanks say nothing but names -/
theorem Lexeme.lettered {cs rest : List Char} {ts : List Terminal} (h : Lexeme cs ts rest) (hc : Lettered cs) :
    (∀ t ∈ ts, ∃ s, t = .name s) ∧ Lettered rest := by
  have hliteral : ∀ (l : Literal) (tail : List Char), ¬ Lettered (l.chars ++ tail) := by
    intro l tail hl
    obtain ⟨c, cs, hsplit, hblank, -, hletter⟩ := l.exists_head
    rw [hsplit] at hl
    rcases hl c List.mem_cons_self with h | h
    · rw [hletter] at h
      cases h
    · rw [hblank] at h
      cases h
  refine ⟨?_, fun c h' => hc c (h.suffix.subset h')⟩
  cases h with
  | blank _ => exact nofun
  | @mark c _ _ hm =>
    have hmark := isMark_of_mark? hm
    rcases hc c List.mem_cons_self with h | h
    · rw [hmark.letter] at h
      cases h
    · rw [hmark.blank] at h
      cases h
  | literal l _ => exact absurd hc (hliteral l _)
  | name n _ _ =>
    intro t ht
    exact ⟨_, List.mem_singleton.1 ht⟩
  | raised n l _ => exact absurd (fun c h => hc c (List.mem_append_right _ h)) (hliteral l _)

theorem Reads.lettered {cs : List Char} {ts : List Terminal} (h : Reads cs ts) (hc : Lettered cs) :
    ∀ t ∈ ts, ∃ s, t = .name s := by
  induction h with
  | nil => exact nofun
  | cons hlex _ ih =>
    intro t ht
    rcases List.mem_append.1 ht with ht | ht
    · exact (hlex.lettered hc).1 t ht
    · exact ih (hlex.lettered hc).2 t ht

theorem Derivation.exists_name {k : Category} (d : Derivation k) (h : ∀ t ∈ d.leaves, ∃ s, t = .name s) :
    ∃ s, d.leaves = [.name s] ∧ d.tree = .identifier s := by
  have hmark : ∀ {t : Terminal}, t ∈ d.leaves → (∀ s, t ≠ .name s) → False := fun ht hne =>
    (h _ ht).elim hne
  induction d with
  | name text => exact ⟨text, rfl, rfl⟩
  | integer value digits => exact (hmark List.mem_cons_self nofun).elim
  | group inner ih => exact (hmark (t := .opening) List.mem_cons_self nofun).elim
  | plain base ih => exact ih h hmark
  | raised base exponent ih =>
    exact (hmark (t := .caret) (List.mem_append_right _ List.mem_cons_self) nofun).elim
  | single only ih => exact ih h hmark
  | times left right ihl ihr =>
    exact (hmark (t := .times) (List.mem_append_right _ List.mem_cons_self) nofun).elim
  | whole only ih => exact ih h hmark
  | per left right ihl ihr =>
    exact (hmark (t := .slash) (List.mem_append_right _ List.mem_cons_self) nofun).elim

theorem blank_of_reads_nil {cs : List Char} (h : Reads cs []) : ∀ c ∈ cs, isBlank c = true := by
  generalize hts : [] = ts at h
  induction h with
  | nil => exact nofun
  | cons hlex _ ih =>
    obtain ⟨rfl, rfl⟩ := List.append_eq_nil_iff.1 hts.symm
    cases hlex with
    | blank hb =>
      intro c hc
      rcases List.mem_cons.1 hc with rfl | hc
      · exact hb
      · exact ih rfl c hc

/-- a text that says one name is the name, with blanks around it -/
theorem trim_of_reads_name {cs : List Char} {s : String} (h : Reads cs [.name s]) : trim cs = s.toList := by
  generalize hts : [Terminal.name s] = ts at h
  induction h with
  | nil => cases hts
  | @cons cs rest ts us hlex hrest ih =>
    cases hlex with
    | @blank c _ hb =>
      rw [← ih hts, trim, trim, List.dropWhile_cons_of_pos hb]
    | mark hm => exact absurd (List.cons.inj hts).1.symm (ne_name_of_mark? hm s)
    | literal l _ => cases (List.cons.inj hts).1
    | name n _ _ =>
      obtain ⟨hname, hus⟩ := List.cons.inj hts
      subst hus
      cases hname
      rw [trim_append_blank (blank_of_reads_nil hrest), String.toList_ofList]
      exact trim_of_solid fun c hc => isBlank_of_isNameChar (n.letters c hc)
    | raised n l _ => cases (List.cons.inj hts).2

/-- **A text of letters and blanks that is read is one name.** -/
theorem parse_lettered {text : String} {t : UnitExpr} (h : parse text = .ok t) (hc : Lettered text.toList) :
    t = .identifier (trimmed text) ∧ IsName (trimmed text).toList := by
  obtain ⟨d, hreads, -, rfl⟩ := exists_derivation h
  obtain ⟨s, hleaves, htree⟩ := d.exists_name (hreads.lettered hc)
  rw [hleaves] at hreads
  have htext : trimmed text = s := by rw [trimmed, trim_of_reads_name hreads, String.ofList_toList]
  rw [htext]
  exact ⟨htree, hreads.isName (List.mem_singleton_self _)⟩

theorem resolve_of_lettered {κ : Type} [Numeric κ] {r : Registry κ} {strict : Bool} {text : String} {u : UnitMeaning κ}
    (hu : evaluateText r strict text = .ok u) (hc : Lettered text.toList) :
    IsName (trimmed text).toList ∧ resolve r strict (trimmed text) = .ok u := by
  cases hp : parse text with
  | error fault =>
    simp only [evaluateText, parse_trimmed, hp] at hu
    cases hu
  | ok t =>
    obtain ⟨rfl, hname⟩ := parse_lettered hp hc
    rw [evaluateText_of_parse hp, evaluate] at hu
    cases hr : resolve r strict (trimmed text) with
    | error fault =>
      rw [hr] at hu
      cases hu
    | ok v =>
      rw [hr] at hu
      exact ⟨hname, hu⟩

end UnitAlgebra.Expression

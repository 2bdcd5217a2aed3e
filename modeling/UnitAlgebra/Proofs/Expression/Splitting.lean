/-
Readings of texts in two parts. Where no lexeme reaches over from the first part into the second, the reading of the
whole is that of the parts, one behind the other. A lexeme can only reach over where the second part begins with a
letter, a digit or a sign, and a letter goes on with letters alone.

Results:
- `Lexeme.unique`: a text begins with one lexeme.
- `Lexeme.exists_word`: a lexeme is a word that stays a lexeme when what follows is cut off.
- `Reads.join`, `Reads.split`: readings of two parts and readings of the whole.
- `Reads.trim`: a reading is that of the trimmed text.
-/
import Mathlib.Data.List.Chain
import UnitAlgebra.Proofs.Expression.Reading

namespace UnitAlgebra.Expression

open Text

/-! ## One lexeme -/

/-- A text begins with one lexeme. -/
theorem Lexeme.unique {cs rest rest' : List Char} {ts ts' : List Terminal} (h : Lexeme cs ts rest)
    (h' : Lexeme cs ts' rest') : ts = ts' ∧ rest = rest' := by
  obtain ⟨c, tail, tokens, rfl, hlex, hshows⟩ := lexeme_of_lexeme h 0
  obtain ⟨c', tail', tokens', hsame, hlex', hshows'⟩ := lexeme_of_lexeme h' 0
  cases hsame
  cases hlex.symm.trans hlex'
  exact ⟨Token.rightUnique_shows.forall₂ hshows hshows', rfl⟩

theorem Reads.of_lexeme {cs rest : List Char} {ts vs : List Terminal} (hl : Lexeme cs ts rest) (h : Reads cs vs) :
    ∃ us, vs = ts ++ us ∧ Reads rest us := by
  cases h with
  | nil =>
    obtain ⟨c, tail, -, hsplit, -⟩ := lexeme_of_lexeme hl 0
    cases hsplit
  | cons hl' hr =>
    obtain ⟨rfl, rfl⟩ := hl.unique hl'
    exact ⟨_, rfl, hr⟩

/-! ## Where texts part -/

/-- no lexeme of the first text goes on in the second -/
def Parted (cs ds : List Char) : Prop :=
  ∀ d ∈ ds.head?, isDecimal d = false ∧ isSign d = false ∧ (isNameChar d = true → StopsAt isNameChar cs.reverse)

theorem parted_nil (cs : List Char) : Parted cs [] := nofun

theorem Apart.parted {ds : List Char} (h : Apart ds) (cs : List Char) : Parted cs ds := by
  cases ds with
  | nil => exact parted_nil cs
  | cons d ds =>
    obtain ⟨hdecimal, hsign, hletter⟩ := h.head
    intro c hc
    cases hc
    refine ⟨hdecimal, hsign, fun h => ?_⟩
    rw [hletter] at h
    cases h

/-- a text that begins with a letter is parted from one that does not end with one -/
theorem parted_of_letter {d : Char} (hd : isNameChar d = true) {cs : List Char} (h : StopsAt isNameChar cs.reverse)
    (ds : List Char) : Parted cs (d :: ds) := by
  intro c hc
  cases hc
  refine ⟨isDecimal_of_isNameChar hd, ?_, fun _ => h⟩
  cases hs : isSign d with
  | false => rfl
  | true =>
    rw [(class_of_isSign hs).2.2.1] at hd
    cases hd

theorem Parted.of_suffix {cs front ds : List Char} (h : Parted (cs ++ front) ds) : Parted front ds := by
  intro d hd
  obtain ⟨hdecimal, hsign, hletter⟩ := h d hd
  refine ⟨hdecimal, hsign, fun hl => ?_⟩
  have hstop := hletter hl
  cases front.eq_nil_or_concat with
  | inl hnil =>
    rw [hnil]
    exact stopsAt_nil _
  | inr hlast =>
    obtain ⟨init, c, rfl⟩ := hlast
    rw [List.concat_eq_append, List.reverse_append, List.reverse_append] at hstop
    rw [List.concat_eq_append, List.reverse_append]
    exact stopsAt_cons.2 (stopsAt_cons.1 hstop)

theorem Parted.stopsAt_decimal {cs ds : List Char} (h : Parted cs ds) : StopsAt isDecimal ds := fun d hd => (h d hd).1

/-- a literal that begins before the second text ends before it -/
theorem Literal.prefix_of_parted {l : Literal} {cs rest ds : List Char} (hd : Parted cs ds)
    (h : l.chars <+: rest ++ ds) : l.chars <+: rest := by
  obtain ⟨more, h⟩ := h
  rcases List.append_eq_append_iff.1 h with ⟨inner, hrest, -⟩ | ⟨tail, htail, rfl⟩
  · exact hrest ▸ List.prefix_append _ _
  · cases tail with
    | nil =>
      have hsame : l.chars = rest := htail.trans (List.append_nil rest)
      exact hsame ▸ List.prefix_refl _
    | cons c tail =>
      obtain ⟨hdecimal, hsign, -⟩ := hd c rfl
      have hc : c ∈ l.chars := htail ▸ List.mem_append_right _ List.mem_cons_self
      rcases l.class_of_mem hc with hc | hc
      · rw [hsign] at hc
        cases hc
      · rw [hdecimal] at hc
        cases hc

/-! ## Joined readings -/

theorem Name.stopsAt_of_parted (n : Name) {rest ds : List Char} (hs : StopsAt isNameChar rest)
    (h : Parted (n.chars ++ rest) ds) : StopsAt isNameChar (rest ++ ds) := by
  cases rest with
  | cons c rest => exact stopsAt_cons.2 (stopsAt_cons.1 hs)
  | nil =>
    intro d hd
    cases hl : isNameChar d with
    | false => rfl
    | true =>
      have hstop := (h d hd).2.2 hl
      rw [List.append_nil] at hstop
      rw [← hstop (n.chars.getLast n.nonempty) (by rw [List.head?_reverse, List.getLast?_eq_getLast_of_ne_nil]; rfl)]
      exact (n.letters _ (List.getLast_mem n.nonempty)).symm

theorem Lexeme.join {cs rest ds : List Char} {ts : List Terminal} (h : Lexeme cs ts rest) (hd : Parted cs ds) :
    Lexeme (cs ++ ds) ts (rest ++ ds) := by
  cases h with
  | blank hb => exact .blank hb
  | mark hm => exact .mark hm
  | literal l hs =>
    rw [List.append_assoc]
    exact .literal l (stopsAt_append hs hd.stopsAt_decimal)
  | name n hs hl =>
    rw [List.append_assoc]
    exact .name n (n.stopsAt_of_parted hs hd) fun l hp => hl l (l.prefix_of_parted hd hp)
  | raised n l hs =>
    rw [List.append_assoc, List.append_assoc]
    exact .raised n l (stopsAt_append hs hd.stopsAt_decimal)

/-- **Readings join.** Two texts that are parted are read one behind the other. -/
theorem Reads.join {cs ds : List Char} {ts us : List Terminal} (ht : Reads cs ts) (hu : Reads ds us)
    (hd : Parted cs ds) : Reads (cs ++ ds) (ts ++ us) := by
  induction ht with
  | nil => exact hu
  | cons hlex _ ih =>
    obtain ⟨word, hword⟩ := hlex.suffix
    rw [List.append_assoc]
    exact .cons (hlex.join hd) (ih (hword ▸ hd).of_suffix)

/-! ## Words -/

/-- a lexeme goes on from one character to the other -/
def Joins (a b : Char) : Prop := isDecimal b = true ∨ isSign b = true ∨ isNameChar a = true ∧ isNameChar b = true

theorem isChain_letters {cs : List Char} (h : ∀ c ∈ cs, isNameChar c = true) : cs.IsChain Joins :=
  (List.pairwise_of_forall_mem_list fun a ha b hb => .inr (.inr ⟨h a ha, h b hb⟩)).isChain

theorem Literal.isChain (l : Literal) : l.chars.IsChain Joins :=
  (List.pairwise_of_forall_mem_list fun _ _ _ hb => (l.class_of_mem hb).elim (fun hs => .inr (.inl hs)) .inl).isChain

/-- **Lexemes are words.** A lexeme takes a word without a seam from the text, and it is a lexeme as well where less
follows the word. -/
theorem Lexeme.exists_word {cs rest : List Char} {ts : List Terminal} (h : Lexeme cs ts rest) :
    ∃ word, cs = word ++ rest ∧ word ≠ [] ∧ word.IsChain Joins ∧
      ∀ front, front <+: rest → Lexeme (word ++ front) ts front := by
  have hstops : ∀ {p : Char → Bool} {front rest : List Char}, StopsAt p rest → front <+: rest → StopsAt p front := by
    rintro p front _ hs ⟨back, rfl⟩
    cases front with
    | nil => exact stopsAt_nil p
    | cons c front => exact stopsAt_cons.2 (stopsAt_cons.1 hs)
  cases h with
  | @blank c _ hb => exact ⟨[c], rfl, by simp, .singleton c, fun front _ => .blank hb⟩
  | @mark c _ _ hm => exact ⟨[c], rfl, by simp, .singleton c, fun front _ => .mark hm⟩
  | literal l hs =>
    exact ⟨l.chars, rfl, by simp [Literal.chars, l.nonempty], l.isChain,
      fun front hf => .literal l (hstops hs hf)⟩
  | name n hs hl =>
    exact ⟨n.chars, rfl, n.nonempty, isChain_letters n.letters,
      fun front hf => .name n (hstops hs hf) fun l hp => hl l (hp.trans hf)⟩
  | raised n l hs =>
    refine ⟨n.chars ++ l.chars, (List.append_assoc _ _ _).symm, by simp [n.nonempty], ?_, fun front hf => ?_⟩
    · refine List.isChain_append.2 ⟨isChain_letters n.letters, l.isChain, fun a _ b hb => ?_⟩
      exact (l.class_of_mem (List.mem_of_mem_head? hb)).elim (fun hs => .inr (.inl hs)) .inl
    · rw [List.append_assoc]
      exact .raised n l (hstops hs hf)

theorem Parted.not_joins {cs ds : List Char} (h : Parted cs ds) {a b : Char} (ha : a ∈ cs.getLast?)
    (hb : b ∈ ds.head?) : ¬ Joins a b := by
  obtain ⟨hdecimal, hsign, hletter⟩ := h b hb
  rintro (hj | hj | ⟨hja, hjb⟩)
  · rw [hdecimal] at hj
    cases hj
  · rw [hsign] at hj
    cases hj
  · rw [← List.head?_reverse] at ha
    rw [hletter hjb a ha] at hja
    cases hja

/-! ## Split readings -/

/-- **Readings split.** The reading of two parted texts one behind the other is made up of their readings. -/
theorem Reads.split {cs ds : List Char} {vs : List Terminal} (h : Reads (cs ++ ds) vs) (hd : Parted cs ds) :
    ∃ ts us, vs = ts ++ us ∧ Reads cs ts ∧ Reads ds us := by
  generalize hall : cs ++ ds = all at h
  induction h generalizing cs with
  | nil =>
    obtain ⟨rfl, rfl⟩ := List.append_eq_nil_iff.1 hall
    exact ⟨[], [], rfl, .nil, .nil⟩
  | @cons _ rest ts us hlex hrest ih =>
    cases cs with
    | nil =>
      cases hall
      exact ⟨[], ts ++ us, rfl, .nil, .cons hlex hrest⟩
    | cons c cs =>
      obtain ⟨word, rfl, hne, hchain, hcut⟩ := hlex.exists_word
      rcases List.append_eq_append_iff.1 hall with ⟨inner, rfl, rfl⟩ | ⟨front, hfront, rfl⟩
      · -- the word reaches the end of the first text, and stops there
        cases inner with
        | nil =>
          refine ⟨ts, us, rfl, ?_, hrest⟩
          have hwhole := hcut [] List.nil_prefix
          rw [List.append_nil, List.append_nil] at hwhole
          simpa using Reads.cons hwhole .nil
        | cons b inner =>
          have hlast := List.getLast?_eq_getLast_of_ne_nil (List.cons_ne_nil c cs)
          exact absurd ((List.isChain_append.1 hchain).2.2 _ hlast b rfl) (hd.not_joins hlast rfl)
      · rw [hfront] at hd ⊢
        obtain ⟨ts', us', rfl, hts', hus'⟩ := ih hd.of_suffix rfl
        exact ⟨ts ++ ts', us', (List.append_assoc _ _ _).symm,
          .cons (hcut front (List.prefix_append _ _)) hts', hus'⟩

theorem Reads.of_append_blank {cs back : List Char} {ts : List Terminal} (h : Reads (cs ++ back) ts)
    (hb : ∀ c ∈ back, isBlank c = true) : Reads cs ts := by
  obtain ⟨us, vs, rfl, hus, hvs⟩ := h.split ((apart_blank hb).parted cs)
  rw [hvs.unique (reads_blank hb), List.append_nil]
  exact hus

theorem Reads.of_blank_append {front cs : List Char} {ts : List Terminal} (h : Reads (front ++ cs) ts)
    (hb : ∀ c ∈ front, isBlank c = true) : Reads cs ts := by
  induction front with
  | nil => exact h
  | cons c front ih =>
    obtain ⟨us, rfl, hus⟩ := h.of_lexeme (.blank (hb c List.mem_cons_self))
    exact ih hus fun d hd => hb d (List.mem_cons_of_mem c hd)

/-- A reading is that of the trimmed text. -/
theorem Reads.trim {cs : List Char} {ts : List Terminal} (h : Reads cs ts) : Reads (trim cs) ts := by
  obtain ⟨front, back, hsplit, hfront, hback⟩ := exists_trim cs
  rw [hsplit, List.append_assoc] at h
  exact (h.of_blank_append hfront).of_append_blank hback

end UnitAlgebra.Expression

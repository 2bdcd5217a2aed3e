/-
Small letters, one character at a time. The first run of the table holds all capitals of ASCII, so that a text of ASCII
letters is put into small letters without a look at the rest of the table.

Results:
- `mapRuns_lowerRuns`: the table on ASCII.
- `toList_lower`: small letters of a text without the two letters that are not mapped on their own.
- `toList_unitName`, `toList_familyName`: how a name of a unit without blanks, and that of a family, is compared.
- `lettered_of_unitName`: a text that is compared as letters of names has only letters and blanks.
- `toList_unitName_of_keys`: without blanks, it is compared character by character.
-/
import UnitAlgebra.Proofs.Text.Classes
import UnitAlgebra.Registry.Build

namespace UnitAlgebra.Text

/-! ## Characters -/

/-- the small letter of a character -/
def small (c : Char) : Char :=
  if 65 ≤ c.toNat ∧ c.toNat ≤ 90 then Char.ofNat (c.toNat + 32)
  else if c.toNat < 128 then c
  else mapRuns lowerRuns c

theorem mapRuns_of_lt {bound : Nat} {runs : List (Nat × Nat × Nat × Int)} (h : ∀ r ∈ runs, bound ≤ r.1) {c : Char}
    (hc : c.toNat < bound) : mapRuns runs c = c := by
  induction runs with
  | nil => rfl
  | cons r runs ih =>
    obtain ⟨first, last, step, distance⟩ := r
    have hfirst : bound ≤ first := h _ List.mem_cons_self
    rw [mapRuns, if_neg (by omega)]
    exact ih fun s hs => h s (List.mem_cons_of_mem _ hs)

/-- Only the first run of the table has to do with ASCII. -/
theorem mapRuns_lowerRuns (c : Char) : mapRuns lowerRuns c = small c := by
  have hrest : ∀ r ∈ lowerRuns.tail, 128 ≤ r.1 := by decide +kernel
  have hrun : mapRuns lowerRuns c = if 65 ≤ c.toNat ∧ c.toNat ≤ 90 ∧ (c.toNat - 65) % 1 = 0 then
      Char.ofNat ((c.toNat : Int) + 32).toNat else mapRuns lowerRuns.tail c := rfl
  unfold small
  by_cases hcap : 65 ≤ c.toNat ∧ c.toNat ≤ 90
  · rw [hrun, if_pos ⟨hcap.1, hcap.2, Nat.mod_one _⟩, if_pos hcap]
    rfl
  · rw [if_neg hcap]
    split
    · next hascii =>
      rw [hrun, if_neg fun h => hcap ⟨h.1, h.2.1⟩]
      exact mapRuns_of_lt hrest hascii
    · rfl

/-- a character that is put into small letters on its own -/
def isSimple (c : Char) : Bool := c ≠ 'Σ' && c ≠ 'İ'

theorem lowerFrom_of_simple {cs : List Char} (h : ∀ c ∈ cs, isSimple c = true) (before : List Char) :
    lowerFrom before cs = cs.map small := by
  induction cs generalizing before with
  | nil => rfl
  | cons c cs ih =>
    have hc : c ≠ 'Σ' ∧ c ≠ 'İ' := by simpa [isSimple] using h c List.mem_cons_self
    simp only [lowerFrom, hc.1, hc.2, if_false, mapRuns_lowerRuns, List.map_cons, List.singleton_append]
    rw [ih fun d hd => h d (List.mem_cons_of_mem c hd)]

theorem toList_lower {s : String} (h : ∀ c ∈ s.toList, isSimple c = true) : (lower s).toList = s.toList.map small := by
  rw [lower, String.toList_ofList, lowerFrom_of_simple h]

/-! ## Texts without blanks -/

theorem trim_of_solid {cs : List Char} (h : ∀ c ∈ cs, isBlank c = false) : trim cs = cs :=
  trim_of_head_of_last (fun c hc => h c (List.mem_of_mem_head? hc))
    fun c hc => h c (List.mem_reverse.1 (List.mem_of_mem_head? hc))

theorem trimmed_of_solid {s : String} (h : ∀ c ∈ s.toList, isBlank c = false) : trimmed s = s := by
  rw [trimmed, trim_of_solid h, String.ofList_toList]

/-- a character as it stands in a name that is compared -/
def compared (c : Char) : Char := if small c = ' ' then '_' else small c

/-- A name without blanks is compared character by character. -/
theorem toList_unitName {s : String} (hb : ∀ c ∈ s.toList, isBlank c = false) (hs : ∀ c ∈ s.toList, isSimple c = true) :
    (Spelling.unitName s).toList = s.toList.map compared := by
  rw [Spelling.unitName, String.toList_ofList, trimmed_of_solid hb, toList_lower hs, List.map_map]
  rfl

/-- a character that is dropped where names of families are compared -/
def isDropped (c : Char) : Bool := c = ' ' || c = '_' || c = '-'

/-- The name of a family is compared character by character, too. -/
theorem toList_familyName {s : String} (h : ∀ c ∈ s.toList, isSimple c = true) :
    (Spelling.familyName s).toList = (s.toList.map small).filter fun c => !isDropped c := by
  rw [Spelling.familyName, String.toList_ofList, toList_lower h]
  rfl

/-! ## Letters of names -/

/-- a letter of the names that are compared: a small letter of ASCII, or the underscore -/
def isKey (c : Char) : Bool := (97 ≤ c.toNat && c.toNat ≤ 122) || c = '_'

theorem mapRuns_cases (runs : List (Nat × Nat × Nat × Int)) (c : Char) : mapRuns runs c = c ∨
    ∃ r ∈ runs, r.1 ≤ c.toNat ∧ c.toNat ≤ r.2.1 ∧ mapRuns runs c = Char.ofNat (c.toNat + r.2.2.2).toNat := by
  induction runs with
  | nil => exact .inl rfl
  | cons r runs ih =>
    obtain ⟨first, last, step, distance⟩ := r
    rw [mapRuns]
    split
    · next h => exact .inr ⟨_, List.mem_cons_self, h.1, h.2.1, rfl⟩
    · rcases ih with h | ⟨r, hr, hrun⟩
      · exact .inl h
      · exact .inr ⟨r, List.mem_cons_of_mem _ hr, hrun⟩

/-- a code point that is none gives the null character -/
theorem toNat_ofNat (n : Nat) : (Char.ofNat n).toNat = n ∨ (Char.ofNat n).toNat = 0 := by
  rw [Char.ofNat]
  by_cases h : n.isValidChar
  · rw [dif_pos h]
    exact .inl rfl
  · rw [dif_neg h]
    exact .inr rfl

/-- of all other characters, only the Kelvin sign is put into a letter of ASCII -/
theorem kelvin_of_small {c : Char} (hc : 128 ≤ c.toNat) (hpos : 0 < (small c).toNat) (hascii : (small c).toNat < 128) :
    c.toNat = 0x212A := by
  have hruns : ∀ r ∈ lowerRuns, r.2.1 < 128 ∨ 128 ≤ (r.1 : Int) + r.2.2.2 ∨ r.1 = 0x212A ∧ r.2.1 = 0x212A := by
    decide +kernel
  rw [← mapRuns_lowerRuns] at hpos hascii
  rcases mapRuns_cases lowerRuns c with hsame | ⟨r, hr, hfirst, hlast, himage⟩
  · rw [hsame] at hascii
    omega
  · rw [himage] at hpos hascii
    have himage := toNat_ofNat (c.toNat + r.2.2.2).toNat
    have hrun := hruns r hr
    omega

theorem lettered_of_small {c : Char} (h : isKey (small c) = true ∨ small c = ' ') :
    isNameChar c = true ∨ isBlank c = true := by
  have hsmall : 0 < (small c).toNat ∧ (small c).toNat < 128 := by
    rcases h with h | h
    · simp only [isKey, Bool.or_eq_true, Bool.and_eq_true, decide_eq_true_eq] at h
      rcases h with h | h
      · omega
      · rw [h]
        decide
    · rw [h]
      decide
  have hletters : isNameChar (Char.ofNat 0x212A) = true ∧
      ∀ n < 128, isKey (small (Char.ofNat n)) = true ∨ small (Char.ofNat n) = ' ' →
        isNameChar (Char.ofNat n) = true ∨ isBlank (Char.ofNat n) = true := by decide +kernel
  have hchar : Char.ofNat c.toNat = c := Char.ofNat_toNat c
  by_cases hc : c.toNat < 128
  · have := hletters.2 c.toNat hc
    rw [hchar] at this
    exact this h
  · rw [← hchar, kelvin_of_small (by omega) hsmall.1 hsmall.2]
    exact .inl hletters.1

theorem lettered_of_lowerFrom {cs : List Char} {before : List Char}
    (h : ∀ d ∈ lowerFrom before cs, isKey d = true ∨ d = ' ') : Lettered cs := by
  induction cs generalizing before with
  | nil => exact nofun
  | cons c cs ih =>
    rw [lowerFrom] at h
    intro d hd
    rcases List.mem_cons.1 hd with rfl | hd
    · by_cases hsigma : d = 'Σ'
      · exact .inl (by rw [hsigma]; decide)
      · by_cases hdotted : d = 'İ'
        · exact .inl (by rw [hdotted]; decide)
        · refine lettered_of_small (h _ (List.mem_append_left _ ?_))
          rw [if_neg hsigma, if_neg hdotted, mapRuns_lowerRuns]
          exact List.mem_singleton_self _
    · exact ih (fun d hd => h d (List.mem_append_right _ hd)) d hd

/-- what is compared as a letter of names is put into one, or into a space -/
theorem key_or_space_of_unitName {s : String} (h : ∀ c ∈ (Spelling.unitName s).toList, isKey c = true) :
    ∀ d ∈ lowerFrom [] (trim s.toList), isKey d = true ∨ d = ' ' := by
  rw [Spelling.unitName, String.toList_ofList, lower, String.toList_ofList, trimmed, String.toList_ofList] at h
  intro d hd
  have := h _ (List.mem_map_of_mem hd)
  split at this
  · next hspace => exact .inr hspace
  · exact .inl this

/-- A text that is compared as letters of names has only letters and blanks. -/
theorem lettered_of_unitName {s : String} (h : ∀ c ∈ (Spelling.unitName s).toList, isKey c = true) :
    Lettered s.toList :=
  lettered_of_trim (lettered_of_lowerFrom (key_or_space_of_unitName h))

/-- the two letters that are not mapped on their own are not put into letters of names -/
theorem isSimple_of_lowerFrom {cs before : List Char} (h : ∀ d ∈ lowerFrom before cs, isKey d = true ∨ d = ' ') :
    ∀ c ∈ cs, isSimple c = true := by
  induction cs generalizing before with
  | nil => exact nofun
  | cons c cs ih =>
    rw [lowerFrom] at h
    intro d hd
    rcases List.mem_cons.1 hd with rfl | hd
    · have himage := fun x hx => h x (List.mem_append_left _ hx)
      by_cases hsigma : d = 'Σ'
      · rw [if_pos hsigma] at himage
        split at himage
        · exact absurd (himage _ (List.mem_singleton_self _)) (by decide)
        · exact absurd (himage _ (List.mem_singleton_self _)) (by decide)
      · by_cases hdotted : d = 'İ'
        · rw [if_neg hsigma, if_pos hdotted] at himage
          exact absurd (himage _ (List.mem_cons_of_mem _ (List.mem_singleton_self _))) (by decide)
        · simp [isSimple, hsigma, hdotted]
    · exact ih (fun d hd => h d (List.mem_append_right _ hd)) d hd

theorem toList_unitName_of_keys {s : String} (hb : ∀ c ∈ s.toList, isBlank c = false)
    (h : ∀ c ∈ (Spelling.unitName s).toList, isKey c = true) :
    (Spelling.unitName s).toList = s.toList.map compared := by
  have hspaced := key_or_space_of_unitName h
  rw [trim_of_solid hb] at hspaced
  exact toList_unitName hb (isSimple_of_lowerFrom hspaced)

end UnitAlgebra.Text

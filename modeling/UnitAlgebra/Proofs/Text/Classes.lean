/-
How the character classes of unit expressions lie to one another: blanks, decimal digits, signs and the characters of
names have nothing in common, so the first character of a text decides how it is read.

Results:
- `exists_range_of_inRanges`: a number in ranges lies in one of them.
- `isBlank_disjoint`: a blank is neither a letter of a name nor a digit.
- `trim_trim`: trimming twice is trimming once.
-/
import Mathlib.Data.List.TakeWhile
import UnitAlgebra.Text.CharClass

namespace UnitAlgebra.Text

/-! ## Classes -/

/-- A number in ranges lies in one of them. -/
theorem exists_range_of_inRanges {ranges : List (Nat × Nat)} {n : Nat} (h : inRanges ranges n = true) :
    ∃ r ∈ ranges, r.1 ≤ n ∧ n ≤ r.2 := by
  induction ranges with
  | nil => simp [inRanges] at h
  | cons r rest ih =>
    obtain ⟨first, last⟩ := r
    simp only [inRanges] at h
    split at h
    · cases h
    · next hn =>
      rcases Bool.or_eq_true_iff.1 h with hl | hr
      · exact ⟨(first, last), List.mem_cons_self, by simp only; omega, by simpa using hl⟩
      · obtain ⟨r, hr, hb⟩ := ih hr
        exact ⟨r, List.mem_cons_of_mem _ hr, hb⟩

/-- the blanks stand in few and short ranges, so that each of their code points can be looked at -/
theorem blank_points : ∀ r ∈ blankRanges, ∀ k < r.2 + 1 - r.1,
    inRanges wordRanges (r.1 + k) = false ∧ digitAmong decimalZeros (r.1 + k) = none := by decide +kernel

/-- A blank is neither a letter of a name nor a digit. -/
theorem isBlank_disjoint {c : Char} (h : isBlank c = true) : isNameChar c = false ∧ isDecimal c = false := by
  obtain ⟨r, hr, h1, h2⟩ := exists_range_of_inRanges h
  obtain ⟨hw, hd⟩ := blank_points r hr (c.toNat - r.1) (by omega)
  rw [show r.1 + (c.toNat - r.1) = c.toNat by omega] at hw hd
  simp [isNameChar, isWord, isDecimal, digit?, hw, hd]

theorem isDecimal_of_isNameChar {c : Char} (h : isNameChar c = true) : isDecimal c = false := by
  simp only [isNameChar, Bool.and_eq_true, Bool.not_eq_true'] at h
  exact h.2

theorem isBlank_of_isNameChar {c : Char} (h : isNameChar c = true) : isBlank c = false := by
  cases hb : isBlank c with
  | false => rfl
  | true => exact absurd h (by simp [(isBlank_disjoint hb).1])

theorem isBlank_of_isDecimal {c : Char} (h : isDecimal c = true) : isBlank c = false := by
  cases hb : isBlank c with
  | false => rfl
  | true => exact absurd h (by simp [(isBlank_disjoint hb).2])

/-! ## Runs -/

/-- a list does not begin with a character of the class -/
def StopsAt (p : Char → Bool) (cs : List Char) : Prop := ∀ c ∈ cs.head?, p c = false

theorem stopsAt_nil (p : Char → Bool) : StopsAt p [] := by simp [StopsAt]

theorem stopsAt_cons {p : Char → Bool} {c : Char} {cs : List Char} : StopsAt p (c :: cs) ↔ p c = false := by
  simp [StopsAt]

theorem stopsAt_dropWhile (p : Char → Bool) (cs : List Char) : StopsAt p (cs.dropWhile p) := by
  intro c hc
  have := List.head?_dropWhile_not p cs
  rw [Option.mem_def.1 hc] at this
  simpa using this

theorem takeWhile_run {p : Char → Bool} {run cs : List Char} (h : ∀ c ∈ run, p c = true) (hs : StopsAt p cs) :
    (run ++ cs).takeWhile p = run := by
  rw [List.takeWhile_append_of_pos h]
  cases cs with
  | nil => simp
  | cons c cs => simp [stopsAt_cons.1 hs]

theorem dropWhile_run {p : Char → Bool} {run cs : List Char} (h : ∀ c ∈ run, p c = true) (hs : StopsAt p cs) :
    (run ++ cs).dropWhile p = cs := by
  rw [List.dropWhile_append_of_pos h]
  cases cs with
  | nil => simp
  | cons c cs => simp [stopsAt_cons.1 hs]

/-- a run ends where its class does, so it is told from what follows -/
theorem run_injective {p : Char → Bool} {run run' cs cs' : List Char} (h : ∀ c ∈ run, p c = true)
    (h' : ∀ c ∈ run', p c = true) (hs : StopsAt p cs) (hs' : StopsAt p cs') (heq : run ++ cs = run' ++ cs') :
    run = run' ∧ cs = cs' := by
  obtain rfl : run = run' := by rw [← takeWhile_run h hs, heq, takeWhile_run h' hs']
  exact ⟨rfl, List.append_cancel_left heq⟩

/-! ## Trimming -/

theorem trim_of_head_of_last {cs : List Char} (hh : StopsAt isBlank cs) (hl : StopsAt isBlank cs.reverse) :
    trim cs = cs := by
  have drop : ∀ {ds : List Char}, StopsAt isBlank ds → ds.dropWhile isBlank = ds := fun {ds} h =>
    dropWhile_run (show ∀ c ∈ [], isBlank c = true by simp) h
  rw [trim, drop hh, drop hl, List.reverse_reverse]

theorem exists_trim (cs : List Char) :
    ∃ front back, cs = front ++ trim cs ++ back ∧ (∀ c ∈ front, isBlank c = true) ∧ ∀ c ∈ back, isBlank c = true := by
  refine ⟨cs.takeWhile isBlank, ((cs.dropWhile isBlank).reverse.takeWhile isBlank).reverse, ?_, ?_, ?_⟩
  · have hb : (cs.dropWhile isBlank).reverse.takeWhile isBlank ++ (cs.dropWhile isBlank).reverse.dropWhile isBlank =
        (cs.dropWhile isBlank).reverse := List.takeWhile_append_dropWhile
    have hd : trim cs ++ ((cs.dropWhile isBlank).reverse.takeWhile isBlank).reverse = cs.dropWhile isBlank := by
      rw [trim, ← List.reverse_append, hb, List.reverse_reverse]
    rw [List.append_assoc, hd, List.takeWhile_append_dropWhile]
  · intro c hc
    exact List.mem_takeWhile_imp hc
  · intro c hc
    exact List.mem_takeWhile_imp (List.mem_reverse.1 hc)

theorem isInfix_trim (cs : List Char) : trim cs <:+: cs := by
  obtain ⟨front, back, h, _, _⟩ := exists_trim cs
  exact ⟨front, back, h.symm⟩

theorem trim_append_blank {cs back : List Char} (h : ∀ c ∈ back, isBlank c = true) : trim (cs ++ back) = trim cs := by
  have hback : back.dropWhile isBlank = [] := List.dropWhile_eq_nil_iff.2 h
  rw [trim, trim, List.dropWhile_append, hback]
  split
  · next hempty =>
    rw [List.isEmpty_iff.1 hempty]
  · rw [List.reverse_append, List.dropWhile_append_of_pos fun c hc => h c (List.mem_reverse.1 hc)]

theorem stopsAt_reverse_trim (cs : List Char) : StopsAt isBlank (trim cs).reverse := by
  rw [trim, List.reverse_reverse]
  exact stopsAt_dropWhile _ _

/-- Trimming twice is trimming once. -/
theorem trim_trim (cs : List Char) : trim (trim cs) = trim cs := by
  apply trim_of_head_of_last
  · unfold trim
    have hds : StopsAt isBlank (cs.dropWhile isBlank) := stopsAt_dropWhile _ _
    revert hds
    generalize cs.dropWhile isBlank = ds
    intro hds
    cases hc : (ds.reverse.dropWhile isBlank).reverse with
    | nil => exact stopsAt_nil _
    | cons c rest =>
      have hp : (ds.reverse.dropWhile isBlank).reverse <+: ds := by
        rw [← List.reverse_suffix, List.reverse_reverse]
        exact List.dropWhile_suffix _
      obtain ⟨back, hback⟩ := hp
      rw [hc] at hback
      rw [← hback] at hds
      exact stopsAt_cons.2 (stopsAt_cons.1 hds)
  · exact stopsAt_reverse_trim cs

/-! ## Letters and blanks -/

/-- a text of letters and blanks -/
def Lettered (cs : List Char) : Prop := ∀ c ∈ cs, isNameChar c = true ∨ isBlank c = true

theorem lettered_of_all {cs : List Char} (h : cs.all isNameChar = true) : Lettered cs := fun c hc =>
  .inl (List.all_eq_true.1 h c hc)

theorem lettered_of_blank {cs : List Char} (h : ∀ c ∈ cs, isBlank c = true) : Lettered cs := fun c hc => .inr (h c hc)

theorem Lettered.append {cs ds : List Char} (hc : Lettered cs) (hd : Lettered ds) : Lettered (cs ++ ds) := by
  intro c h
  rcases List.mem_append.1 h with h | h
  · exact hc c h
  · exact hd c h

theorem lettered_of_trim {cs : List Char} (h : Lettered (trim cs)) : Lettered cs := by
  obtain ⟨front, back, hsplit, hfront, hback⟩ := exists_trim cs
  rw [hsplit]
  exact ((lettered_of_blank hfront).append h).append (lettered_of_blank hback)

end UnitAlgebra.Text

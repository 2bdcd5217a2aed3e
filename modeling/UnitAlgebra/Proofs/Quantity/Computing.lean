/-
Elementwise functions on bare operands. Operands of numbers are read as the tensors that they show, a wide whole number
beside numbers as the number that it is; the function is computed on the tensors, and its results get operands of their
own. Of a wide whole number alone, a function is computed exactly or not at all.

Results:
- `tensorsFor_reads`: what operands are read as.
- `computePlainly_spec`, `computeCrossed_spec`: what is computed, plainly and as an outer table.
-/
import UnitAlgebra.Proofs.Quantity.Prepared

namespace UnitAlgebra

variable {κ : Type} [Numeric κ]

/-! ## Manners -/

/-- operands side by side, or set up so that every cell of the first meets every cell of the second -/
def Manner.arranged (manner : Manner) (ts : List (Tensor κ)) : List (Tensor κ) :=
  match manner, ts with
  | .outer, [a, b] => Tensor.crossed a b
  | _, ts => ts

/-- a function on tensors, place by place or as an outer table -/
def Tensor.inManner (manner : Manner) (f : Elementwise) (ts : List (Tensor κ)) : Outcome (List (Tensor κ)) :=
  elementwise f (manner.arranged ts)

/-! ## Reading operands -/

/-- one of so many operands of numbers is read as the tensor that it shows, unless it is a whole number that no cell can
hold -/
def Reads (f : Elementwise) (count : Nat) (m : Store κ) (v : Operand κ) (t : Tensor κ) : Prop :=
  t = v.tensor m ∧ (v.isWide = true → f.isComparison = true ∨ count = 1 ∧ v.isUnsigned = true) ∨
    v.isWide = true ∧ t = .ofNumbers (v.tensor m).numbers

/-- what an operand is read as has its numbers, and is full and of one kind -/
theorem Reads.numbers {f : Elementwise} {count : Nat} {m : Store κ} {v : Operand κ} {t : Tensor κ}
    (h : Reads f count m v t) :
    t.numbers = (v.tensor m).numbers := by
  rcases h with ⟨rfl, -⟩ | ⟨-, rfl⟩
  · rfl
  · exact Tensor.numbers_ofNumbers _

theorem Reads.filled {f : Elementwise} {count : Nat} {m : Store κ} {v : Operand κ} {t : Tensor κ} (hv : v.IsNumeric m)
    (h : Reads f count m v t) : t.grid.Filled ∧ t.IsUniform := by
  rcases h with ⟨rfl, -⟩ | ⟨-, rfl⟩
  · exact ⟨hv.filled, hv.uniform⟩
  · exact ⟨(hv.filled.map _).map _, Tensor.isUniform_ofNumbers _⟩

/-- a function of one whole number that no cell can hold, not even as an unsigned one -/
def Widely (f : Elementwise) (vs zs : List (Operand κ)) : Prop :=
  ∃ n k, vs = [.integer n] ∧ wrapped n ≠ n ∧ isUnsigned n = false ∧ f.onWide n = .ok k ∧ zs = [.integer k]

namespace Session

variable {c : Context κ} {m m' : Store κ} {f : Elementwise} {count : Nat}

omit [Numeric κ] in
theorem mapM_keeps {α β : Type} {g : α → Session κ β} {R : α → β → Prop} {l : List α}
    (hstep : ∀ a ∈ l, ∀ {b m'}, g a c m = .ok (b, m') → m = m' ∧ R a b) {bs : List β}
    (h : l.mapM g c m = .ok (bs, m')) : m = m' ∧ List.Forall₂ R l bs := by
  induction l generalizing m' bs with
  | nil =>
    obtain ⟨rfl, rfl⟩ := pure_eq_ok_iff.1 h
    exact ⟨rfl, .nil⟩
  | cons a l ih =>
    rw [List.mapM_cons] at h
    obtain ⟨b, _, hb, h⟩ := bind_eq_ok_iff.1 h
    obtain ⟨rfl, hab⟩ := hstep a List.mem_cons_self hb
    obtain ⟨rest, _, hrest, h⟩ := bind_eq_ok_iff.1 h
    obtain ⟨rfl, hall⟩ := ih (fun x hx => hstep x (List.mem_cons_of_mem a hx)) hrest
    obtain ⟨rfl, rfl⟩ := pure_eq_ok_iff.1 h
    exact ⟨rfl, .cons hab hall⟩

theorem tensorOf_reads {v : Operand κ} {t : Tensor κ} (hv : v.IsNumeric m) (h : tensorOf v c m = .ok (t, m')) :
    m = m' ∧ Reads f count m v t := by
  obtain ⟨hread, rfl⟩ := tensorOf_eq_ok_iff.1 h
  refine ⟨rfl, Or.inl ?_⟩
  cases hw : v.isWide with
  | false =>
    rw [Operand.toTensor_eq hv hw] at hread
    cases hread
    exact ⟨rfl, nofun⟩
  | true =>
    rw [Operand.toTensor_of_wide hw] at hread
    cases hread

theorem reads_of_wideTensor {n : Int} {k : Option Kind} {t : Tensor κ} (hw : (Operand.integer n : Operand κ).isWide = true)
    (h : wideTensor f k n = .ok t) : Reads f count m (.integer n) t := by
  unfold wideTensor at h
  split at h
  · cases hn : (Numeric.ofInt? n : Option κ) with
    | none =>
      rw [Numeric.ofInt, hn] at h
      cases h
    | some x =>
      rw [Numeric.ofInt, hn] at h
      cases h
      refine Or.inr ⟨hw, ?_⟩
      change _ = Tensor.ofNumbers ⟨[], [(Numeric.ofInt? n).getD Numeric.nan]⟩
      rw [hn]
      rfl
  · split at h
    · next hf =>
      cases h
      exact Or.inl ⟨rfl, fun _ => .inl hf⟩
    · cases h

/-- What operands are read as. -/
theorem tensorsFor_reads {vs : List (Operand κ)} {ts : List (Tensor κ)} (hvs : ∀ v ∈ vs, v.IsNumeric m)
    (h : tensorsFor f vs c m = .ok (ts, m')) : m = m' ∧ List.Forall₂ (Reads f count m) vs ts := by
  unfold tensorsFor at h
  split at h
  · obtain ⟨others, _, hothers, h⟩ := bind_eq_ok_iff.1 h
    obtain ⟨rfl, -⟩ := mapM_keeps (R := fun _ _ => True) (fun v hv t m' ht =>
      ⟨(tensorOf_eq_ok_iff.1 ht).2, trivial⟩) hothers
    refine mapM_keeps (fun v hv t m' ht => ?_) h
    have hnumeric := hvs v hv
    cases v with
    | integer n =>
      simp only at ht
      split at ht
      · next hw =>
        obtain ⟨hwide, rfl⟩ := lift_eq_ok_iff.1 ht
        exact ⟨rfl, reads_of_wideTensor hw hwide⟩
      · exact tensorOf_reads hnumeric ht
    | _ => exact tensorOf_reads hnumeric ht
  · exact mapM_keeps (fun v hv t m' ht => tensorOf_reads (hvs v hv) ht) h

/-- **What is computed plainly.** -/
theorem computePlainly_spec {vs zs : List (Operand κ)} (hvs : ∀ v ∈ vs, v.IsNumeric m)
    (h : computeBare (.each f) .plainly [] vs c m = .ok (zs, m')) : Widely f vs zs ∨
      ∃ ts rs, (∀ v, vs = [v] → ts = [v.tensor m]) ∧ List.Forall₂ (Reads f vs.length m) vs ts ∧
        Tensor.elementwise f ts = .ok rs ∧ rs.mapM computed c m = .ok (zs, m') := by
  have hcomputed : ∀ {ts : List (Tensor κ)} {r : Results κ} {m₁ : Store κ},
      (do return Results.tensors .broadcast (← Tensor.elementwise f ts) : Session κ (Results κ)) c m = .ok (r, m₁) →
      delivered r c m₁ = .ok (zs, m') → ∃ rs, Tensor.elementwise f ts = .ok rs ∧
        rs.mapM computed c m = .ok (zs, m') := by
    intro ts r m₁ h hdelivered
    obtain ⟨rs, _, hrs, h⟩ := bind_eq_ok_iff.1 h
    obtain ⟨helementwise, rfl⟩ := lift_eq_ok_iff.1 hrs
    obtain ⟨rfl, rfl⟩ := pure_eq_ok_iff.1 h
    exact ⟨rs, helementwise, hdelivered⟩
  rw [computeBare_nil .plainly (by simp), bind_eq_ok_iff] at h
  obtain ⟨r, m₁, h, hdelivered⟩ := h
  change plainResults f vs c m = .ok (r, m₁) at h
  unfold plainResults at h
  split at h
  · next n =>
    split at h
    · next hn =>
      obtain ⟨rs, hrs, hzs⟩ := hcomputed h hdelivered
      refine Or.inr ⟨_, rs, fun v hv => ?_, .cons (Or.inl ⟨rfl, fun hw => Or.inr ⟨rfl, ?_⟩⟩) .nil, hrs, hzs⟩
      · cases hv
        rfl
      · exact hn.resolve_left (of_decide_eq_true hw)
    · next hw =>
      obtain ⟨k, _, hk, h⟩ := bind_eq_ok_iff.1 h
      obtain ⟨hwide, rfl⟩ := lift_eq_ok_iff.1 hk
      obtain ⟨rfl, rfl⟩ := pure_eq_ok_iff.1 h
      obtain ⟨rfl, rfl⟩ := pure_eq_ok_iff.1 hdelivered
      exact Or.inl ⟨n, k, rfl, (not_or.1 hw).1, Bool.eq_false_iff.2 (not_or.1 hw).2, hwide, rfl⟩
  · next hmany =>
    have hnumbers : vs.any Operand.isOpaque = false := by
      rw [List.any_eq_false]
      intro v hv
      have hnumeric := hvs v hv
      cases v <;> first | exact Bool.false_ne_true | exact hnumeric.elim
    rw [hnumbers, if_neg Bool.false_ne_true] at h
    obtain ⟨ts, _, hts, h⟩ := bind_eq_ok_iff.1 h
    obtain ⟨rfl, hall⟩ := tensorsFor_reads hvs hts
    obtain ⟨rs, hrs, hzs⟩ := hcomputed h hdelivered
    refine Or.inr ⟨ts, rs, ?_, hall, hrs, hzs⟩
    rintro v rfl
    obtain ⟨t, _, hread, hnil, rfl⟩ := List.forall₂_cons_left_iff.1 hall
    cases hnil
    rcases hread with ⟨rfl, -⟩ | ⟨hw, -⟩
    · rfl
    · cases v <;> first | cases hw | exact absurd rfl (hmany _)

/-- What is computed as an outer table. -/
theorem computeCrossed_spec {vs zs : List (Operand κ)} (hvs : ∀ v ∈ vs, v.IsNumeric m)
    (h : computeBare (.each f) .crossed [] vs c m = .ok (zs, m')) : ∃ ts rs, List.Forall₂ (Reads f vs.length m) vs ts ∧
      Tensor.elementwise f (Manner.outer.arranged ts) = .ok rs ∧ rs.mapM computed c m = .ok (zs, m') := by
  rw [computeBare_nil .crossed (by simp), bind_eq_ok_iff] at h
  obtain ⟨r, m₁, h, hdelivered⟩ := h
  have htwo : ∃ x y, vs = [x, y] := by
    rcases vs with _ | ⟨x, _ | ⟨y, _ | ⟨z, vs⟩⟩⟩
    · cases h
    · cases h
    · exact ⟨x, y, rfl⟩
    · cases h
  obtain ⟨x, y, rfl⟩ := htwo
  simp only [resultsOf] at h
  split at h
  · obtain ⟨t, _, ht, h⟩ := bind_eq_ok_iff.1 h
    obtain ⟨rfl, hx⟩ := tensorOf_reads (hvs x (by simp)) ht
    obtain ⟨u, _, hu, h⟩ := bind_eq_ok_iff.1 h
    obtain ⟨rfl, hy⟩ := tensorOf_reads (hvs y (by simp)) hu
    obtain ⟨rs, _, hrs, h⟩ := bind_eq_ok_iff.1 h
    obtain ⟨houter, rfl⟩ := lift_eq_ok_iff.1 hrs
    obtain ⟨rfl, rfl⟩ := pure_eq_ok_iff.1 h
    exact ⟨[t, u], rs, .cons hx (.cons hy .nil), houter, hdelivered⟩
  · cases h

theorem mapM_computed_spec {rs : List (Tensor κ)} {zs : List (Operand κ)} (h : rs.mapM computed c m = .ok (zs, m')) :
    List.Forall₂ (fun r z => Computed r z m') rs zs :=
  (mapM_grows (R := Computed) (fun hR hm => hR.grows hm) (fun _ _ _ _ _ _ hz => computed_spec hz) (.refl m) h).2

end Session

end UnitAlgebra

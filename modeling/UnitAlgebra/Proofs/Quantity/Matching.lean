/-
The common unit of many operands. Operands are met one after the other with the unit that those before them have come
to; bare zeros have no say, unless there is nothing else. What comes of it can be told without any order: one dimension
for all that have a say, and in every base the smallest or the largest exponent among their scales, or the scale of the
first, or, under the strict policy, the one scale that all of them have.

Results:
- `ScalePolicy.chooses_of_resolve?`: the scale chosen for many is chosen two by two.
- `matching_eq_ok_iff`: what units come to when they are met one after the other.
- `matching_eq_error_iff`: which unit is refused, and for what.
- `commonUnit_spec`: the common unit of operands, and that its order does not matter.
-/
import Mathlib.Data.List.Perm.Basic
import Mathlib.Order.Bounds.Basic
import UnitAlgebra.Proofs.Quantity.Physical
import UnitAlgebra.Proofs.Scale.Divisibility

namespace UnitAlgebra

/-! ## Scales -/

namespace Scale

/-- the exponents that scales have at a base -/
def exponentsOf (b : Base) (scales : List Scale) : Set Int := {e | ∃ s ∈ scales, (s.get b).val = e}

theorem exponentsOf_cons (b : Base) (s : Scale) (scales : List Scale) :
    exponentsOf b (s :: scales) = insert (s.get b).val (exponentsOf b scales) := by
  ext e
  simp [exponentsOf, eq_comm]

theorem exponentsOf_perm {scales scales' : List Scale} (h : scales.Perm scales') (b : Base) :
    exponentsOf b scales = exponentsOf b scales' := by
  ext e
  simp only [exponentsOf, h.mem_iff]

end Scale

/-- the least of two and others is the least of the lesser of the two and the others -/
theorem isLeast_insert_min {α : Type} [LinearOrder α] {a b e : α} {s : Set α} :
    IsLeast (insert a (insert b s)) e ↔ IsLeast (insert (min a b) s) e := by
  simp only [IsLeast, lowerBounds_insert, Set.mem_inter_iff, Set.mem_Iic, Set.mem_insert_iff, le_min_iff]
  rcases le_total a b with h | h
  · rw [min_eq_left h]
    grind
  · rw [min_eq_right h]
    grind

theorem isGreatest_insert_max {α : Type} [LinearOrder α] {a b e : α} {s : Set α} :
    IsGreatest (insert a (insert b s)) e ↔ IsGreatest (insert (max a b) s) e := by
  simp only [IsGreatest, upperBounds_insert, Set.mem_inter_iff, Set.mem_Ici, Set.mem_insert_iff, max_le_iff]
  rcases le_total a b with h | h
  · rw [max_eq_right h]
    grind
  · rw [max_eq_left h]
    grind

/-! ## Policies -/

namespace ScalePolicy

variable {p : ScalePolicy} {s t u v : Scale} {scales : List Scale}

/-- all policies but the strict one choose a scale -/
theorem exists_resolve? (hp : p ≠ strict) (s t : Scale) : ∃ u, p.resolve? s t = some u := by
  unfold resolve?
  by_cases h : s = t
  · exact ⟨s, if_pos h⟩
  · rw [if_neg h]
    cases p with
    | strict => exact absurd rfl hp
    | _ => exact ⟨_, rfl⟩

theorem resolve?_comm (h : p = leftHandWins → s = t) : p.resolve? s t = p.resolve? t s := by
  by_cases hs : s = t
  · rw [hs]
  · unfold resolve?
    rw [if_neg hs, if_neg (Ne.symm hs)]
    cases p with
    | strict => rfl
    | leftHandWins => exact absurd (h rfl) hs
    | smallerWins => exact congrArg some (inf_comm s t)
    | largerWins => exact congrArg some (sup_comm s t)

/-- the scale of a sum of values in many scales -/
def Chooses (p : ScalePolicy) (scales : List Scale) (u : Scale) : Prop :=
  match p with
  | strict => ∀ s ∈ scales, s = u
  | leftHandWins => scales.head? = some u
  | smallerWins => ∀ b, IsLeast (Scale.exponentsOf b scales) (u.get b).val
  | largerWins => ∀ b, IsGreatest (Scale.exponentsOf b scales) (u.get b).val

theorem chooses_single : p.Chooses [s] u ↔ s = u := by
  have hall : (∀ b, (u.get b).val = (s.get b).val) ↔ s = u := by
    constructor
    · exact fun h => Scale.ext_get fun b => Exponent.ext (h b).symm
    · rintro rfl b
      rfl
  have hset (b : Base) : Scale.exponentsOf b [s] = {(s.get b).val} := by
    ext e
    simp [Scale.exponentsOf, eq_comm]
  cases p with
  | strict => simp [Chooses]
  | leftHandWins => simp [Chooses]
  | smallerWins =>
    simp only [Chooses, hset]
    refine Iff.trans (forall_congr' fun b => ?_) hall
    exact ⟨fun h => h.1, fun h => h ▸ isLeast_singleton⟩
  | largerWins =>
    simp only [Chooses, hset]
    refine Iff.trans (forall_congr' fun b => ?_) hall
    exact ⟨fun h => h.1, fun h => h ▸ isGreatest_singleton⟩

/-- The scale chosen for many is chosen two by two. -/
theorem chooses_of_resolve? (h : p.resolve? s t = some v) :
    p.Chooses (s :: t :: scales) u ↔ p.Chooses (v :: scales) u := by
  cases p with
  | strict =>
    unfold resolve? at h
    split at h
    · next hst =>
      obtain rfl := Option.some.inj h
      simp [Chooses, hst]
    · cases h
  | leftHandWins =>
    have hv : s = v := by
      unfold resolve? at h
      split at h <;> exact Option.some.inj h
    simp [Chooses, hv]
  | smallerWins =>
    rw [resolve?_smallerWins] at h
    obtain rfl := Option.some.inj h
    refine forall_congr' fun b => ?_
    rw [Scale.exponentsOf_cons, Scale.exponentsOf_cons, Scale.exponentsOf_cons, isLeast_insert_min]
    exact iff_of_eq (congrArg (fun e => IsLeast (insert e _) _) (congrFun (Scale.exponents_least s t) b).symm)
  | largerWins =>
    rw [resolve?_largerWins] at h
    obtain rfl := Option.some.inj h
    refine forall_congr' fun b => ?_
    rw [Scale.exponentsOf_cons, Scale.exponentsOf_cons, Scale.exponentsOf_cons, isGreatest_insert_max]
    exact iff_of_eq (congrArg (fun e => IsGreatest (insert e _) _) (congrFun (Scale.exponents_greatest s t) b).symm)

/-- two scales that are refused are chosen from by no scale -/
theorem not_chooses_of_resolve? (h : p.resolve? s t = none) : ¬ p.Chooses (s :: t :: scales) u := by
  by_cases hp : p = strict
  · subst hp
    have hst : s ≠ t := fun hst => by
      rw [hst, resolve_same] at h
      cases h
    intro hall
    exact hst ((hall s (by simp)).trans (hall t (by simp)).symm)
  · obtain ⟨v, hv⟩ := exists_resolve? hp s t
    rw [hv] at h
    cases h

/-- the smallest and the largest exponents do not depend on the order -/
theorem chooses_perm {scales' : List Scale} (hp : p = smallerWins ∨ p = largerWins) (h : scales.Perm scales') :
    p.Chooses scales u ↔ p.Chooses scales' u := by
  rcases hp with rfl | rfl <;> exact forall_congr' fun b => by rw [Scale.exponentsOf_perm h b]

/-- the scale of the first, if it is the one chosen, is chosen also from fewer -/
theorem Chooses.of_subset {scales' : List Scale} (h : p.Chooses (s :: scales) s) (hsub : scales' ⊆ scales) :
    p.Chooses (s :: scales') s := by
  have hexponents (b : Base) : Scale.exponentsOf b (s :: scales') ⊆ Scale.exponentsOf b (s :: scales) :=
    fun _ ⟨t, ht, he⟩ => ⟨t, List.cons_subset_cons s hsub ht, he⟩
  have hown (b : Base) : (s.get b).val ∈ Scale.exponentsOf b (s :: scales') := ⟨s, List.mem_cons_self, rfl⟩
  cases p with
  | strict => exact fun t ht => h t (List.cons_subset_cons s hsub ht)
  | leftHandWins => exact h
  | smallerWins => exact fun b => ⟨hown b, fun e he => (h b).2 (hexponents b he)⟩
  | largerWins => exact fun b => ⟨hown b, fun e he => (h b).2 (hexponents b he)⟩

end ScalePolicy

/-! ## Units met one after the other -/

section Matching

variable {p : ScalePolicy} {w : Wording} {r u : StorageUnit} {us : List (StorageUnit × Nat)}

theorem matching_append (u : StorageUnit) (us vs : List (StorageUnit × Nat)) :
    matching p w u (us ++ vs) = matching p w u us >>= fun v => matching p w v vs := by
  induction us generalizing u with
  | nil => rfl
  | cons first us ih =>
    obtain ⟨v, i⟩ := first
    rw [List.cons_append, matching, matching]
    split
    · rw [bind_assoc]
      exact bind_congr fun s => ih ⟨u.dimension, s⟩
    · rfl

theorem matching_of_some {v : StorageUnit} {s : Scale} {i : Nat} (hd : v.dimension = r.dimension)
    (hs : p.resolve? r.scale v.scale = some s) : matching p w r ((v, i) :: us) = matching p w ⟨r.dimension, s⟩ us := by
  rw [matching, if_pos hd, ScalePolicy.resolve, hs]
  rfl

theorem matching_of_none {v : StorageUnit} {i : Nat} (hd : v.dimension = r.dimension)
    (hs : p.resolve? r.scale v.scale = none) :
    matching p w r ((v, i) :: us) = .error (.unit (.scaleMismatch r.scale v.scale (some (w.refusal i)))) := by
  rw [matching, if_pos hd, ScalePolicy.resolve, hs]
  rfl

theorem matching_of_ne {v : StorageUnit} {i : Nat} (hd : v.dimension ≠ r.dimension) :
    matching p w r ((v, i) :: us) = .error (.mismatch r.dimension v.dimension (w.refusal i)) := by
  rw [matching, if_neg hd]

/-- What units come to: they have one dimension, and a scale can be chosen from theirs. -/
theorem matching_eq_ok_iff : matching p w r us = .ok u ↔ u.dimension = r.dimension ∧
    (∀ v ∈ us, v.1.dimension = r.dimension) ∧ p.Chooses (r.scale :: us.map (·.1.scale)) u.scale := by
  induction us generalizing r with
  | nil =>
    rw [matching, List.map_nil, ScalePolicy.chooses_single]
    constructor
    · intro h
      cases h
      exact ⟨rfl, by simp, rfl⟩
    · rintro ⟨hd, -, hs⟩
      cases r
      cases u
      cases hd
      cases hs
      rfl
  | cons first us ih =>
    obtain ⟨v, i⟩ := first
    by_cases hd : v.dimension = r.dimension
    · cases hs : p.resolve? r.scale v.scale with
      | none =>
        rw [matching_of_none hd hs]
        refine iff_of_false (fun h => ?_) fun h => ScalePolicy.not_chooses_of_resolve? hs h.2.2
        cases h
      | some s =>
        rw [matching_of_some hd hs, ih, List.map_cons, ScalePolicy.chooses_of_resolve? hs, List.forall_mem_cons]
        simp only [hd, true_and]
    · rw [matching_of_ne hd]
      refine iff_of_false (fun h => ?_) fun h => hd (h.2.1 (v, i) List.mem_cons_self)
      cases h

/-- Which unit is refused: the first one that does not fit what those before it have come to, in its dimension or, under
the strict policy, in its scale. -/
theorem matching_eq_error_iff {fault : Fault} : matching p w r us = .error fault ↔
    ∃ before v i after u, us = before ++ (v, i) :: after ∧ matching p w r before = .ok u ∧
      (v.dimension ≠ r.dimension ∧ fault = .mismatch r.dimension v.dimension (w.refusal i) ∨
        v.dimension = r.dimension ∧ p.resolve? u.scale v.scale = none ∧
          fault = .unit (.scaleMismatch u.scale v.scale (some (w.refusal i)))) := by
  constructor
  · intro h
    induction us generalizing r with
    | nil => cases h
    | cons first us ih =>
      obtain ⟨v, i⟩ := first
      by_cases hd : v.dimension = r.dimension
      · cases hs : p.resolve? r.scale v.scale with
        | none =>
          rw [matching_of_none hd hs] at h
          exact ⟨[], v, i, us, r, rfl, rfl, Or.inr ⟨hd, hs, (Except.error.inj h).symm⟩⟩
        | some s =>
          rw [matching_of_some hd hs] at h
          obtain ⟨before, v', i', after, u, rfl, hu, hfault⟩ := ih h
          exact ⟨(v, i) :: before, v', i', after, u, rfl, (matching_of_some hd hs).trans hu, hfault⟩
      · rw [matching_of_ne hd] at h
        exact ⟨[], v, i, us, r, rfl, rfl, Or.inl ⟨hd, (Except.error.inj h).symm⟩⟩
  · rintro ⟨before, v, i, after, u, rfl, hu, hfault⟩
    have hdimension := (matching_eq_ok_iff.1 hu).1
    rw [matching_append, hu]
    change matching p w u ((v, i) :: after) = _
    rcases hfault with ⟨hd, rfl⟩ | ⟨hd, hs, rfl⟩
    · rw [matching_of_ne (hdimension ▸ hd), hdimension]
    · exact matching_of_none (hd.trans hdimension.symm) hs

end Matching

/-! ## Common units -/

section Common

variable {κ : Type} {p : ScalePolicy} {w : Wording} {ps : List (Participant κ)} {u : StorageUnit}

/-- the participants that have a say, without their positions -/
def decisive (ps : List (Participant κ)) : List (Participant κ) :=
  match ps.filter fun q => !q.isBareZero with
  | [] => ps.take 1
  | others => others

theorem map_fst_deciding (ps : List (Participant κ)) : (deciding ps).map Prod.fst = decisive ps := by
  have hfilter : (ps.zipIdx.filter fun q => !q.1.isBareZero).map Prod.fst = ps.filter fun q => !q.isBareZero := by
    have h := List.filter_map (f := Prod.fst) (p := fun q : Participant κ => !q.isBareZero) (l := ps.zipIdx)
    rw [List.zipIdx_map_fst] at h
    exact h.symm
  unfold deciding decisive
  cases hall : ps.zipIdx.filter fun q => !q.1.isBareZero with
  | nil =>
    rw [← hfilter, hall, List.map_nil, List.map_take, List.zipIdx_map_fst]
  | cons first rest =>
    rw [← hfilter, hall]
    rfl

/-- the first that has a say is met with those after it; that it is met with itself before changes nothing -/
theorem exists_matching (h : ps ≠ []) : ∃ q rest us, decisive ps = q :: rest ∧
    us.map Prod.fst = rest.map Participant.unit ∧ commonUnit p w ps = matching p w q.unit us := by
  cases hall : deciding ps with
  | nil =>
    have hnone := map_fst_deciding ps
    rw [hall] at hnone
    unfold decisive at hnone
    split at hnone
    · cases ps with
      | nil => exact absurd rfl h
      | cons q rest => cases hnone
    · next hothers => exact absurd hnone.symm hothers
  | cons first after =>
    have hfirst := map_fst_deciding ps
    rw [hall] at hfirst
    refine ⟨first.1, after.map Prod.fst, after.map fun q => (q.1.unit, q.2), hfirst.symm, ?_, ?_⟩
    · simp
    · unfold commonUnit
      rw [hall]
      change matching p w first.1.unit ((first.1.unit, first.2) :: _) = _
      rw [matching, if_pos rfl, ScalePolicy.resolve, ScalePolicy.resolve_same]
      rfl

/-- **The common unit.** It has the dimension of all that have a say, and a scale that is chosen from theirs. -/
theorem commonUnit_eq_ok_iff (h : ps ≠ []) : commonUnit p w ps = .ok u ↔
    (∀ q ∈ decisive ps, q.dimension = u.dimension) ∧ p.Chooses ((decisive ps).map Participant.scale) u.scale := by
  obtain ⟨q, rest, us, hdecisive, hunits, hcommon⟩ := exists_matching (p := p) (w := w) h
  have hscales : us.map (·.1.scale) = rest.map Participant.scale := by
    have h := congrArg (List.map StorageUnit.scale) hunits
    rwa [List.map_map, List.map_map] at h
  have hdimensions (d : Dimension) : (∀ v ∈ us, v.1.dimension = d) ↔ ∀ r ∈ rest, r.dimension = d := by
    have h : (∀ v ∈ us.map Prod.fst, v.dimension = d) ↔ ∀ v ∈ rest.map Participant.unit, v.dimension = d := by
      rw [hunits]
    rwa [List.forall_mem_map, List.forall_mem_map] at h
  rw [hcommon, matching_eq_ok_iff, hdecisive, List.forall_mem_cons, List.map_cons, hscales]
  change u.dimension = q.dimension ∧ (∀ v ∈ us, v.1.dimension = q.dimension) ∧ _ ↔ _
  rw [hdimensions]
  constructor
  · rintro ⟨hu, hrest, hs⟩
    exact ⟨⟨hu.symm, fun r hr => (hrest r hr).trans hu.symm⟩, hs⟩
  · rintro ⟨⟨hu, hrest⟩, hs⟩
    exact ⟨hu.symm, fun r hr => (hrest r hr).trans hu.symm, hs⟩

theorem commonUnit_of_subset {q q' : Participant κ} {ps' : List (Participant κ)} (hq : q.isBareZero = false)
    (hq' : q'.isBareZero = false) (hunit : q'.unit = q.unit) (hsub : ps' ⊆ ps)
    (h : commonUnit p w (q :: ps) = .ok q.unit) : commonUnit p w (q' :: ps') = .ok q.unit := by
  have hdecisive {r : Participant κ} (hr : r.isBareZero = false) (rs : List (Participant κ)) :
      decisive (r :: rs) = r :: rs.filter fun r => !r.isBareZero := by
    rw [decisive, List.filter_cons, hr]
    rfl
  have hfilter : (ps'.filter fun r => !r.isBareZero) ⊆ ps.filter fun r => !r.isBareZero := List.filter_subset _ hsub
  rw [commonUnit_eq_ok_iff (List.cons_ne_nil _ _), hdecisive hq, List.forall_mem_cons, List.map_cons] at h
  rw [commonUnit_eq_ok_iff (List.cons_ne_nil _ _), hdecisive hq', List.forall_mem_cons, List.map_cons]
  refine ⟨⟨congrArg StorageUnit.dimension hunit, fun r hr => h.1.2 r (hfilter hr)⟩, ?_⟩
  rw [show q'.scale = q.scale from congrArg StorageUnit.scale hunit]
  exact h.2.of_subset (List.map_subset _ hfilter)

/-- all policies but the strict one find a scale, and refuse nothing but a dimension -/
theorem commonUnit_cases (hp : p ≠ .strict) (h : ps ≠ []) :
    (∃ u, commonUnit p w ps = .ok u) ∨ ∃ d e o, commonUnit p w ps = .error (.mismatch d e o) := by
  obtain ⟨q, rest, us, -, -, hcommon⟩ := exists_matching (p := p) (w := w) h
  rw [hcommon]
  cases hout : matching p w q.unit us with
  | ok u => exact .inl ⟨u, rfl⟩
  | error fault =>
    obtain ⟨before, v, i, after, u, -, -, hfault⟩ := matching_eq_error_iff.1 hout
    rcases hfault with ⟨-, rfl⟩ | ⟨-, hs, -⟩
    · exact .inr ⟨_, _, _, rfl⟩
    · obtain ⟨s, hs'⟩ := ScalePolicy.exists_resolve? hp u.scale v.scale
      rw [hs'] at hs
      cases hs

theorem exists_dimension_ne {fault : Fault} {d e : Dimension} {o : Operation} (h : ps ≠ [])
    (hfault : commonUnit p w ps = .error fault) (hmismatch : fault = .mismatch d e o) :
    ∃ q ∈ decisive ps, ∃ r ∈ decisive ps, q.dimension ≠ r.dimension := by
  obtain ⟨q, rest, us, hdecisive, hunits, hcommon⟩ := exists_matching (p := p) (w := w) h
  rw [hcommon] at hfault
  obtain ⟨before, v, i, after, u, rfl, -, hcause⟩ := matching_eq_error_iff.1 hfault
  rcases hcause with ⟨hd, -⟩ | ⟨-, -, rfl⟩
  · have hv : v ∈ rest.map Participant.unit := by
      rw [← hunits]
      simp
    obtain ⟨r, hr, rfl⟩ := List.mem_map.1 hv
    rw [hdecisive]
    exact ⟨q, List.mem_cons_self, r, List.mem_cons_of_mem _ hr, fun hqr => hd hqr.symm⟩
  · cases hmismatch

theorem commonUnit_mismatch_iff (hp : p ≠ .strict) (h : ps ≠ []) :
    (∃ d e o, commonUnit p w ps = .error (.mismatch d e o)) ↔
      ∃ q ∈ decisive ps, ∃ r ∈ decisive ps, q.dimension ≠ r.dimension := by
  constructor
  · rintro ⟨d, e, o, hfault⟩
    exact exists_dimension_ne h hfault rfl
  · rintro ⟨q, hq, r, hr, hqr⟩
    rcases commonUnit_cases (w := w) hp h with ⟨u, hu⟩ | hfault
    · have hall := ((commonUnit_eq_ok_iff h).1 hu).1
      exact absurd ((hall q hq).trans (hall r hr).symm) hqr
    · exact hfault

end Common

/-! ## The order of operands -/

section Order

variable {κ : Type} [Numeric κ] {p : ScalePolicy} {w : Wording} {m : Store κ} {xs ys : List (Operand κ)}

theorem unit_of_isBareZero {q : Participant κ} (hq : q ∈ xs.map (Operand.participant m)) (hz : q.isBareZero = true) :
    q.unit = .one := by
  obtain ⟨x, -, rfl⟩ := List.mem_map.1 hq
  cases x with
  | quantity q => cases hz
  | _ => rfl

theorem decisive_perm (h : xs.Perm ys) : ((decisive (xs.map (Operand.participant m))).map Participant.unit).Perm
    ((decisive (ys.map (Operand.participant m))).map Participant.unit) := by
  have hps := h.map (Operand.participant m)
  have hothers := hps.filter fun q => !q.isBareZero
  have hzeros {zs : List (Operand κ)} (hz : (zs.map (Operand.participant m)).filter (fun q => !q.isBareZero) = [])
      (hne : zs ≠ []) : ((zs.map (Operand.participant m)).take 1).map Participant.unit = [.one] := by
    cases zs with
    | nil => exact absurd rfl hne
    | cons z zs =>
      have hfirst : z.participant m ∈ (z :: zs).map (Operand.participant m) := List.mem_cons_self
      have hzero := List.filter_eq_nil_iff.1 hz _ hfirst
      exact congrArg (· :: []) (unit_of_isBareZero hfirst (by simpa using hzero))
  unfold decisive
  cases hx : (xs.map (Operand.participant m)).filter fun q => !q.isBareZero with
  | nil =>
    rw [hx] at hothers
    have hy := hothers.nil_eq.symm
    rw [hy]
    by_cases hne : xs = []
    · subst hne
      rw [h.nil_eq.symm]
    · have hne' : ys ≠ [] := fun hys => hne (by rw [hys] at h; exact h.eq_nil)
      exact List.Perm.of_eq ((hzeros hx hne).trans (hzeros hy hne').symm)
  | cons q rest =>
    rw [hx] at hothers
    cases hy : (ys.map (Operand.participant m)).filter fun q => !q.isBareZero with
    | nil =>
      rw [hy] at hothers
      cases hothers.eq_nil
    | cons r rest' =>
      rw [hy] at hothers
      exact hothers.map Participant.unit

theorem commonUnit_ok_perm (hp : p = .smallerWins ∨ p = .largerWins) (hne : xs ≠ []) (h : xs.Perm ys)
    {u : StorageUnit} (hu : commonUnit p w (xs.map (Operand.participant m)) = .ok u) :
    commonUnit p w (ys.map (Operand.participant m)) = .ok u := by
  have hne' : ys ≠ [] := fun hys => hne (by rw [hys] at h; exact h.eq_nil)
  have hunits := decisive_perm (m := m) h
  have hscales := hunits.map StorageUnit.scale
  rw [List.map_map, List.map_map] at hscales
  rw [commonUnit_eq_ok_iff (by simpa using hne)] at hu
  rw [commonUnit_eq_ok_iff (by simpa using hne')]
  refine ⟨fun q hq => ?_, (ScalePolicy.chooses_perm hp hscales).1 hu.2⟩
  obtain ⟨r, hr, hunit⟩ := List.mem_map.1 (hunits.mem_iff.2 (List.mem_map_of_mem hq))
  exact (congrArg StorageUnit.dimension hunit).symm.trans (hu.1 r hr)

/-- **The common unit of operands.** Those that have a say have its dimension, and its scale is chosen from theirs.
A dimension is refused, by all policies but the strict one, if and only if two that have a say differ in it; a unit is
found otherwise. The strict policy finds a unit if and only if all have that unit. Where the smaller or the larger
exponents win, the order of the operands does not matter. -/
theorem commonUnit_spec (p : ScalePolicy) (w : Wording) (m : Store κ) (hne : xs ≠ []) :
    (∀ u, commonUnit p w (xs.map (Operand.participant m)) = .ok u ↔
      (∀ q ∈ decisive (xs.map (Operand.participant m)), q.dimension = u.dimension) ∧
        p.Chooses ((decisive (xs.map (Operand.participant m))).map Participant.scale) u.scale) ∧
    (p ≠ .strict →
      ((∃ d e o, commonUnit p w (xs.map (Operand.participant m)) = .error (.mismatch d e o)) ↔
        ∃ q ∈ decisive (xs.map (Operand.participant m)), ∃ r ∈ decisive (xs.map (Operand.participant m)),
          q.dimension ≠ r.dimension) ∧
      ((∃ u, commonUnit p w (xs.map (Operand.participant m)) = .ok u) ↔
        ∀ q ∈ decisive (xs.map (Operand.participant m)), ∀ r ∈ decisive (xs.map (Operand.participant m)),
          q.dimension = r.dimension)) ∧
    (p = .strict →
      ((∃ u, commonUnit p w (xs.map (Operand.participant m)) = .ok u) ↔
        ∃ u, ∀ q ∈ decisive (xs.map (Operand.participant m)), q.unit = u)) ∧
    (p = .smallerWins ∨ p = .largerWins → ∀ ys, xs.Perm ys →
      (∀ u, commonUnit p w (xs.map (Operand.participant m)) = .ok u ↔
        commonUnit p w (ys.map (Operand.participant m)) = .ok u) ∧
      ((∃ d e o, commonUnit p w (xs.map (Operand.participant m)) = .error (.mismatch d e o)) ↔
        ∃ d e o, commonUnit p w (ys.map (Operand.participant m)) = .error (.mismatch d e o))) := by
  have hps : xs.map (Operand.participant m) ≠ [] := by simpa using hne
  refine ⟨fun u => commonUnit_eq_ok_iff hps, fun hp => ⟨commonUnit_mismatch_iff hp hps, ?_⟩, ?_, ?_⟩
  · constructor
    · rintro ⟨u, hu⟩ q hq r hr
      have hall := ((commonUnit_eq_ok_iff hps).1 hu).1
      exact (hall q hq).trans (hall r hr).symm
    · intro hall
      refine (commonUnit_cases (w := w) hp hps).resolve_right fun hfault => ?_
      obtain ⟨q, hq, r, hr, hqr⟩ := (commonUnit_mismatch_iff hp hps).1 hfault
      exact hqr (hall q hq r hr)
  · rintro rfl
    refine exists_congr fun u => ?_
    rw [commonUnit_eq_ok_iff hps]
    simp only [ScalePolicy.Chooses, List.forall_mem_map]
    constructor
    · rintro ⟨hd, hs⟩ q hq
      exact congrArg₂ StorageUnit.mk (hd q hq) (hs q hq)
    · intro h
      exact ⟨fun q hq => congrArg StorageUnit.dimension (h q hq), fun q hq => congrArg StorageUnit.scale (h q hq)⟩
  · intro hp ys h
    have hys : ys ≠ [] := fun hys => hne (by rw [hys] at h; exact h.eq_nil)
    have hstrict : p ≠ .strict := by rcases hp with rfl | rfl <;> decide
    have hok (u : StorageUnit) : commonUnit p w (xs.map (Operand.participant m)) = .ok u ↔
        commonUnit p w (ys.map (Operand.participant m)) = .ok u :=
      ⟨commonUnit_ok_perm hp hne h, commonUnit_ok_perm hp hys h.symm⟩
    -- what is not found is refused for its dimension
    have hrefused {zs zs' : List (Operand κ)} (hzs : zs ≠ [])
        (hto : ∀ u, commonUnit p w (zs.map (Operand.participant m)) = .ok u →
          commonUnit p w (zs'.map (Operand.participant m)) = .ok u)
        (hfault : ∃ d e o, commonUnit p w (zs'.map (Operand.participant m)) = .error (.mismatch d e o)) :
        ∃ d e o, commonUnit p w (zs.map (Operand.participant m)) = .error (.mismatch d e o) := by
      refine (commonUnit_cases hstrict (by simpa using hzs)).resolve_left ?_
      rintro ⟨u, hu⟩
      obtain ⟨d, e, o, hfault⟩ := hfault
      rw [hto u hu] at hfault
      cases hfault
    exact ⟨hok, hrefused hys fun u => (hok u).2, hrefused hne fun u => (hok u).1⟩

/-- a bare zero, three meters, and five halves of a meter -/
def zeroAndLengths : List (Operand Float) :=
  [.integer 0, .quantity ⟨.integer 3, { length := 1 }, .one⟩, .quantity ⟨.integer 5, { length := 1 }, { two := -1 }⟩]

/-- they come to halves of a meter in either order, and the strict policy finds no unit -/
theorem commonUnit_zeroAndLengths :
    zeroAndLengths ≠ [] ∧
    commonUnit .smallerWins (.plain "concatenate") (zeroAndLengths.map (Operand.participant .empty)) =
      .ok ⟨{ length := 1 }, { two := -1 }⟩ ∧
    commonUnit .smallerWins (.plain "concatenate") (zeroAndLengths.reverse.map (Operand.participant .empty)) =
      .ok ⟨{ length := 1 }, { two := -1 }⟩ ∧
    ¬ ∃ u, commonUnit .strict (.plain "concatenate") (zeroAndLengths.map (Operand.participant .empty)) = .ok u := by
  have hne : zeroAndLengths ≠ [] := List.cons_ne_nil _ _
  have hall : ScalePolicy.smallerWins.Chooses [.one, { two := -1 }] { two := -1 } := by
    refine (ScalePolicy.chooses_of_resolve? (v := { two := -1 }) (by decide)).2 ?_
    exact ScalePolicy.chooses_single.2 rfl
  have hsmaller := commonUnit_spec .smallerWins (.plain "concatenate") .empty hne
  have hfound := (hsmaller.1 ⟨{ length := 1 }, { two := -1 }⟩).2 ⟨by decide, hall⟩
  refine ⟨hne, hfound, ?_, ?_⟩
  · exact ((hsmaller.2.2.2 (.inl rfl) _ (List.reverse_perm _).symm).1 _).1 hfound
  · rw [(commonUnit_spec .strict (.plain "concatenate") .empty hne).2.2.1 rfl]
    rintro ⟨u, hu⟩
    have hmeters := hu ⟨⟨.integer 3, { length := 1 }, .one⟩, false⟩ (.head _)
    have hhalves := hu ⟨⟨.integer 5, { length := 1 }, { two := -1 }⟩, false⟩ (.tail _ (.head _))
    exact absurd (hmeters.trans hhalves.symm) (by decide)

end Order

end UnitAlgebra

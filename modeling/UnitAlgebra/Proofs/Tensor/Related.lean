/-
Grids that are related place by place. What only moves values about cannot tell related grids apart: repetition over a
larger box, lanes, rows of all values, new axes and joints keep values related. So a law about values is a law about
grids, whatever it is that they went through.

Results:
- `Related.gather`: what takes its values from places of related grids is related.
- `Related.zipWith`, `Related.lanes`, `Related.concatenate`, `Related.stack`: the same for the ways that grids are taken
  apart and put together.
- `Related.mapM`: values that are made one by one.
-/
import UnitAlgebra.Proofs.Tensor.Rows

namespace UnitAlgebra

/-! ## Related lists -/

section Lists

variable {α β ι : Type} {R : α → β → Prop}

theorem forall₂_getElem? {l : List α} {l' : List β} (h : List.Forall₂ R l l') (i : Nat) : Option.Rel R l[i]? l'[i]? := by
  induction h generalizing i with
  | nil => exact .none
  | cons hab _ ih =>
    cases i with
    | zero => exact .some hab
    | succ i => exact ih i

theorem exists_getElem? {l : List α} {l' : List β} (h : List.Forall₂ R l l') {i : Nat} {a : α} (ha : l[i]? = some a) :
    ∃ b, l'[i]? = some b ∧ R a b := by
  have hrel := forall₂_getElem? h i
  rw [ha] at hrel
  generalize l'[i]? = o at hrel ⊢
  cases hrel with
  | some hab => exact ⟨_, rfl, hab⟩

theorem rel_bind {γ δ : Type} {S : γ → δ → Prop} {f : α → Option γ} {g : β → Option δ} {o : Option α} {o' : Option β}
    (h : Option.Rel R o o') (hfg : ∀ a b, R a b → Option.Rel S (f a) (g b)) : Option.Rel S (o.bind f) (o'.bind g) := by
  cases h with
  | none => exact .none
  | some hab => exact hfg _ _ hab

theorem forall₂_filterMap {f : ι → Option α} {g : ι → Option β} (h : ∀ i, Option.Rel R (f i) (g i)) (l : List ι) :
    List.Forall₂ R (l.filterMap f) (l.filterMap g) := by
  refine List.rel_filterMap (R := Eq) ?_ (List.forall₂_same.2 fun _ _ => rfl)
  rintro i _ rfl
  exact h i

theorem forall₂_map_same {f : ι → α} {g : ι → β} (h : ∀ i, R (f i) (g i)) (l : List ι) :
    List.Forall₂ R (l.map f) (l.map g) :=
  List.forall₂_map_left_iff.2 (List.forall₂_map_right_iff.2 (List.forall₂_same.2 fun i _ => h i))

theorem any_of_forall₂ {l : List α} {l' : List β} (h : List.Forall₂ R l l') {p : α → Bool} {q : β → Bool}
    (hpq : ∀ a b, R a b → p a = q b) : l.any p = l'.any q := by
  induction h with
  | nil => rfl
  | cons hab _ ih => rw [List.any_cons, List.any_cons, hpq _ _ hab, ih]

theorem forall₂_zip {γ δ : Type} {S : γ → δ → Prop} {l : List α} {l' : List β} {k : List γ} {k' : List δ}
    (h : List.Forall₂ R l l') (h' : List.Forall₂ S k k') :
    List.Forall₂ (fun p q => R p.1 q.1 ∧ S p.2 q.2) (l.zip k) (l'.zip k') := by
  induction h generalizing k k' with
  | nil => exact .nil
  | cons hab _ ih =>
    cases h' with
    | nil => exact .nil
    | cons hcd hrest => exact .cons ⟨hab, hcd⟩ (ih hrest)

theorem forall₂_and {γ : Type} {S : α → γ → Prop} {l : List α} {l' : List β} {k : List γ} (h : List.Forall₂ R l l')
    (h' : List.Forall₂ S l k) : List.Forall₂ (fun a b => R a b ∧ ∃ c, S a c) l l' := by
  induction h generalizing k with
  | nil => exact .nil
  | cons hab _ ih =>
    cases h' with
    | cons hac hrest => exact .cons ⟨hab, _, hac⟩ (ih hrest)

theorem forall₂_trans {γ : Type} {S : β → γ → Prop} {l : List α} {l' : List β} {k : List γ} (h : List.Forall₂ R l l')
    (h' : List.Forall₂ S l' k) : List.Forall₂ (fun a c => ∃ b ∈ l', R a b ∧ S b c) l k := by
  induction h generalizing k with
  | nil =>
    cases h'
    exact .nil
  | cons hab _ ih =>
    cases h' with
    | cons hbc hrest =>
      refine .cons ⟨_, List.mem_cons_self, hab, hbc⟩ ((ih hrest).imp ?_)
      rintro a c ⟨b, hb, hR, hS⟩
      exact ⟨b, List.mem_cons_of_mem _ hb, hR, hS⟩

theorem forall₂_zipWith {γ : Type} {f : α → ι → γ} {f' : β → ι → γ} {l : List α} {l' : List β} {S : γ → γ → Prop}
    (h : List.Forall₂ R l l') (hf : ∀ a b i, R a b → S (f a i) (f' b i)) (k : List ι) :
    List.Forall₂ S (List.zipWith f l k) (List.zipWith f' l' k) := by
  induction h generalizing k with
  | nil => exact .nil
  | cons hab _ ih =>
    cases k with
    | nil => exact .nil
    | cons i k => exact .cons (hf _ _ i hab) (ih k)

/-- what is made of related values, one by one -/
theorem Outcome.forall₂_mapM {γ δ : Type} {S : γ → δ → Prop} {f : α → Outcome γ} {g : β → Outcome δ}
    {l : List α} {l' : List β} (h : List.Forall₂ R l l')
    (hstep : ∀ a b, R a b → ∀ {c}, f a = .ok c → ∃ d, g b = .ok d ∧ S c d) {cs : List γ} (hcs : l.mapM f = .ok cs) :
    ∃ ds, l'.mapM g = .ok ds ∧ List.Forall₂ S cs ds := by
  induction h generalizing cs with
  | nil =>
    cases hcs
    exact ⟨[], rfl, .nil⟩
  | cons hab _ ih =>
    rw [List.mapM_cons] at hcs
    obtain ⟨c, hc, hcs⟩ := bind_eq_ok_iff.1 hcs
    obtain ⟨rest, hrest, hcs⟩ := bind_eq_ok_iff.1 hcs
    cases hcs
    obtain ⟨d, hd, hcd⟩ := hstep _ _ hab hc
    obtain ⟨ds, hds, hrelated⟩ := ih hrest
    refine ⟨d :: ds, ?_, .cons hcd hrelated⟩
    rw [List.mapM_cons, hd, hds]
    rfl

theorem Outcome.forall₂_flatMapM {γ δ : Type} {S : γ → δ → Prop} {f : α → Outcome (List γ)} {g : β → Outcome (List δ)}
    {l : List α} {l' : List β} (h : List.Forall₂ R l l')
    (hstep : ∀ a b, R a b → ∀ {cs}, f a = .ok cs → ∃ ds, g b = .ok ds ∧ List.Forall₂ S cs ds) {cs : List γ}
    (hcs : l.flatMapM f = .ok cs) : ∃ ds, l'.flatMapM g = .ok ds ∧ List.Forall₂ S cs ds := by
  induction h generalizing cs with
  | nil =>
    cases hcs
    exact ⟨[], rfl, .nil⟩
  | cons hab _ ih =>
    rw [List.flatMapM_cons] at hcs
    obtain ⟨first, hfirst, hcs⟩ := bind_eq_ok_iff.1 hcs
    obtain ⟨rest, hrest, hcs⟩ := bind_eq_ok_iff.1 hcs
    cases hcs
    obtain ⟨first', hfirst', hrelated⟩ := hstep _ _ hab hfirst
    obtain ⟨rest', hrest', hall⟩ := ih hrest
    refine ⟨first' ++ rest', ?_, List.rel_append hrelated hall⟩
    rw [List.flatMapM_cons, hfirst', hrest']
    rfl

end Lists

/-! ## Related grids -/

namespace Grid

variable {α β : Type} {R : α → β → Prop}

/-- grids of one box, related place by place -/
structure Related (R : α → β → Prop) (g : Grid α) (h : Grid β) : Prop where
  shape : g.shape = h.shape
  entries : List.Forall₂ R g.entries h.entries

namespace Related

variable {g : Grid α} {h : Grid β}

theorem imp {S : α → β → Prop} (hr : Related R g h) (himp : ∀ a b, R a b → S a b) : Related S g h :=
  ⟨hr.shape, hr.entries.imp himp⟩

theorem map {γ δ : Type} {S : γ → δ → Prop} {f : α → γ} {f' : β → δ} (hr : Related R g h)
    (hf : ∀ a b, R a b → S (f a) (f' b)) : Related S (g.map f) (h.map f') :=
  ⟨hr.shape, List.forall₂_map_left_iff.2 (List.forall₂_map_right_iff.2 (hr.entries.imp hf))⟩

theorem rank (hr : Related R g h) : g.rank = h.rank := congrArg List.length hr.shape

theorem at? (hr : Related R g h) (index : List Nat) : Option.Rel R (g.at? index) (h.at? index) := by
  rw [Grid.at?, Grid.at?, hr.shape]
  exact forall₂_getElem? hr.entries _

/-- **Values that come from places of related grids are related.** -/
theorem gather (hr : Related R g h) (shape : List Nat) (source : List Nat → List Nat) :
    Related R (g.gather shape source) (h.gather shape source) :=
  ⟨rfl, forall₂_filterMap (fun i => hr.at? (source i)) _⟩

theorem broadcast (hr : Related R g h) (shape : List Nat) : Related R (g.broadcast shape) (h.broadcast shape) := by
  rw [Grid.broadcast, Grid.broadcast, hr.shape]
  exact hr.gather shape _

theorem ravel (hr : Related R g h) : Related R g.ravel h.ravel :=
  ⟨congrArg (fun n => [n]) hr.entries.length_eq, hr.entries⟩

theorem insertAxis (hr : Related R g h) (a : Nat) : Related R (g.insertAxis a) (h.insertAxis a) := by
  refine ⟨?_, hr.entries⟩
  rw [Grid.insertAxis, Grid.insertAxis, hr.shape]

theorem zipWith {γ δ : Type} {S : γ → γ → Prop} {f : α → δ → γ} {f' : β → δ → γ} (hr : Related R g h)
    (hf : ∀ a b c, R a b → S (f a c) (f' b c)) {k : Grid δ} {z : Grid γ} (hz : g.zipWith f k = some z) :
    ∃ z', h.zipWith f' k = some z' ∧ Related S z z' := by
  unfold Grid.zipWith at hz ⊢
  obtain ⟨shape, hshape, hz⟩ := Option.bind_eq_some_iff.1 hz
  cases hz
  rw [← hr.shape, hshape]
  exact ⟨_, rfl, rfl, forall₂_zipWith (hr.broadcast shape).entries hf _⟩

theorem lanes (hr : Related R g h) (axes : List Nat) : Related (List.Forall₂ R) (g.lanes axes) (h.lanes axes) := by
  unfold Grid.lanes
  simp only [hr.shape, hr.rank]
  exact ⟨rfl, forall₂_map_same (fun i => forall₂_filterMap (fun j => hr.at? _) _) _⟩

theorem rowsOver (hr : Related R g h) (axes : List Nat) (keep : Bool) :
    Related (List.Forall₂ (List.Forall₂ R)) (g.rowsOver axes keep) (h.rowsOver axes keep) := by
  unfold Grid.rowsOver
  simp only [hr.shape, hr.rank]
  exact ⟨rfl, ((hr.lanes _).lanes _).entries⟩

/-! ### Joints -/

/-- the grid of a list that a place of the joint falls in -/
theorem find {gs : List (Grid α)} {hs : List (Grid β)} (hr : List.Forall₂ (Related R) gs hs) (a : Nat) (i : List Nat)
    (n : Nat) : Option.Rel R (Grid.concatenate.find a i gs n) (Grid.concatenate.find a i hs n) := by
  induction hr generalizing n with
  | nil => exact .none
  | cons hgh _ ih =>
    rw [Grid.concatenate.find, Grid.concatenate.find, hgh.shape]
    split
    · exact hgh.at? _
    · exact ih _

theorem map_shape {gs : List (Grid α)} {hs : List (Grid β)} (hr : List.Forall₂ (Related R) gs hs) {γ : Type}
    (f : List Nat → γ) : gs.map (fun g => f g.shape) = hs.map fun h => f h.shape := by
  induction hr with
  | nil => rfl
  | cons hgh _ ih => rw [List.map_cons, List.map_cons, hgh.shape, ih]

theorem concatenate {gs : List (Grid α)} {hs : List (Grid β)} (hr : List.Forall₂ (Related R) gs hs) {a : Nat}
    {z : Grid α} (hz : Grid.concatenate gs a = some z) : ∃ z', Grid.concatenate hs a = some z' ∧ Related R z z' := by
  cases hr with
  | nil => cases hz
  | @cons g h gs hs hgh hrest =>
    have hall : List.Forall₂ (Related R) (g :: gs) (h :: hs) := .cons hgh hrest
    have hextents := map_shape hall fun s => s.getD a 0
    unfold Grid.concatenate at hz ⊢
    simp only at hz ⊢
    split at hz
    · next hfit =>
      cases hz
      rw [if_pos, ← hgh.shape, ← hextents]
      · exact ⟨_, rfl, rfl, forall₂_filterMap (fun i => find hall a i _) _⟩
      · refine List.all_eq_true.2 fun y hy => ?_
        obtain ⟨x, hx, hxy⟩ := exists_partner hall.flip hy
        have hfits := List.all_eq_true.1 hfit x hx
        rwa [hxy.rank, hxy.shape, hgh.rank, hgh.shape] at hfits
    · cases hz

theorem stack {gs : List (Grid α)} {hs : List (Grid β)} (hr : List.Forall₂ (Related R) gs hs) {a : Nat} {z : Grid α}
    (hz : Grid.stack gs a = some z) : ∃ z', Grid.stack hs a = some z' ∧ Related R z z' := by
  refine concatenate (List.forall₂_map_left_iff.2 (List.forall₂_map_right_iff.2 (hr.imp fun _ _ hgh => ?_))) hz
  exact hgh.insertAxis a

/-! ### Values one by one -/

theorem mapM {γ δ : Type} {S : γ → δ → Prop} {f : α → Outcome γ} {f' : β → Outcome δ} (hr : Related R g h)
    (hstep : ∀ a b, R a b → ∀ {c}, f a = .ok c → ∃ d, f' b = .ok d ∧ S c d) {cs : List γ}
    (hcs : g.entries.mapM f = .ok cs) :
    ∃ ds, h.entries.mapM f' = .ok ds ∧ Related S ⟨g.shape, cs⟩ ⟨h.shape, ds⟩ := by
  obtain ⟨ds, hds, hrelated⟩ := Outcome.forall₂_mapM hr.entries hstep hcs
  exact ⟨ds, hds, hr.shape, hrelated⟩

end Related

end Grid

end UnitAlgebra

/-
Strict evaluation is the storage-exact fragment of evaluation. A strict run takes the same steps as any other, from left
to right, and stops at the first name whose unit is not stored as it is. When there is no such name it ends where the
other run ends, and one times one, one over one and the powers of one are one again.

Results:
- `evaluate_congr`: evaluation asks the registry for the names of the tree and for nothing else.
- `evaluate_of_strict`: what strict evaluation returns, evaluation returns.
- `identifiers_tree`: the names of a tree are those of its text, in order.
- `evaluate_strict`: strict evaluation stops at the first name of an inexact unit.
- `isStorage_of_evaluate`: storage units combine to storage units.
- `evaluateText_strict_iff`: the fragment of the texts that strict evaluation accepts.
-/
import UnitAlgebra.Proofs.Decimal.Comparing
import UnitAlgebra.Proofs.Expression.Composition
import UnitAlgebra.Proofs.Tensor.Rows

namespace UnitAlgebra

/-! ## Storage units -/

namespace UnitMeaning

theorem eq_one_of_isOne {x : Float} (h : Numeric.isOne x = true) : x = Numeric.one := by
  rcases Binary64.eq_or_isNull h with rfl | ⟨-, hnull⟩
  · rfl
  · have hzero := Binary64.isZero_of_isOne isOne_one
    rw [Numeric.isZero, show Numeric.eq _ _ = true from
      Binary64.equal_of_isNull hnull (Binary64.isNull_iff.2 (.inl rfl))] at hzero
    cases hzero

theorem isZero_zero : Numeric.isZero (Numeric.zero : Float) = true := rfl

variable {u v w : UnitMeaning Float}

theorem isStorage_iff : u.isStorage = true ↔ u.factor = Numeric.one ∧ Numeric.isZero u.offset = true := by
  rw [isStorage, Bool.and_eq_true]
  exact and_congr_left' ⟨eq_one_of_isOne, fun h => h ▸ isOne_one⟩

theorem isStorage_stored (d : Dimension) (s : Scale) : (stored d s : UnitMeaning Float).isStorage = true :=
  isStorage_iff.2 ⟨rfl, isZero_zero⟩

/-- One times one is one. -/
theorem isStorage_mul (hu : u.isStorage = true) (hv : v.isStorage = true) (h : u.mul v = .ok w) :
    w.isStorage = true := by
  obtain ⟨d, s, hw⟩ := ok_of_bind h
  cases hw
  refine isStorage_iff.2 ⟨?_, isZero_zero⟩
  change Numeric.mul u.factor v.factor = Numeric.one
  rw [(isStorage_iff.1 hu).1, (isStorage_iff.1 hv).1]
  rfl

/-- One over one is one. -/
theorem isStorage_div (hu : u.isStorage = true) (hv : v.isStorage = true) (h : u.div v = .ok w) :
    w.isStorage = true := by
  obtain ⟨d, s, hw⟩ := ok_of_bind h
  split at hw
  · cases hw
  · cases hw
    refine isStorage_iff.2 ⟨?_, isZero_zero⟩
    change Numeric.div u.factor v.factor = Numeric.one
    rw [(isStorage_iff.1 hu).1, (isStorage_iff.1 hv).1]
    rfl

/-- The powers of one are one, as far as they are reckoned. -/
theorem isStorage_pow {n : Int} (hu : u.isStorage = true) (h : u.pow n = .ok w) : w.isStorage = true := by
  unfold pow at h
  split at h
  · cases h
    exact hu
  · obtain ⟨d, s, hw⟩ := ok_of_bind h
    obtain ⟨x, hx, hw⟩ := Outcome.bind_eq_ok_iff.1 hw
    cases hw
    refine isStorage_iff.2 ⟨?_, isZero_zero⟩
    have hpower : Binary64.power Numeric.one n = .ok x := (isStorage_iff.1 hu).1 ▸ hx
    have hzero : ((Numeric.one : Float) == 0.0) = false := Binary64.isZero_of_isOne isOne_one
    have hone : ((Numeric.one : Float) == 1.0) = true := isOne_one
    simp only [Binary64.power, hzero, hone, Bool.false_and, Bool.false_eq_true, if_false, if_true] at hpower
    split at hpower
    · cases hpower
    · cases hpower
      rfl

end UnitMeaning

/-! ## Names in a text -/

namespace Expression

open Text

/-- the names among the terminals of a text, from left to right -/
def namesOf (ts : List Terminal) : List String :=
  ts.filterMap fun
    | .name s => some s
    | _ => none

/-- The names of a tree are those of its text, in order. -/
theorem Derivation.identifiers_tree {k : Category} (d : Derivation k) : d.tree.identifiers = namesOf d.leaves := by
  induction d with
  | name text => rfl
  | integer value digits => rfl
  | group inner ih => simpa [namesOf, leaves, tree] using ih
  | plain base ih => exact ih
  | raised base exponent ih => simpa [namesOf, leaves, tree, UnitExpr.identifiers] using ih
  | single only ih => exact ih
  | times left right ihl ihr =>
    simp only [namesOf, leaves, tree, UnitExpr.identifiers, ihl, ihr, List.filterMap_append, List.filterMap_cons]
  | whole only ih => exact ih
  | per left right ihl ihr =>
    simp only [namesOf, leaves, tree, UnitExpr.identifiers, ihl, ihr, List.filterMap_append, List.filterMap_cons]

/-! ## What evaluation asks for -/

section

variable {κ : Type} [Numeric κ]

/-- **Evaluation asks for names only.** Registries that give the names of a tree the same meanings give the tree the same
meaning. -/
theorem evaluate_congr {r r' : Registry κ} {strict strict' : Bool} {t : UnitExpr}
    (h : ∀ name ∈ t.identifiers, resolve r strict name = resolve r' strict' name) :
    evaluate r strict t = evaluate r' strict' t := by
  induction t with
  | identifier name => exact h name (List.mem_singleton_self name)
  | integer value => rfl
  | mul left right ihl ihr | div left right ihl ihr =>
    rw [evaluate, evaluate, ihl fun name hn => h name (List.mem_append_left _ hn),
      ihr fun name hn => h name (List.mem_append_right _ hn)]
  | pow base n ih => rw [evaluate, evaluate, ih h]

theorem resolve_of_strict {r : Registry κ} {strict : Bool} {name : String} {u : UnitMeaning κ}
    (h : resolve r strict name = .ok u) : resolve r false name = .ok u ∧ u.text = some name := by
  unfold resolve at h ⊢
  cases hl : lookupName r name with
  | error fault =>
    rw [hl] at h
    cases h
  | ok found =>
    rw [hl] at h
    obtain _ | ⟨e, scale⟩ := found
    · cases h
      exact ⟨rfl, rfl⟩
    · change (if (strict && !e.unit.isStorage) = true then _ else _) = _ at h
      split at h
      · cases h
      · cases h
        exact ⟨rfl, rfl⟩

/-- What strict evaluation returns, evaluation returns. -/
theorem evaluate_of_strict {r : Registry κ} {strict : Bool} {t : UnitExpr} {u : UnitMeaning κ}
    (h : evaluate r strict t = .ok u) : evaluate r false t = .ok u := by
  induction t generalizing u with
  | identifier name => exact (resolve_of_strict h).1
  | integer value => exact h
  | mul left right ihl ihr | div left right ihl ihr =>
    obtain ⟨v, hv, h⟩ := Outcome.bind_eq_ok_iff.1 h
    obtain ⟨w, hw, h⟩ := Outcome.bind_eq_ok_iff.1 h
    rw [evaluate, ihl hv, ihr hw]
    exact h
  | pow base n ih =>
    obtain ⟨v, hv, h⟩ := Outcome.bind_eq_ok_iff.1 h
    rw [evaluate, ih hv]
    exact h

end

/-! ## Exact names -/

/-- the name resolves to a unit with the factor one and without an offset; pi does -/
def IsExactName (r : Registry Float) (name : String) : Prop :=
  ∃ u, resolve r false name = .ok u ∧ Numeric.isOne u.factor = true ∧ Numeric.isZero u.offset = true

section

variable {r : Registry Float} {t : UnitExpr} {u : UnitMeaning Float}

/-- a name that has a meaning is taken by a strict reading when the meaning is exact, and is refused by name otherwise -/
theorem resolve_strict {name : String} (h : resolve r false name = .ok u) :
    resolve r true name = if u.isStorage then .ok u else .error (.format (.notStorageUnit name)) := by
  unfold resolve at h ⊢
  cases hl : lookupName r name with
  | error fault =>
    rw [hl] at h
    cases h
  | ok found =>
    rw [hl] at h
    obtain _ | ⟨e, scale⟩ := found
    · cases h
      exact (if_pos (UnitMeaning.isStorage_stored .one { pi := 1 })).symm
    · cases h
      have hstorage : (meaningOf e.unit e.family scale name).isStorage = e.unit.isStorage := by
        simp [UnitMeaning.isStorage, meaningOf, UnitDef.isStorage, UnitDef.hasFactor, UnitDef.hasOffset]
      rw [hstorage]
      change (if (true && !e.unit.isStorage) = true then _ else _) = _
      cases e.unit.isStorage <;> rfl

theorem isExactName_iff {name : String} (h : resolve r false name = .ok u) :
    IsExactName r name ↔ u.isStorage = true := by
  rw [IsExactName, UnitMeaning.isStorage, Bool.and_eq_true]
  constructor
  · rintro ⟨v, hv, hexact⟩
    cases h.symm.trans hv
    exact hexact
  · exact fun hexact => ⟨u, h, hexact⟩

/-! ## Trees -/

open Classical in
/-- **Strict evaluation stops at the first name of an inexact unit.** It goes through a tree from left to right; when all
names are exact it ends where evaluation ends. -/
theorem evaluate_strict (h : evaluate r false t = .ok u) :
    evaluate r true t =
      match t.identifiers.find? fun name => ¬ IsExactName r name with
      | none => .ok u
      | some name => .error (.format (.notStorageUnit name)) := by
  induction t generalizing u with
  | identifier name =>
    change resolve r true name = _
    rw [resolve_strict h, UnitExpr.identifiers, List.find?_singleton]
    by_cases hexact : u.isStorage = true <;> simp [isExactName_iff h, hexact]
  | integer value => exact h
  | mul left right ihl ihr | div left right ihl ihr =>
    obtain ⟨v, hv, h⟩ := Outcome.bind_eq_ok_iff.1 h
    obtain ⟨w, hw, h⟩ := Outcome.bind_eq_ok_iff.1 h
    rw [evaluate, ihl hv, ihr hw, UnitExpr.identifiers, List.find?_append]
    cases left.identifiers.find? fun name => ¬ IsExactName r name with
    | some name => rfl
    | none =>
      cases right.identifiers.find? fun name => ¬ IsExactName r name with
      | some name => rfl
      | none => exact h
  | pow base n ih =>
    obtain ⟨v, hv, h⟩ := Outcome.bind_eq_ok_iff.1 h
    rw [evaluate, ih hv, UnitExpr.identifiers]
    cases base.identifiers.find? fun name => ¬ IsExactName r name with
    | some name => rfl
    | none => exact h


/-- **Storage units combine to storage units.** -/
theorem isStorage_of_evaluate (hn : ∀ name ∈ t.identifiers, IsExactName r name) (h : evaluate r false t = .ok u) :
    u.isStorage = true := by
  induction t generalizing u with
  | identifier name => exact (isExactName_iff h).1 (hn name (List.mem_singleton_self name))
  | integer value =>
    obtain ⟨s, -, hs⟩ := Outcome.bind_eq_ok_iff.1 h
    cases hs
    exact UnitMeaning.isStorage_stored .one s
  | mul left right ihl ihr =>
    obtain ⟨v, hv, h⟩ := Outcome.bind_eq_ok_iff.1 h
    obtain ⟨w, hw, h⟩ := Outcome.bind_eq_ok_iff.1 h
    exact UnitMeaning.isStorage_mul (ihl (fun name hm => hn name (List.mem_append_left _ hm)) hv)
      (ihr (fun name hm => hn name (List.mem_append_right _ hm)) hw) h
  | div left right ihl ihr =>
    obtain ⟨v, hv, h⟩ := Outcome.bind_eq_ok_iff.1 h
    obtain ⟨w, hw, h⟩ := Outcome.bind_eq_ok_iff.1 h
    exact UnitMeaning.isStorage_div (ihl (fun name hm => hn name (List.mem_append_left _ hm)) hv)
      (ihr (fun name hm => hn name (List.mem_append_right _ hm)) hw) h
  | pow base n ih =>
    obtain ⟨v, hv, h⟩ := Outcome.bind_eq_ok_iff.1 h
    exact UnitMeaning.isStorage_pow (ih hn hv) h

/-! ## Texts -/

/-- a text with a meaning is the text of a tree with the same meaning, up to its title -/
theorem exists_tree {text : String} (h : evaluateText r false text = .ok u) : ∃ d : Derivation .expr,
    Reads text.toList d.leaves ∧ parse text = .ok d.tree ∧
      ∃ v, evaluate r false d.tree = .ok v ∧ titled d.tree (trimmed text) v = u := by
  cases hp : parse text with
  | error fault =>
    simp only [evaluateText, parse_trimmed, hp] at h
    cases h
  | ok t =>
    obtain ⟨d, hreads, -, rfl⟩ := exists_derivation hp
    rw [evaluateText_of_parse hp] at h
    cases he : evaluate r false d.tree with
    | error fault =>
      rw [he] at h
      cases h
    | ok v =>
      rw [he] at h
      exact ⟨d, hreads, rfl, v, he, Except.ok.inj h⟩

variable {text : String} {ts : List Terminal}

open Classical in
theorem evaluateText_strict (h : evaluateText r false text = .ok u) (hts : Reads text.toList ts) :
    evaluateText r true text =
      match (namesOf ts).find? fun name => ¬ IsExactName r name with
      | none => .ok u
      | some name => .error (.format (.notStorageUnit name)) := by
  obtain ⟨d, hreads, hp, v, hv, rfl⟩ := exists_tree h
  rw [evaluateText_of_parse hp, evaluate_strict hv, d.identifiers_tree, hreads.unique hts]
  cases (namesOf ts).find? fun name => ¬ IsExactName r name <;> rfl

theorem isStorage_of_evaluateText (h : evaluateText r false text = .ok u) (hts : Reads text.toList ts)
    (hn : ∀ name ∈ namesOf ts, IsExactName r name) : u.isStorage = true := by
  obtain ⟨d, hreads, -, v, hv, rfl⟩ := exists_tree h
  rw [← hreads.unique hts, ← d.identifiers_tree] at hn
  have hstorage := isStorage_of_evaluate hn hv
  cases d.tree <;> exact hstorage

/-- **Strict evaluation is the storage-exact fragment.** A text that has a meaning has a strict meaning exactly when all
its names resolve to units with the factor one and without an offset. The two are then the same, and a storage unit.
Otherwise the text is refused as badly formed, with the leftmost name that is not exact. -/
theorem evaluateText_strict_iff (r : Registry Float) (text : String) (u : UnitMeaning Float)
    (h : evaluateText r false text = .ok u) : ∃ ts, Reads text.toList ts ∧
    ((∃ v, evaluateText r true text = .ok v) ↔ ∀ name ∈ namesOf ts, IsExactName r name) ∧
    ((∀ name ∈ namesOf ts, IsExactName r name) → evaluateText r true text = .ok u ∧ u.isStorage = true) ∧
    ((¬ ∀ name ∈ namesOf ts, IsExactName r name) → ∃ left name right, namesOf ts = left ++ name :: right ∧
      (∀ n ∈ left, IsExactName r n) ∧ ¬ IsExactName r name ∧
      evaluateText r true text = .error (.unit (.invalidFormat (.notStorageUnit name)))) := by
  classical
  obtain ⟨d, hreads, -⟩ := exists_tree h
  have hstrict := evaluateText_strict h hreads
  cases hfind : (namesOf d.leaves).find? fun name => ¬ IsExactName r name with
  | none =>
    have hn : ∀ name ∈ namesOf d.leaves, IsExactName r name := by simpa using hfind
    rw [hfind] at hstrict
    exact ⟨d.leaves, hreads, ⟨fun _ => hn, fun _ => ⟨u, hstrict⟩⟩,
      fun _ => ⟨hstrict, isStorage_of_evaluateText h hreads hn⟩, fun hnot => absurd hn hnot⟩
  | some name =>
    obtain ⟨hname, left, right, hsplit, hleft⟩ := List.find?_eq_some_iff_append.1 hfind
    have hnot : ¬ ∀ name ∈ namesOf d.leaves, IsExactName r name := fun hn =>
      (by simpa using hname : ¬ IsExactName r name) (hn name (hsplit ▸ by simp))
    rw [hfind] at hstrict
    refine ⟨d.leaves, hreads, ⟨fun ⟨v, hv⟩ => ?_, fun hn => absurd hn hnot⟩, fun hn => absurd hn hnot,
      fun _ => ⟨left, name, right, hsplit, by simpa using hleft, by simpa using hname, hstrict⟩⟩
    cases hstrict.symm.trans hv

/-- a registry that knows the meter and the foot -/
def rulers : Registry Float :=
  let length : UnitFamily Float := ⟨"Length", "L", { length := 1 }, []⟩
  { Registry.empty [] [] with
    symbols := [("m", ⟨⟨"meter", "m", [], .one, Numeric.one, Numeric.zero, .metric⟩, length⟩),
      ("ft", ⟨⟨"foot", "ft", [], .one, 0.3048, Numeric.zero, .imperial⟩, length⟩)] }

/-- the foot is refused, behind pi and the meter -/
theorem evaluateText_strict_foot : ∃ u, evaluateText rulers false "pi*m*ft" = .ok u ∧
    evaluateText rulers true "pi*m*ft" = .error (.unit (.invalidFormat (.notStorageUnit "ft"))) := by
  have hp : parse "pi*m*ft" = .ok (.mul (.mul (.identifier "pi") (.identifier "m")) (.identifier "ft")) := by
    decide +kernel
  obtain ⟨u, hu⟩ : ∃ u, evaluateText rulers false "pi*m*ft" = .ok u := by
    rw [evaluateText_of_parse hp]
    exact ⟨_, rfl⟩
  have hpi : IsExactName rulers "pi" := ⟨_, rfl, by decide +kernel, by decide +kernel⟩
  have hm : IsExactName rulers "m" := ⟨_, rfl, by decide +kernel, by decide +kernel⟩
  have hft : ¬ IsExactName rulers "ft" := by
    rintro ⟨v, hv, hone, -⟩
    cases hv
    exact absurd hone (by decide +kernel)
  obtain ⟨d, hd, -, htree⟩ := exists_derivation hp
  obtain ⟨ts, hts, -, -, hrefused⟩ := evaluateText_strict_iff rulers "pi*m*ft" u hu
  have hnames : namesOf ts = ["pi", "m", "ft"] := by
    rw [hts.unique hd, ← d.identifiers_tree, htree]
    rfl
  rw [hnames] at hrefused
  obtain ⟨left, name, right, hsplit, -, hname, hstrict⟩ := hrefused fun h => hft (h "ft" (by decide))
  have hmem : name ∈ ["pi", "m", "ft"] := hsplit ▸ by simp
  simp only [List.mem_cons, List.not_mem_nil, or_false] at hmem
  rcases hmem with rfl | rfl | rfl
  · exact absurd hpi hname
  · exact absurd hm hname
  · exact ⟨u, hu, hstrict⟩

end

end Expression

end UnitAlgebra

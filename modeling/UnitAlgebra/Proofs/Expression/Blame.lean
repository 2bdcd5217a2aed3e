/-
Which name an expression is blamed on. Trees are evaluated from left to right, as their text is read, and combining two
units never fails for a name. So an unknown unit is the leftmost name without a meaning, and it is reported unless some
part of the expression to the left of it fails before.

Results:
- `unresolved_of_resolve`: a name is unknown when it is no symbol, no name, no prefixed unit and not pi.
- `evaluate_of_part`: a tree fails as a part of it does when all that stands to the left of the part has a meaning.
- `blamedFor_of_evaluate`: the names to the left of the one that is blamed have a meaning.
- `evaluateText_blames_leftmost`: the unit that is blamed is the leftmost unknown one.
-/
import UnitAlgebra.Proofs.Expression.Factors
import UnitAlgebra.Proofs.Expression.Strictness
import UnitAlgebra.Proofs.Registry.Transparency

namespace UnitAlgebra

/-! ## Parts of a tree -/

namespace UnitExpr

/-- a part of a tree, and how many names stand to the left of it -/
inductive Part : UnitExpr → Nat → UnitExpr → Prop where
  | whole (t : UnitExpr) : Part t 0 t
  | factorLeft {left right s : UnitExpr} {k : Nat} : Part left k s → Part (mul left right) k s
  | factorRight {left right s : UnitExpr} {k : Nat} :
      Part right k s → Part (mul left right) (left.identifiers.length + k) s
  | dividend {left right s : UnitExpr} {k : Nat} : Part left k s → Part (div left right) k s
  | divisor {left right s : UnitExpr} {k : Nat} :
      Part right k s → Part (div left right) (left.identifiers.length + k) s
  | base {t s : UnitExpr} {n : Int} {k : Nat} : Part t k s → Part (pow t n) k s

/-- an element of two lists in a row stands in the first, or in the second behind the whole of the first -/
theorem split_append {first second left right : List String} {name : String}
    (h : first ++ second = left ++ name :: right) :
    (∃ others, first = left ++ name :: others) ∨
      ∃ others, second = others ++ name :: right ∧ left.length = first.length + others.length := by
  rcases List.append_eq_append_iff.1 h with ⟨others, hleft, hsecond⟩ | ⟨tail, hfirst, htail⟩
  · exact .inr ⟨others, hsecond, by rw [hleft, List.length_append]⟩
  · cases tail with
    | nil => exact .inr ⟨[], htail.symm, by rw [hfirst, List.append_nil, List.length_nil, Nat.add_zero]⟩
    | cons c tail =>
      cases htail
      exact .inl ⟨tail, hfirst⟩

theorem part_of_identifiers {t : UnitExpr} {left right : List String} {name : String}
    (h : t.identifiers = left ++ name :: right) : t.Part left.length (.identifier name) := by
  induction t generalizing left right with
  | identifier other =>
    cases left with
    | nil =>
      cases h
      exact .whole _
    | cons c left => cases left <;> cases h
  | integer value => cases left <;> cases h
  | mul first second ihf ihs =>
    rcases split_append h with ⟨others, hfirst⟩ | ⟨others, hsecond, hlength⟩
    · exact .factorLeft (ihf hfirst)
    · exact hlength ▸ .factorRight (ihs hsecond)
  | div first second ihf ihs =>
    rcases split_append h with ⟨others, hfirst⟩ | ⟨others, hsecond, hlength⟩
    · exact .dividend (ihf hfirst)
    · exact hlength ▸ .divisor (ihs hsecond)
  | pow base n ih => exact .base (ih h)

end UnitExpr

namespace Expression

open Text

/-! ## Unknown names -/

/-- none of the ways to look a name up finds a meaning -/
structure Unresolved {κ : Type} [Numeric κ] (r : Registry κ) (name : String) : Prop where
  symbol : r.findSymbol? name = none
  unitName : r.findName? name = none
  prefixed : r.findPrefixed? name = .ok none
  pi : name ∉ piNames

/-- a fault that tells of an unknown name -/
def IsUnknown (fault : Fault) : Prop := ∃ name expression suggestions,
  fault = .unit (.unknownUnit name expression suggestions)

section

variable {κ : Type} [Numeric κ] {r : Registry κ} {strict : Bool} {name : String}

theorem resolve_of_unresolved (strict : Bool) (h : Unresolved r name) :
    ∃ suggestions, r.suggest name 3 = .ok suggestions ∧
      resolve r strict name = .error (.unit (.unknownUnit name none suggestions)) := by
  refine ⟨Text.closest 3 name r.spellings, rfl, ?_⟩
  have hfind : r.find? name = none := by rw [Registry.find?, h.symbol, h.unitName]; rfl
  have hpi : piNames.contains name = false := by simpa using h.pi
  rw [resolve, lookupName, hfind, h.prefixed]
  change ((if piNames.contains name then _ else _) >>= _) = _
  rw [hpi]
  rfl

/-- **A name is unknown** when it is no symbol, no name, no prefixed unit and not pi. -/
theorem unresolved_of_resolve {fault : Fault} (h : resolve r strict name = .error fault) (hf : IsUnknown fault) :
    Unresolved r name := by
  obtain ⟨other, expression, suggestions, rfl⟩ := hf
  -- what is found is refused by a strict reading at most
  have hfound : ∀ {e : Entry κ} {scale : Scale},
      (if strict && !e.unit.isStorage then .error (.format (.notStorageUnit name))
        else .ok (meaningOf e.unit e.family scale name)) ≠
          (.error (.unit (.unknownUnit other expression suggestions)) : Outcome (UnitMeaning κ)) := by
    intro e scale hrefused
    split at hrefused <;> cases hrefused
  unfold resolve lookupName at h
  cases hfind : r.find? name with
  | some e =>
    rw [hfind] at h
    exact absurd h hfound
  | none =>
  rw [hfind] at h
  obtain ⟨hsymbol, hname⟩ := (Option.orElse_eq_none ..).1 hfind
  cases hprefixed : r.findPrefixed? name with
  | error fault =>
    have hends := ends_splitByFirst r name.toList r.prefixes
    rw [Registry.findPrefixed?] at hprefixed
    rw [Registry.findPrefixed?, hprefixed] at h
    rw [hprefixed] at hends
    cases hends.1
    cases h
  | ok found =>
  rw [hprefixed] at h
  obtain _ | ⟨p, e⟩ := found
  · refine ⟨hsymbol, hname, hprefixed, fun hpi => ?_⟩
    change ((if piNames.contains name then _ else _) >>= _) = _ at h
    rw [if_pos (by simpa using hpi)] at h
    cases h
  · -- a scale that is out of range is no unknown name
    change (((p.scale >>= fun t => e.unit.scale.mul t >>= fun s => .ok (some (e, s))) :
      Outcome (Option (Entry κ × Scale))) >>= _) = _ at h
    have hscale := Registry.reaches_scale p
    cases hp : p.scale with
    | error fault =>
      rw [hp] at h hscale
      obtain ⟨-, cause, rfl⟩ := hscale
      cases h
    | ok t =>
    rw [hp] at h
    change ((e.unit.scale.mul t >>= fun s => .ok (some (e, s))) >>= _) = _ at h
    have hmul := Scale.reaches_mul e.unit.scale t
    cases hs : e.unit.scale.mul t with
    | error fault =>
      rw [hs] at h hmul
      obtain ⟨-, cause, rfl⟩ := hmul
      cases h
    | ok s =>
      rw [hs] at h
      exact absurd h hfound

/-! ## Trees -/

variable {t : UnitExpr}

theorem exists_of_evaluate {u : UnitMeaning κ} (h : evaluate r strict t = .ok u) :
    ∀ n ∈ t.identifiers, ∃ v, resolve r strict n = .ok v := by
  induction t generalizing u with
  | identifier name =>
    intro n hn
    exact List.mem_singleton.1 hn ▸ ⟨u, h⟩
  | integer value => nofun
  | mul left right ihl ihr | div left right ihl ihr =>
    obtain ⟨v, hv, h⟩ := Outcome.bind_eq_ok_iff.1 h
    obtain ⟨w, hw, -⟩ := Outcome.bind_eq_ok_iff.1 h
    intro n hn
    exact (List.mem_append.1 hn).elim (ihl hv n) (ihr hw n)
  | pow base n ih =>
    obtain ⟨v, hv, -⟩ := Outcome.bind_eq_ok_iff.1 h
    exact ih hv

/-- **Trees fail as their parts do** when all that stands to the left of the part has a meaning. -/
theorem evaluate_of_part {s : UnitExpr} {k : Nat} {fault : Fault} (hp : t.Part k s)
    (hs : evaluate r strict s = .error fault)
    (hleft : ∀ i s', t.Part i s' → i + s'.identifiers.length ≤ k → ∃ u, evaluate r strict s' = .ok u) :
    evaluate r strict t = .error fault := by
  induction hp with
  | whole => exact hs
  | factorLeft _ ih =>
    rw [evaluate, ih hs fun i s' hi => hleft i s' (.factorLeft hi)]
    rfl
  | dividend _ ih =>
    rw [evaluate, ih hs fun i s' hi => hleft i s' (.dividend hi)]
    rfl
  | base _ ih =>
    rw [evaluate, ih hs fun i s' hi => hleft i s' (.base hi)]
    rfl
  | @factorRight left right s k _ ih =>
    -- the left operand stands to the left as a whole
    obtain ⟨u, hu⟩ := hleft 0 left (.factorLeft (.whole left)) (by omega)
    rw [evaluate, hu, ih hs fun i s' hi hk => hleft _ s' (.factorRight hi) (by omega)]
    rfl
  | @divisor left right s k _ ih =>
    obtain ⟨u, hu⟩ := hleft 0 left (.dividend (.whole left)) (by omega)
    rw [evaluate, hu, ih hs fun i s' hi hk => hleft _ s' (.divisor hi) (by omega)]
    rfl

end

/-! ## What is never unknown -/

/-- an outcome that is no unknown name -/
def Known {α : Type} (o : Outcome α) : Prop := o.Ends (fun _ => True) fun fault => ¬ IsUnknown fault

theorem Known.bind {α β : Type} {o : Outcome α} {f : α → Outcome β} (h : Known o) (hf : ∀ x, Known (f x)) :
    Known (o >>= f) := Outcome.Ends.bind h fun x _ => hf x

theorem known_dimension {wanted : Axis → Int} {o : Outcome Dimension} (h : Dimension.Reaches wanted o) : Known o := by
  cases o with
  | ok d => trivial
  | error fault =>
    obtain ⟨-, cause, rfl⟩ := h
    exact fun ⟨_, _, _, hf⟩ => nomatch hf

theorem known_scale {wanted : Base → Int} {o : Outcome Scale} (h : Scale.Reaches wanted o) : Known o := by
  cases o with
  | ok s => trivial
  | error fault =>
    obtain ⟨-, cause, rfl⟩ := h
    exact fun ⟨_, _, _, hf⟩ => nomatch hf

theorem known_format {α : Type} (cause : FormatFault) : Known (.error (.format cause) : Outcome α) :=
  fun ⟨_, _, _, hf⟩ => nomatch hf

theorem known_integerScale (n : Int) : Known (integerScale n) := by
  unfold integerScale
  split
  · exact known_format _
  · dsimp only
    split
    · exact known_format _
    · exact known_scale (Scale.reaches_ofInts _ _)

theorem known_power (x : Float) (n : Int) : Known (Numeric.power x n) := by
  change Known (Binary64.power x n)
  unfold Binary64.power
  dsimp only
  split_ifs
  · exact fun ⟨_, _, _, hf⟩ => nomatch hf
  · exact fun ⟨_, _, _, hf⟩ => nomatch hf
  · trivial
  · exact fun ⟨_, _, _, hf⟩ => nomatch hf
  · trivial

theorem known_mul (u v : UnitMeaning Float) : Known (u.mul v) :=
  (known_dimension (Dimension.reaches_mul _ _)).bind fun _ =>
    (known_scale (Scale.reaches_mul _ _)).bind fun _ => trivial

theorem known_div (u v : UnitMeaning Float) : Known (u.div v) := by
  refine (known_dimension (Dimension.reaches_div _ _)).bind fun _ =>
    (known_scale (Scale.reaches_div _ _)).bind fun _ => ?_
  split
  · exact fun ⟨_, _, _, hf⟩ => nomatch hf
  · trivial

theorem known_pow (u : UnitMeaning Float) (n : Int) : Known (u.pow n) := by
  unfold UnitMeaning.pow
  split
  · trivial
  · exact (known_dimension (Dimension.reaches_pow _ _)).bind fun _ =>
      (known_scale (Scale.reaches_pow _ _)).bind fun _ => (known_power _ _).bind fun _ => trivial

theorem known_parse (text : String) : Known (parse text) := by
  cases hp : parse text with
  | ok t => trivial
  | error fault =>
    rintro ⟨_, _, _, rfl⟩
    rcases parse_fault hp with ⟨cause, hcause⟩ | hvalue
    · cases hcause
    · cases hvalue

/-! ## Expressions -/

section

variable {r : Registry Float} {strict : Bool} {t : UnitExpr}

/-- the names with one that is unknown, and a meaning for each to the left of it -/
def BlamedFor (r : Registry Float) (strict : Bool) (names : List String) (name : String) : Prop :=
  Unresolved r name ∧ ∃ left right, names = left ++ name :: right ∧ ∀ n ∈ left, ∃ u, resolve r strict n = .ok u

theorem BlamedFor.append {names : List String} {name : String} (h : BlamedFor r strict names name)
    (others : List String) : BlamedFor r strict (names ++ others) name := by
  obtain ⟨hname, left, right, rfl, hleft⟩ := h
  exact ⟨hname, left, right ++ others, by simp, hleft⟩

theorem BlamedFor.behind {names : List String} {name : String} (h : BlamedFor r strict names name)
    {others : List String} (ho : ∀ n ∈ others, ∃ u, resolve r strict n = .ok u) :
    BlamedFor r strict (others ++ names) name := by
  obtain ⟨hname, left, right, rfl, hleft⟩ := h
  refine ⟨hname, others ++ left, right, (List.append_assoc ..).symm, fun n hn => ?_⟩
  exact (List.mem_append.1 hn).elim (ho n) (hleft n)

/-- two operands fail for an unknown name as one of them does, and as the second only if the first has a meaning -/
theorem unknown_of_operands {left right : UnitExpr}
    {f : UnitMeaning Float → UnitMeaning Float → Outcome (UnitMeaning Float)} (hf : ∀ u v, Known (f u v))
    {fault : Fault} (hfault : IsUnknown fault)
    (h : (evaluate r strict left >>= fun u => evaluate r strict right >>= fun v => f u v) = .error fault) :
    evaluate r strict left = .error fault ∨
      (∃ u, evaluate r strict left = .ok u) ∧ evaluate r strict right = .error fault := by
  cases hl : evaluate r strict left with
  | error =>
    rw [hl] at h
    exact .inl h
  | ok u =>
  cases hr : evaluate r strict right with
  | error =>
    rw [hl, hr] at h
    exact .inr ⟨⟨u, rfl⟩, h⟩
  | ok v =>
    rw [hl, hr] at h
    have hknown := hf u v
    rw [show f u v = .error fault from h] at hknown
    exact absurd hfault hknown

/-- **The leftmost name is blamed.** A tree that fails for an unknown name has a meaning for all names to the left of
it. -/
theorem blamedFor_of_evaluate {name : String} {expression : Option String} {suggestions : List String}
    (h : evaluate r strict t = .error (.unit (.unknownUnit name expression suggestions))) :
    BlamedFor r strict t.identifiers name ∧ r.suggest name 3 = .ok suggestions := by
  have hunknown : IsUnknown (.unit (.unknownUnit name expression suggestions)) := ⟨name, expression, suggestions, rfl⟩
  induction t with
  | identifier other =>
    have hother := unresolved_of_resolve h hunknown
    obtain ⟨closest, hclosest, hresolve⟩ := resolve_of_unresolved strict hother
    cases h.symm.trans hresolve
    exact ⟨⟨hother, [], [], rfl, nofun⟩, hclosest⟩
  | integer value =>
    have hknown := known_integerScale value
    rw [evaluate] at h
    cases hs : integerScale value with
    | ok s =>
      rw [hs] at h
      cases h
    | error fault =>
      rw [hs] at h hknown
      cases h
      exact absurd hunknown hknown
  | mul left right ihl ihr =>
    rcases unknown_of_operands known_mul hunknown h with hl | ⟨⟨u, hu⟩, hr⟩
    · exact ⟨(ihl hl).1.append _, (ihl hl).2⟩
    · exact ⟨(ihr hr).1.behind (exists_of_evaluate hu), (ihr hr).2⟩
  | div left right ihl ihr =>
    rcases unknown_of_operands known_div hunknown h with hl | ⟨⟨u, hu⟩, hr⟩
    · exact ⟨(ihl hl).1.append _, (ihl hl).2⟩
    · exact ⟨(ihr hr).1.behind (exists_of_evaluate hu), (ihr hr).2⟩
  | pow base n ih =>
    rw [evaluate] at h
    cases hb : evaluate r strict base with
    | error fault =>
      rw [hb] at h
      exact ih (hb.trans h)
    | ok u =>
      rw [hb] at h
      have hknown := known_pow u n
      rw [show u.pow n = _ from h] at hknown
      exact absurd hunknown hknown

/-- **The blamed unit is the leftmost unknown one.** An unknown unit is reported with the trimmed text. It is no symbol,
no name, no prefixed unit and not pi, and the names to the left of it in the text have a meaning. An expression with
such a name is blamed on it when all its parts to the left of the name have a meaning. -/
theorem evaluateText_blames_leftmost (r : Registry Float) (strict : Bool) (text : String) :
    (∀ name expression suggestions,
      evaluateText r strict text = .error (.unit (.unknownUnit name expression suggestions)) →
        expression = some (trimmed text) ∧ r.suggest name 3 = .ok suggestions ∧
        ∃ t ts, parse text = .ok t ∧ Reads text.toList ts ∧ t.identifiers = namesOf ts ∧
          BlamedFor r strict (namesOf ts) name) ∧
    (∀ t left name right, parse text = .ok t → t.identifiers = left ++ name :: right → Unresolved r name →
      (∀ k s, t.Part k s → k + s.identifiers.length ≤ left.length → ∃ u, evaluate r strict s = .ok u) →
      ∃ suggestions, r.suggest name 3 = .ok suggestions ∧
        evaluateText r strict text = .error (.unit (.unknownUnit name (some (trimmed text)) suggestions))) := by
  constructor
  · intro name expression suggestions h
    cases hp : parse text with
    | error fault =>
      have hknown := known_parse text
      simp only [evaluateText, parse_trimmed, hp] at h
      rw [hp] at hknown
      cases h
      exact absurd ⟨name, expression, suggestions, rfl⟩ hknown
    | ok t =>
      obtain ⟨d, hreads, -, rfl⟩ := exists_derivation hp
      rw [evaluateText_of_parse hp] at h
      cases he : evaluate r strict d.tree with
      | ok u =>
        rw [he] at h
        cases h
      | error fault =>
        rw [he] at h
        have hfault : inExpression (trimmed text) fault = .unit (.unknownUnit name expression suggestions) :=
          Except.error.inj h
        unfold inExpression at hfault
        split at hfault
        · cases hfault
          obtain ⟨hblamed, hsuggest⟩ := blamedFor_of_evaluate he
          exact ⟨rfl, hsuggest, d.tree, d.leaves, rfl, hreads, d.identifiers_tree, d.identifiers_tree ▸ hblamed⟩
        · next hnot =>
          exact absurd hfault (hnot _ _ _)
  · intro t left name right hp hnames hname hleft
    obtain ⟨suggestions, hsuggest, hresolve⟩ := resolve_of_unresolved strict hname
    have hevaluate := evaluate_of_part (UnitExpr.part_of_identifiers hnames) hresolve hleft
    refine ⟨suggestions, hsuggest, ?_⟩
    rw [evaluateText_of_parse hp, hevaluate]
    rfl

/-- in ` m*blarg/x ` the second name is blamed, and not the third -/
theorem evaluateText_blames_second : parse " m*blarg/x " =
      .ok (.div (.mul (.identifier "m") (.identifier "blarg")) (.identifier "x")) ∧
    Unresolved meterOnly "blarg" ∧ Unresolved meterOnly "x" ∧
    ∃ suggestions, evaluateText meterOnly false " m*blarg/x " =
      .error (.unit (.unknownUnit "blarg" (some "m*blarg/x") suggestions)) ∧
      ∃ ts, Reads " m*blarg/x ".toList ts ∧ BlamedFor meterOnly false (namesOf ts) "blarg" := by
  have hp : parse " m*blarg/x " =
      .ok (.div (.mul (.identifier "m") (.identifier "blarg")) (.identifier "x")) := by decide +kernel
  have hblarg : Unresolved meterOnly "blarg" := ⟨by decide +kernel, by decide +kernel, rfl, by decide⟩
  have hx : Unresolved meterOnly "x" := ⟨by decide +kernel, by decide +kernel, rfl, by decide⟩
  have hspec := evaluateText_blames_leftmost meterOnly false " m*blarg/x "
  obtain ⟨suggestions, -, hraised⟩ := hspec.2 _ ["m"] "blarg" ["x"] hp rfl hblarg fun k s hpart hk => by
    -- the meter is the only part to the left
    cases hpart with
    | whole => exact absurd hk (by decide)
    | divisor =>
      change 2 + _ + _ ≤ 1 at hk
      omega
    | dividend hpart =>
      cases hpart with
      | whole => exact absurd hk (by decide)
      | factorLeft hpart =>
        cases hpart
        exact ⟨_, rfl⟩
      | factorRight hpart =>
        cases hpart
        exact absurd hk (by decide)
  have htrimmed : trimmed " m*blarg/x " = "m*blarg/x" := by decide +kernel
  rw [htrimmed] at hraised
  obtain ⟨-, -, t, ts, -, hreads, -, hblamed⟩ := hspec.1 _ _ _ hraised
  exact ⟨hp, hblarg, hx, suggestions, hraised, ts, hreads, hblamed⟩

end

end Expression

end UnitAlgebra

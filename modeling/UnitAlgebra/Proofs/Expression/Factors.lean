/-
The factor of a unit expression. Exponents are checked at every step of an evaluation, and names before that; the factor
of the unit is reckoned beside them and is not checked. So evaluation returns a unit with the factor of the tree, or an
error of the unit algebra, or else the fault of reckoning that factor.

Results:
- `agrees`: evaluation agrees with the factor of the tree.
- `ends_resolve`: a name has the factor of a unit that the registry knows, or one.
- `factorOf_closed`: a class of factors that is closed under products, quotients and powers is not left.
- `ends_evaluateText`: the meaning of a text has a factor of a closed class, if all its names do.
-/
import UnitAlgebra.Proofs.Expression.Homomorphism
import UnitAlgebra.Proofs.Registry.Prefixed

namespace UnitAlgebra

/-- the errors of the unit algebra that an expression can be at fault for -/
def Fault.isEvaluation : Fault → Bool
  | .unit (.invalidFormat _) | .unit (.unknownUnit ..) | .unit (.exponentOverflow _) | .unit (.scaleOverflow _) => true
  | _ => false

/-- an outcome that is a value of one class, or a fault of another -/
def Outcome.Ends {α : Type} (P : α → Prop) (B : Fault → Prop) : Outcome α → Prop
  | .ok x => P x
  | .error fault => B fault

theorem Outcome.Ends.bind {α β : Type} {P : α → Prop} {Q : β → Prop} {B : Fault → Prop} {o : Outcome α}
    {f : α → Outcome β} (h : Ends P B o) (hf : ∀ x, P x → Ends Q B (f x)) : Ends Q B (o >>= f) := by
  cases o with
  | error fault => exact h
  | ok x => exact hf x h

theorem Outcome.Ends.imp {α : Type} {P Q : α → Prop} {B C : Fault → Prop} {o : Outcome α} (h : Ends P B o)
    (hp : ∀ x, P x → Q x) (hb : ∀ fault, B fault → C fault) : Ends Q C o := by
  cases o with
  | error fault => exact hb fault h
  | ok x => exact hp x h

/-- the exponents in a tree, from left to right -/
def UnitExpr.exponents : UnitExpr → List Int
  | identifier _ | integer _ => []
  | mul left right | div left right => left.exponents ++ right.exponents
  | pow base n => base.exponents ++ [n]

namespace Expression

variable {κ : Type} [Numeric κ]

/-! ## The factor of a tree -/

/-- the factor of a tree, reckoned without a look at the exponents -/
def factorOf (r : Registry κ) (strict : Bool) : UnitExpr → Outcome κ
  | .identifier name => (resolve r strict name).map UnitMeaning.factor
  | .integer _ => .ok Numeric.one
  | .mul left right => do return Numeric.mul (← factorOf r strict left) (← factorOf r strict right)
  | .div left right => do
    let x ← factorOf r strict left
    let y ← factorOf r strict right
    if Numeric.isZero y then .error .divisionByZero else return Numeric.div x y
  | .pow base n => do
    let x ← factorOf r strict base
    if n = 1 then return x else Numeric.power x n

/-- a unit with the factor given; or an error of the unit algebra; or the fault of reckoning the factor -/
inductive Agrees : Outcome (UnitMeaning κ) → Outcome κ → Prop where
  | unit (u : UnitMeaning κ) : Agrees (.ok u) (.ok u.factor)
  | refused {fault : Fault} (h : fault.isEvaluation = true) (factor : Outcome κ) : Agrees (.error fault) factor
  | failed (fault : Fault) : Agrees (.error fault) (.error fault)

omit [Numeric κ] in
theorem Agrees.factor_of_ok {u : UnitMeaning κ} {factor : Outcome κ} (h : Agrees (.ok u) factor) :
    factor = .ok u.factor := by
  cases h
  rfl

omit [Numeric κ] in
theorem Agrees.factor_of_error {fault : Fault} {factor : Outcome κ} (h : Agrees (.error fault) factor) :
    fault.isEvaluation = true ∨ factor = .error fault := by
  cases h with
  | refused h => exact .inl h
  | failed => exact .inr rfl

omit [Numeric κ] in
theorem Agrees.bind {o : Outcome (UnitMeaning κ)} {factor : Outcome κ} {f : UnitMeaning κ → Outcome (UnitMeaning κ)}
    {g : κ → Outcome κ} (h : Agrees o factor) (hf : ∀ u, Agrees (f u) (g u.factor)) :
    Agrees (o >>= f) (factor >>= g) := by
  cases h with
  | unit u => exact hf u
  | refused h => exact .refused h _
  | failed fault => exact .failed fault

/-- dimensions are combined first, then scales; both are refused in the terms of the unit algebra -/
theorem agrees_of_parts {dims : Axis → Int} {scales : Base → Int} {dimension : Outcome Dimension}
    {scale : Outcome Scale} (hd : Dimension.Reaches dims dimension) (hs : Scale.Reaches scales scale)
    (factor : Outcome κ) :
    Agrees (dimension >>= fun d => scale >>= fun s => factor >>= fun x => .ok ⟨d, s, x, Numeric.zero, none⟩)
      factor := by
  cases dimension with
  | error fault =>
    obtain ⟨-, cause, rfl⟩ := hd
    exact .refused rfl _
  | ok d =>
    cases scale with
    | error fault =>
      obtain ⟨-, cause, rfl⟩ := hs
      exact .refused rfl _
    | ok s =>
      cases factor with
      | error fault => exact .failed fault
      | ok x => exact .unit ⟨d, s, x, Numeric.zero, none⟩

theorem agrees_mul (u v : UnitMeaning κ) : Agrees (u.mul v) (.ok (Numeric.mul u.factor v.factor)) :=
  agrees_of_parts (Dimension.reaches_mul u.dimension v.dimension) (Scale.reaches_mul u.scale v.scale) (.ok _)

theorem agrees_div (u v : UnitMeaning κ) :
    Agrees (u.div v)
      (if Numeric.isZero v.factor then .error .divisionByZero else .ok (Numeric.div u.factor v.factor)) := by
  have h := agrees_of_parts (κ := κ) (Dimension.reaches_div u.dimension v.dimension)
    (Scale.reaches_div u.scale v.scale)
  unfold UnitMeaning.div
  split
  · exact h (.error .divisionByZero)
  · exact h (.ok (Numeric.div u.factor v.factor))

theorem agrees_pow (u : UnitMeaning κ) (n : Int) :
    Agrees (u.pow n) (if n = 1 then .ok u.factor else Numeric.power u.factor n) := by
  unfold UnitMeaning.pow
  split
  · exact .unit u
  · exact agrees_of_parts (Dimension.reaches_pow u.dimension n) (Scale.reaches_pow u.scale n) _

theorem isEvaluation_of_ofInts {f : Base → Int} {fault : Fault} (h : Scale.ofInts f = .error fault) :
    fault.isEvaluation = true := by
  unfold Scale.ofInts at h
  split at h
  · cases h
  · cases h
    rfl

theorem isEvaluation_of_integerScale {n : Int} {fault : Fault} (h : integerScale n = .error fault) :
    fault.isEvaluation = true := by
  unfold integerScale at h
  simp only at h
  split at h
  · cases h
    rfl
  · split at h
    · cases h
      rfl
    · exact isEvaluation_of_ofInts h

/-- **Evaluation agrees with the factor of the tree.** -/
theorem agrees (r : Registry κ) (strict : Bool) (t : UnitExpr) :
    Agrees (evaluate r strict t) (factorOf r strict t) := by
  induction t with
  | identifier name =>
    change Agrees (resolve r strict name) ((resolve r strict name).map UnitMeaning.factor)
    cases resolve r strict name with
    | error fault => exact .failed fault
    | ok u => exact .unit u
  | integer value =>
    change Agrees (integerScale value >>= fun s => .ok (.stored .one s)) (.ok Numeric.one)
    cases h : integerScale value with
    | error fault => exact .refused (isEvaluation_of_integerScale h) _
    | ok s => exact .unit (UnitMeaning.stored .one s)
  | mul left right ihl ihr => exact ihl.bind fun u => ihr.bind fun v => agrees_mul u v
  | div left right ihl ihr => exact ihl.bind fun u => ihr.bind fun v => agrees_div u v
  | pow base n ih => exact ih.bind fun u => agrees_pow u n

omit [Numeric κ] in
theorem Agrees.titled {o : Outcome (UnitMeaning κ)} {factor : Outcome κ} (h : Agrees o factor) (t : UnitExpr)
    (text : String) : Agrees ((o.mapError (inExpression text)).map (Expression.titled t text)) factor := by
  cases h with
  | unit u =>
    have hu := Agrees.unit (Expression.titled t text u)
    cases t <;> exact hu
  | @refused fault hf =>
    refine .refused ?_ _
    unfold inExpression
    split
    · rfl
    · exact hf
  | failed fault =>
    change Agrees (.error (inExpression text fault)) _
    unfold inExpression
    split
    · exact .refused rfl _
    · exact .failed _

/-! ## Faults -/

theorem exists_format_of_parse {text : String} (h : DigitsBelow digitLimit text.toList) {fault : Fault}
    (hp : parse text = .error fault) : ∃ cause, fault = .format cause := by
  cases hscan : scan 0 (Text.trim text.toList) with
  | error refused =>
    rw [parse, parseTrimmed, tokens, Text.trimmed, String.toList_ofList, hscan] at hp
    cases hp
    exact ⟨_, rfl⟩
  | ok found =>
    obtain ⟨ts, hreads, -⟩ := exists_reads_of_scan hscan
    have hshort : ∀ t ∈ ts, t.Short := by
      rintro t ht n rfl
      exact hreads.digits_le (h.mono (Text.isInfix_trim _)) n ht
    have hparse := parse_of_reads hreads hshort
    cases hd : Stack.derive ts with
    | none =>
      rw [hd] at hparse
      obtain ⟨cause, hcause⟩ := hparse
      rw [hp] at hcause
      exact ⟨cause, Except.error.inj hcause⟩
    | some d =>
      rw [hd] at hparse
      rw [hp] at hparse
      cases hparse

/-- a text that is not parsed is badly formed, or has an integer that is too long to be read -/
theorem parse_fault {text : String} {fault : Fault} (h : parse text = .error fault) :
    (∃ cause, fault = .format cause) ∨ fault = .badValue none := by
  rw [parse] at h
  cases hscan : scan 0 (Text.trimmed text).toList with
  | error refused =>
    rw [parseTrimmed, tokens, hscan] at h
    cases h
    exact .inl ⟨_, rfl⟩
  | ok found =>
    rw [parseTrimmed, tokens, hscan] at h
    change (if found.isEmpty then _ else _) = _ at h
    split at h
    · cases h
      exact .inl ⟨_, rfl⟩
    · split at h
      · next refused _ =>
        cases h
        obtain ⟨refusal, token⟩ := refused
        cases refusal with
        | tooManyDigits => exact .inr rfl
        | _ => exact .inl ⟨_, rfl⟩
      · split at h
        · cases h
        · cases h
          exact .inl ⟨_, rfl⟩

/-- a unit that a registry knows by a symbol or a name -/
def Knows (r : Registry κ) (e : Entry κ) : Prop := (∃ s, r.findSymbol? s = some e) ∨ ∃ s, r.findName? s = some e

omit [Numeric κ] in
theorem knows_of_find? {r : Registry κ} {name : String} {e : Entry κ} (h : r.find? name = some e) : Knows r e := by
  unfold Registry.find? at h
  cases hs : r.findSymbol? name with
  | some f =>
    rw [hs] at h
    cases h
    exact .inl ⟨name, hs⟩
  | none =>
    rw [hs] at h
    exact .inr ⟨name, h⟩

theorem knows_of_splitBy {r : Registry κ} {text : List Char} {p : SiPrefix} {e : Entry κ}
    (h : r.splitBy text p = .ok (some e)) : Knows r e := by
  unfold Registry.splitBy at h
  split at h
  · next found hfound =>
    cases h
    obtain ⟨s, -, hs⟩ := Option.bind_eq_some_iff.1 hfound
    exact .inl ⟨_, (Option.filter_eq_some_iff.1 hs).1⟩
  · cases hn : p.stripName text with
    | error fault =>
      rw [hn] at h
      cases h
    | ok remainder =>
      rw [hn] at h
      obtain ⟨s, -, hs⟩ := Option.bind_eq_some_iff.1 (Except.ok.inj h)
      exact .inr ⟨_, (Option.filter_eq_some_iff.1 hs).1⟩

/-- a prefix is taken off a unit that is known; only a prefix without a name cannot be looked for -/
theorem ends_splitByFirst (r : Registry κ) (text : List Char) (ps : List SiPrefix) :
    Outcome.Ends (fun found => ∀ p e, found = some (p, e) → Knows r e)
      (fun fault => fault = .badIndex ∧ ∃ p ∈ ps, p.name = "") (r.splitByFirst text ps) := by
  induction ps with
  | nil => exact fun p e h => nomatch h
  | cons p ps ih =>
    rw [Registry.splitByFirst]
    cases hs : r.splitBy text p with
    | ok found =>
      cases found with
      | some e =>
        rintro q f h
        cases h
        exact knows_of_splitBy hs
      | none =>
        refine ih.imp (fun _ h => h) ?_
        rintro fault ⟨hfault, q, hq, hname⟩
        exact ⟨hfault, q, List.mem_cons_of_mem p hq, hname⟩
    | error fault =>
      unfold Registry.splitBy SiPrefix.stripName at hs
      split at hs
      · cases hs
      · split at hs
        · cases hs
        · next hname _ =>
          cases hs
          exact ⟨rfl, p, List.mem_cons_self, String.toList_eq_nil_iff.1 hname⟩
        · cases hs
        · cases hs

/-- the errors of the unit algebra; or a prefix has no name -/
def IsNaming (r : Registry κ) (fault : Fault) : Prop :=
  fault.isEvaluation = true ∨ fault = .badIndex ∧ ∃ p ∈ r.prefixes, p.name = ""

theorem ends_lookupName (r : Registry κ) (name : String) :
    Outcome.Ends (fun found => ∀ e s, found = some (e, s) → Knows r e) (IsNaming r) (lookupName r name) := by
  unfold lookupName
  cases hfind : r.find? name with
  | some e =>
    rintro f s h
    cases h
    exact knows_of_find? hfind
  | none =>
    refine Outcome.Ends.bind ((ends_splitByFirst r name.toList r.prefixes).imp (fun _ h => h) fun _ h => .inr h) ?_
    rintro (_ | ⟨p, e⟩) hfound
    · change Outcome.Ends _ _ (if piNames.contains name then _ else _)
      split
      · exact fun e s h => nomatch h
      · exact .inl rfl
    · change Outcome.Ends _ _ (p.scale >>= fun t => e.unit.scale.mul t >>= fun s => .ok (some (e, s)))
      cases hp : p.scale with
      | error fault => exact .inl (isEvaluation_of_ofInts hp)
      | ok t =>
        have hmul := Scale.reaches_mul e.unit.scale t
        change Outcome.Ends _ _ (e.unit.scale.mul t >>= fun s => .ok (some (e, s)))
        cases hs : e.unit.scale.mul t with
        | error fault =>
          rw [hs] at hmul
          obtain ⟨-, cause, rfl⟩ := hmul
          exact .inl rfl
        | ok s =>
          rintro f u h
          cases h
          exact hfound p e rfl

/-- A name has the factor of a unit that is known, or that of pi, which is one. -/
theorem ends_resolve (r : Registry κ) (strict : Bool) (name : String) :
    Outcome.Ends (fun u => u.factor = Numeric.one ∨ ∃ e, Knows r e ∧ u.factor = e.unit.factor) (IsNaming r)
      (resolve r strict name) := by
  refine (ends_lookupName r name).bind ?_
  rintro (_ | ⟨e, s⟩) hfound
  · exact .inl rfl
  · change Outcome.Ends _ _ (if (strict && !e.unit.isStorage) = true then _ else _)
    split
    · exact .inl rfl
    · exact .inr ⟨e, hfound e s rfl, rfl⟩

/-! ## Closed classes of factors -/

/-- a class of factors that products, quotients, and powers with exponents of a class, stay in or fail by certain
faults -/
structure Closed (P : κ → Prop) (E : Int → Prop) (B : Fault → Prop) : Prop where
  one : P Numeric.one
  mul {x y : κ} : P x → P y → P (Numeric.mul x y)
  div {x y : κ} : P x → P y →
    Outcome.Ends P B (if Numeric.isZero y then .error .divisionByZero else .ok (Numeric.div x y))
  power {x : κ} {n : Int} : P x → E n → Outcome.Ends P B (Numeric.power x n)

variable {P : κ → Prop} {E : Int → Prop} {B : Fault → Prop} {r : Registry κ} {strict : Bool}

/-- **A closed class of factors is not left.** -/
theorem factorOf_closed (hc : Closed P E B) {t : UnitExpr}
    (hn : ∀ name ∈ t.identifiers, Outcome.Ends (fun u => P u.factor) B (resolve r strict name))
    (he : ∀ n ∈ t.exponents, E n) : Outcome.Ends P B (factorOf r strict t) := by
  induction t with
  | identifier name =>
    have h := hn name (List.mem_singleton_self name)
    change Outcome.Ends P B ((resolve r strict name).map UnitMeaning.factor)
    cases hr : resolve r strict name with
    | error fault =>
      rw [hr] at h
      exact h
    | ok u =>
      rw [hr] at h
      exact h
  | integer value => exact hc.one
  | mul left right ihl ihr =>
    have hl := ihl (fun m h => hn m (List.mem_append_left _ h)) fun m h => he m (List.mem_append_left _ h)
    have hr := ihr (fun m h => hn m (List.mem_append_right _ h)) fun m h => he m (List.mem_append_right _ h)
    exact hl.bind fun x hx => hr.bind fun y hy => hc.mul hx hy
  | div left right ihl ihr =>
    have hl := ihl (fun m h => hn m (List.mem_append_left _ h)) fun m h => he m (List.mem_append_left _ h)
    have hr := ihr (fun m h => hn m (List.mem_append_right _ h)) fun m h => he m (List.mem_append_right _ h)
    exact hl.bind fun x hx => hr.bind fun y hy => hc.div hx hy
  | pow base n ih =>
    refine (ih hn fun m h => he m (List.mem_append_left _ h)).bind fun x hx => ?_
    split
    · exact hx
    · exact hc.power hx (he n (List.mem_append_right _ (List.mem_singleton_self n)))

omit [Numeric κ] in
theorem Agrees.ends {o : Outcome (UnitMeaning κ)} {factor : Outcome κ} (h : Agrees o factor)
    (hf : Outcome.Ends P B factor) (hb : ∀ fault, fault.isEvaluation = true → B fault) :
    Outcome.Ends (fun u => P u.factor) B o := by
  cases h with
  | unit u => exact hf
  | refused h => exact hb _ h
  | failed fault => exact hf

theorem agrees_text (r : Registry κ) (strict : Bool) {text : String} (h : DigitsBelow digitLimit text.toList) :
    (∃ cause, evaluateText r strict text = .error (.format cause)) ∨
      ∃ t, parse text = .ok t ∧ Agrees (evaluateText r strict text) (factorOf r strict t) := by
  cases hp : parse text with
  | error fault =>
    obtain ⟨cause, rfl⟩ := exists_format_of_parse h hp
    simp only [evaluateText, parse_trimmed, hp]
    exact .inl ⟨cause, rfl⟩
  | ok t =>
    rw [evaluateText_of_parse hp]
    exact .inr ⟨t, rfl, (agrees r strict t).titled t _⟩

/-- the meaning of a text has a factor of a closed class, if all its names do -/
theorem ends_evaluateText (hc : Closed P E B) (hb : ∀ fault, fault.isEvaluation = true → B fault) {text : String}
    (h : DigitsBelow digitLimit text.toList)
    (ht : ∀ t, parse text = .ok t → (∀ n ∈ t.exponents, E n) ∧
      ∀ name ∈ t.identifiers, Outcome.Ends (fun u => P u.factor) B (resolve r strict name)) :
    Outcome.Ends (fun u => P u.factor) B (evaluateText r strict text) := by
  rcases agrees_text r strict h with ⟨cause, hcause⟩ | ⟨t, hp, hagrees⟩
  · rw [hcause]
    exact hb _ rfl
  · obtain ⟨he, hn⟩ := ht t hp
    exact hagrees.ends (factorOf_closed hc hn he) hb

end Expression

end UnitAlgebra

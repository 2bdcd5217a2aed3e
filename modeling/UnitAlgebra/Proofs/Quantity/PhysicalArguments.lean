/-
Arguments of array functions by their physical values. By its rule a function computes on numbers that are stored in the
scale of the result, or in their own; without units it computes on numbers as they are. Bare arguments that show the
physical values of others differ from what is computed with by a factor, and by nothing else.

Results:
- `aligned_of_valueFor`: what a function is computed on has its physical value by the factor that belongs to it.
- `takenAs_of_complete`, `bared_of_bareArgument`: arguments as they take part, and as they are computed with.
- `UnitSteps.barings`: a run by the rule computes on the physical values of its arguments, but for their factors.
-/
import UnitAlgebra.Proofs.Quantity.ArrayCalls
import UnitAlgebra.Proofs.Quantity.Physical
import UnitAlgebra.Proofs.Tensor.Scaled

namespace UnitAlgebra

variable [Numeric ℝ]

/-! ## Bare arguments for physical values -/

namespace Operand

/-- the unit in which an operand is stored -/
def storedUnit : Operand ℝ → StorageUnit
  | quantity q => ⟨q.dimension, q.scale⟩
  | _ => .one

theorem unit_participant (m : Store ℝ) (x : Operand ℝ) : (x.participant m).unit = x.storedUnit := by cases x <;> rfl

omit [Numeric ℝ] in
theorem scale_storedUnit (x : Operand ℝ) : x.storedUnit.scale = x.storedScale := by cases x <;> rfl

/-- a bare operand that shows the physical values of an operand -/
structure ShowsPhysical (m : Store ℝ) (x : Operand ℝ) (m' : Store ℝ) (y : Operand ℝ) : Prop where
  measure : x.IsMeasure m
  numeric : y.IsNumeric m'
  tensor : y.tensor m' = .ofNumbers (x.physical m)

/-- all that is read of the operand is there, whatever comes to memory -/
def IsSettled (m : Store ℝ) (x : Operand ℝ) : Prop :=
  ∀ m', m.Grows m' → x.toTensor m' .asIs = x.toTensor m .asIs ∧ x.toNumber m' = x.toNumber m

/-- numbers in memory that are those of another operand times a factor -/
structure ScaledBy (w : ℝ) (m : Store ℝ) (v : Operand ℝ) (m' : Store ℝ) (y : Operand ℝ) : Prop where
  value : v.IsNumeric m
  numeric : y.IsNumeric m'
  tensor : Tensor.Scaled Cell.Equals w (v.tensor m) (y.tensor m')

end Operand

namespace Session

/-- an argument, by the role of its parameter, and a bare argument for its physical values -/
inductive BareFor (c : Context ℝ) (m m' : Store ℝ) : Role → Operand ℝ → Operand ℝ → Prop where
  | single {r : Role} {x y : Operand ℝ} (hr : r = .quantity ∨ r = .perhaps) (h : x.ShowsPhysical m m' y) :
      BareFor c m m' r x y
  | absent : BareFor c m m' .perhaps .absent .absent
  | several {x : Operand ℝ} {xs ys : List (Operand ℝ)} {m₁ : Store ℝ} (hx : listed x c m = .ok (xs, m₁))
      (h : List.Forall₂ (fun x y => x.ShowsPhysical m₁ m' y) xs ys) : BareFor c m m' .quantities x (.list ys)
  | bare {x : Operand ℝ} (h : x.IsSettled m) : BareFor c m m' .bare x x

/-- arguments, and bare arguments for their physical values in memory that has grown -/
structure StandFor (c : Context ℝ) (m : Store ℝ) (as : Arguments ℝ) (m' : Store ℝ) (bs : Arguments ℝ) : Prop where
  grows : m.Grows m'
  each : List.Forall₂ (fun e b => b.1 = e.1 ∧ BareFor c m m' e.1.role e.2 b.2) as bs

/-- an argument as it is taken by its rule -/
inductive TakenAs (c : Context ℝ) (m m' : Store ℝ) : Role → Operand ℝ → Argument ℝ → Prop where
  | single {r : Role} {x : Operand ℝ} (hr : r = .quantity ∨ r = .perhaps) (hx : x ≠ .absent) :
      TakenAs c m m' r x (.single (x.participant m))
  | absent : TakenAs c m m' .perhaps .absent (.bare .absent)
  | several {x : Operand ℝ} {xs : List (Operand ℝ)} {m₁ : Store ℝ} (hx : listed x c m = .ok (xs, m₁))
      (hm : m₁.Grows m') : TakenAs c m m' .quantities x (.several (xs.map (Operand.participant m₁)))
  | bare {x : Operand ℝ} (hx : x.isQuantity = false) : TakenAs c m m' .bare x (.bare x)

/-- the factor that belongs to an operand where a function computes in a unit -/
noncomputable def factorFor (f : ArrayFunction) (u : StorageUnit) (x : Operand ℝ) : ℝ :=
  if f.aligns then u.scale.real else x.storedScale.real

/-- an argument, by the role of its parameter, as it is computed with -/
inductive Bared (c : Context ℝ) (m m' : Store ℝ) (w : Operand ℝ → ℝ) : Role → Operand ℝ → Operand ℝ → Prop where
  | single {r : Role} {x v : Operand ℝ} (hr : r = .quantity ∨ r = .perhaps) (hx : x ≠ .absent)
      (h : Aligned m x (w x) v m') : Bared c m m' w r x v
  | absent : Bared c m m' w .perhaps .absent .absent
  | several {x : Operand ℝ} {xs vs : List (Operand ℝ)} {m₁ : Store ℝ} (hx : listed x c m = .ok (xs, m₁))
      (h : List.Forall₂ (fun x v => Aligned m₁ x (w x) v m') xs vs) : Bared c m m' w .quantities x (.list vs)
  | bare {x : Operand ℝ} (hx : x.isQuantity = false) : Bared c m m' w .bare x x

variable {c : Context ℝ} {m m₁ m₂ m₃ m' : Store ℝ} {f : ArrayFunction} {r : Role} {x y v : Operand ℝ}

/-! ## Names of arguments -/

omit [Numeric ℝ] in
theorem find?_of_names {α : Type} {as : List (Parameter × α)} (hnames : (as.map fun e => e.1.name).Nodup)
    {e : Parameter × α} (he : e ∈ as) : as.find? (·.1.name = e.1.name) = some e := by
  induction as with
  | nil => cases he
  | cons a as ih =>
    rw [List.map_cons, List.nodup_cons] at hnames
    rcases List.mem_cons.1 he with rfl | he
    · exact List.find?_cons_of_pos (by simp)
    · have hother : a.1.name ≠ e.1.name := fun h => hnames.1 (h ▸ List.mem_map_of_mem he)
      rw [List.find?_cons_of_neg (by simpa using hother)]
      exact ih hnames.2 he

omit [Numeric ℝ] in
theorem participants_of_names {ws : List (Parameter × Argument ℝ)} (hnames : (ws.map fun w => w.1.name).Nodup)
    {w : Parameter × Argument ℝ} (hw : w ∈ ws) : participants ws w.1.name = w.2.participants := by
  unfold participants
  rw [find?_of_names hnames hw, Option.map_some]
  cases w.2 <;> rfl

omit [Numeric ℝ] in
theorem nodup_names {as : Arguments ℝ} (h : Arguments.AreComplete f.parameters as) :
    (as.map fun e => e.1.name).Nodup := by
  have hparameters : (f.parameters.map Parameter.name).Nodup := by cases f <;> decide
  have hsublist := (h.ordered.map Parameter.name).nodup hparameters
  rwa [List.map_map] at hsublist

omit [Numeric ℝ] in
theorem map_parameters {α β γ : Type} {as : List (Parameter × α)} {ws : List (Parameter × β)}
    {R : Parameter × α → Parameter × β → Prop} (h : List.Forall₂ (fun e w => w.1 = e.1 ∧ R e w) as ws)
    (g : Parameter → γ) : ws.map (fun w => g w.1) = as.map fun e => g e.1 := by
  induction h with
  | nil => rfl
  | cons hew _ ih => rw [List.map_cons, List.map_cons, hew.1, ih]

/-! ## Taking -/

theorem participant_of_grows (hx : x.IsMeasure m) (hm : m.Grows m₁) : x.participant m₁ = x.participant m := by
  have hzero : (bareValue x).isZero m₁ = (bareValue x).isZero m := by
    have hlive := hx.live
    revert hlive
    cases bareValue x <;> intro hlive <;> try rfl
    exact congrArg Tensor.isZero (hm.read hlive)
  cases x <;> first | rfl | exact congrArg (Participant.mk _) hzero

theorem TakenAs.grows {a : Argument ℝ} (h : TakenAs c m m₁ r x a) (hm : m₁.Grows m₂) : TakenAs c m m₂ r x a := by
  cases h with
  | single hr hx => exact .single hr hx
  | absent => exact .absent
  | several hx h => exact .several hx (h.trans hm)
  | bare hx => exact .bare hx

theorem Bared.grows {w : Operand ℝ → ℝ} (h : Bared c m m₁ w r x v) (hm : m₁.Grows m₂) : Bared c m m₂ w r x v := by
  cases h with
  | single hr hx h => exact .single hr hx (h.grows hm)
  | absent => exact .absent
  | several hx h => exact .several hx (h.imp fun _ _ ha => ha.grows hm)
  | bare hx => exact .bare hx

/-- what becomes of an argument for which there is a bare one -/
theorem takenAs_of_argumentOf {p : Parameter} {a : Argument ℝ} (hstands : BareFor c m m' p.role x y) (hm : m.Grows m₁)
    (hlist : p.role = .quantities → m₁ = m) (h : argumentOf f p x c m₁ = .ok (a, m₂)) :
    TakenAs c m m₂ p.role x a := by
  obtain ⟨name, role, required⟩ := p
  cases hstands with
  | single hr hxy =>
    have hsingle : Arguments.taken m₁ ⟨name, role, required⟩ x = .single (x.participant m) := by
      rw [← participant_of_grows hxy.measure hm]
      have hmeasure := hxy.measure
      rcases hr with rfl | rfl
      · rfl
      · cases x <;> first | rfl | exact hmeasure.elim
    rw [argumentOf_taken (by rcases hr with rfl | rfl <;> exact nofun) (by rcases hr with rfl | rfl <;> exact nofun),
      hsingle] at h
    cases h
    refine .single hr fun habsent => ?_
    subst habsent
    exact hxy.measure
  | absent =>
    cases h
    exact .absent
  | several hx _ =>
    obtain rfl := hlist rfl
    have hrun : argumentOf f ⟨name, .quantities, required⟩ x =
        (do return .several (← (← listed x).mapM Participant.ofOperand) : Session ℝ (Argument ℝ)) := by
      cases x <;> rfl
    rw [hrun, bind_of_ok hx, bind_of_ok (mapM_ofOperand _ _ _)] at h
    cases h
    exact .several hx (.refl _)
  | bare _ => cases x <;> cases h <;> exact .bare rfl

theorem takenAs_of_mapM {e : Parameter × Operand ℝ} {rest bs : Arguments ℝ}
    (hrest : ∀ e ∈ rest, e.1.role ≠ .quantities) (hstands : StandFor c m (e :: rest) m' bs)
    {ws : List (Parameter × Argument ℝ)} (h : (e :: rest).mapM (taking f) c m = .ok (ws, m₁)) :
    List.Forall₂ (fun e w => w.1 = e.1 ∧ TakenAs c m m₁ e.1.role e.2 w.2) (e :: rest) ws := by
  have hall := hstands.each
  rw [List.mapM_cons] at h
  obtain ⟨w, m₂, hw, h⟩ := bind_eq_ok_iff.1 h
  obtain ⟨ws, m₃, hws, h⟩ := bind_eq_ok_iff.1 h
  cases h
  cases hall with
  | cons hfirst hothers =>
    obtain ⟨hparam, hargument⟩ := taking_eq hw
    have hfirst := takenAs_of_argumentOf hfirst.2 (.refl m) (fun _ => rfl) hargument
    refine .cons ⟨hparam, hfirst.grows ((Adds.mapM (adds_taking f) rest).grows hws)⟩ ?_
    have hgrows : m.Grows m₂ := (adds_taking f e).grows hw
    have hdone := forall₂_and (forall₂_of_mapM (adds_taking f) hws) hothers
    refine ((List.forall₂_and_left _ _).2 ⟨hrest, hdone⟩).imp ?_
    rintro e w ⟨hrole, ⟨m₄, m₅, hm, htaken, hm'⟩, b, -, hb⟩
    obtain ⟨hparam, hargument⟩ := taking_eq htaken
    have htakes := takenAs_of_argumentOf hb (hgrows.trans hm) (fun h => absurd h hrole) hargument
    exact ⟨hparam, htakes.grows hm'⟩

/-! ## Baring -/

section Baring

variable [Numeric.Exact] {u : StorageUnit}

/-- **What a function is computed on**, in the scale of the result or in its own. -/
theorem aligned_of_valueFor (hx : x.IsMeasure m) (hm : m.Grows m₁)
    (hd : f.aligns = true → (x.participant m).isBareZero = false → (x.participant m).dimension = u.dimension)
    (h : valueFor f (some u) (x.participant m) c m₁ = .ok (v, m₂)) :
    m₁.Grows m₂ ∧ Aligned m x (factorFor f u x) v m₂ := by
  unfold valueFor at h
  unfold factorFor
  cases haligns : f.aligns with
  | true =>
    rw [haligns] at h
    exact aligned_of_alignedValue hx hm (hd haligns) h
  | false =>
    rw [haligns] at h
    obtain ⟨rfl, rfl⟩ := pure_eq_ok_iff.1 h
    rw [x.value_participant]
    exact ⟨.refl _, .of_stored hx hm rfl⟩

theorem bared_of_bareArgument {p : Parameter} {a : Argument ℝ} (hstands : BareFor c m m' p.role x y)
    (htaken : TakenAs c m m₁ p.role x a) (hout : p.name = "out" → x = .absent) (hm : m.Grows m₁)
    (hd : ∀ q ∈ a.participants, f.aligns = true → q.isBareZero = false → q.dimension = u.dimension)
    (h : bareArgument f (some u) p.name a c m₁ = .ok (v, m₂)) (hm₂ : m₂.Grows m₃) :
    Bared c m m₃ (factorFor f u) p.role x v := by
  obtain ⟨name, role, required⟩ := p
  cases htaken with
  | single hr hx =>
    have hmeasure : x.IsMeasure m := by
      cases hstands with
      | single _ hxy => exact hxy.measure
      | absent => exact absurd rfl hx
      | several => rcases hr with hr | hr <;> cases hr
      | bare => rcases hr with hr | hr <;> cases hr
    have hname : name ≠ "out" := by
      intro hname
      rw [hout hname] at hmeasure
      exact hmeasure
    rw [bareArgument, if_neg hname] at h
    obtain ⟨-, haligned⟩ := aligned_of_valueFor hmeasure hm (hd _ List.mem_cons_self) h
    exact .single hr hx (haligned.grows hm₂)
  | absent =>
    cases h
    exact .absent
  | @several _ xs m₀ hx hm₀ =>
    cases hstands with
    | single hr => rcases hr with hr | hr <;> cases hr
    | several hx' hall =>
      cases hx.symm.trans hx'
      obtain ⟨vs, _, hvs, h⟩ := bind_eq_ok_iff.1 h
      obtain ⟨rfl, rfl⟩ := pure_eq_ok_iff.1 h
      rw [List.mapM_map] at hvs
      obtain ⟨-, haligned⟩ := mapM_grows (R := fun x v m' => Aligned m₀ x (factorFor f u x) v m')
        (fun hR hm => hR.grows hm) (fun x hx v m₄ m₅ hm₄ hv => by
          obtain ⟨y, -, hxy⟩ := exists_partner hall hx
          exact aligned_of_valueFor hxy.measure hm₄ (hd _ (List.mem_map_of_mem hx)) hv) hm₀ hvs
      exact .several hx (haligned.imp fun _ _ ha => ha.grows hm₂)
  | bare hx =>
    cases h
    exact .bare hx

/-! ## Units of results -/

/-- the parameters whose operands share the unit of the result -/
def sharing : ArrayFunction → List String
  | .sum | .max | .amax | .min | .amin => ["a", "initial"]
  | .concatenate | .stack => ["arrays"]
  | .isclose | .allclose => ["a", "b", "atol"]
  | _ => []

omit [Numeric.Exact] in
/-- what shares the unit of the result has its dimension, unless it is a bare zero -/
theorem dimension_of_unitOfResult {ws : List (Parameter × Argument ℝ)}
    (hown : ∀ p ∈ participants ws "a", ∀ q ∈ participants ws "a", p = q)
    (h : unitOfResult f ws c m = .ok (some u, m')) {name : String} (hname : name ∈ sharing f) :
    ∀ p ∈ participants ws name, p.isBareZero = false → p.dimension = u.dimension := by
  have hcommon {wording : Wording} {ps : List (Participant ℝ)}
      (h : (do return some (← commonUnit (← policy) wording ps) : Session ℝ _) c m = .ok (some u, m')) :
      ∀ p ∈ ps, p.isBareZero = false → p.dimension = u.dimension := by
    obtain ⟨policy, m₁, hpolicy, h⟩ := bind_eq_ok_iff.1 h
    cases hpolicy
    obtain ⟨w, m₂, hw, h⟩ := bind_eq_ok_iff.1 h
    obtain ⟨hcommon, rfl⟩ := lift_eq_ok_iff.1 hw
    cases h
    exact fun p hp => dimension_eq_of_commonUnit hcommon hp
  have halone (h : Except.ok ((participants ws "a").head?.map Participant.unit, m) =
      (Except.ok (some u, m') : Outcome _)) : ∀ p ∈ participants ws "a", p.dimension = u.dimension := by
    obtain ⟨hhead, -⟩ := Prod.mk.inj (Except.ok.inj h)
    intro p hp
    obtain ⟨q, hq, rfl⟩ := Option.map_eq_some_iff.1 hhead
    rw [hown p hp q (List.mem_of_head? hq)]
    rfl
  unfold unitOfResult at h
  cases f with
  | sum | max | amax | min | amin =>
    rcases List.mem_pair.1 hname with rfl | rfl
    all_goals
      cases hinitial : participants ws "initial" with
      | nil =>
        simp only [hinitial] at h
        first
        | exact fun p hp _ => halone h p hp
        | exact fun p hp => absurd hp List.not_mem_nil
      | cons p ps =>
        simp only [hinitial] at h
        intro q hq
        exact hcommon h q (by simp_all)
  | concatenate | stack =>
    obtain rfl := List.mem_singleton.1 hname
    exact hcommon h
  | isclose | allclose =>
    intro p hp
    refine hcommon h p ?_
    simp only [sharing, List.mem_cons, List.not_mem_nil, or_false] at hname
    rcases hname with rfl | rfl | rfl <;> simp [hp]
  | _ => cases hname

omit [Numeric ℝ] [Numeric.Exact] in
theorem role_of_aligns (hf : f.aligns = true) {p : Parameter} (hp : p ∈ f.parameters) :
    p.role = .bare ∨ p.name = "out" ∨ p.name ∈ sharing f := by
  have hall : ∀ p ∈ f.parameters, p.role = .bare ∨ p.name = "out" ∨ p.name ∈ sharing f := by
    cases f <;> first | decide | cases hf
  exact hall p hp

omit [Numeric.Exact] in
theorem eq_of_takenAs {as : Arguments ℝ} {ws : List (Parameter × Argument ℝ)}
    (hnames : (ws.map fun w => w.1.name).Nodup) (hparams : ∀ e ∈ as, e.1 ∈ f.parameters)
    (h : List.Forall₂ (fun e w => w.1 = e.1 ∧ TakenAs c m m₁ e.1.role e.2 w.2) as ws) :
    ∀ p ∈ participants ws "a", ∀ q ∈ participants ws "a", p = q := by
  have hsingle : ∀ p ∈ participants ws "a", ∃ w, ws.find? (·.1.name = "a") = some w ∧ w.2.participants = [p] := by
    intro p hp
    obtain ⟨w, hw, hname, hmem⟩ := mem_participants hp
    obtain ⟨e, he, hparam, htakes⟩ := exists_partner h.flip hw
    have hrole : e.1.role = .quantity := (role_of_mem (hparams e he)).2 (hparam ▸ hname)
    refine ⟨w, hname ▸ find?_of_names hnames hw, ?_⟩
    rw [hrole] at htakes
    generalize w.2 = a at hmem htakes ⊢
    cases htakes with
    | single => rw [List.mem_singleton.1 hmem]; rfl
  intro p hp q hq
  obtain ⟨w, hw, hown⟩ := hsingle p hp
  obtain ⟨w', hw', hown'⟩ := hsingle q hq
  cases hw.symm.trans hw'
  exact List.head_eq_of_cons_eq (hown.symm.trans hown')

/-! ## Runs -/

/-- a run by the rule that writes nowhere, step by step -/
structure UnitSteps (f : ArrayFunction) (as : Arguments ℝ) (c : Context ℝ) (m m' : Store ℝ) (p : Prepared ℝ (Operand ℝ))
    (wrapped : List (Parameter × Argument ℝ)) (u : StorageUnit) (bare : Arguments ℝ) (m₁ m₂ m₃ : Store ℝ)
    (b : Prepared ℝ (Operand ℝ)) : Prop where
  taken : as.mapM (taking f) c m = .ok (wrapped, m₁)
  unit : unitOfResult f wrapped c m₁ = .ok (some u, m₂)
  bared : wrapped.mapM (baring f (some u)) c m₂ = .ok (bare, m₃)
  prepared : prepareArrayBare f none bare c m₃ = .ok (b, m')
  result : p = if f.givesQuantity then b.map (inUnitOf u) else b

variable {as bs bare : Arguments ℝ} {wrapped : List (Parameter × Argument ℝ)} {p b : Prepared ℝ (Operand ℝ)}
  {m₄ : Store ℝ}

omit [Numeric.Exact] in
theorem prepareArrayFunction_eq {args : List (Operand ℝ)} {named : List (String × Operand ℝ)}
    (hbind : Arguments.bind f.parameters args named = .ok as) (hout : as.get "out" = .absent) :
    prepareArrayFunction f args named = prepareArray f none as := by
  have hnone : outputs as = [] := by rw [outputs, hout]; rfl
  unfold prepareArrayFunction
  rw [hbind]
  change (kindInto (outputs as) >>= fun k => prepareArray f k as) = _
  rw [hnone]
  rfl

omit [Numeric.Exact] in
/-- a run by the rule, where the result has a unit -/
theorem exists_unitSteps (h : prepareArrayRule f none as c m = .ok (p, m₄))
    (hsome : ∀ {wrapped u m₁ m₂}, as.mapM (taking f) c m = .ok (wrapped, m₁) →
      unitOfResult f wrapped c m₁ = .ok (u, m₂) → u.isSome = true) :
    ∃ wrapped u bare m₁ m₂ m₃ b, UnitSteps f as c m m₄ p wrapped u bare m₁ m₂ m₃ b := by
  rw [prepareArrayRule_eq] at h
  obtain ⟨wrapped, m₁, htaken, h⟩ := bind_eq_ok_iff.1 h
  obtain ⟨u, m₂, hunit, h⟩ := bind_eq_ok_iff.1 h
  obtain ⟨bare, m₃, hbared, h⟩ := bind_eq_ok_iff.1 h
  obtain ⟨b, m₅, hb, h⟩ := bind_eq_ok_iff.1 h
  obtain ⟨u, rfl⟩ := Option.isSome_iff_exists.1 (hsome htaken hunit)
  have hresult : m₅ = m₄ ∧ p = if f.givesQuantity then b.map (inUnitOf u) else b := by
    cases hgives : f.givesQuantity with
    | true =>
      rw [hgives] at h
      obtain ⟨rfl, rfl⟩ := pure_eq_ok_iff.1 h
      exact ⟨rfl, rfl⟩
    | false =>
      rw [hgives] at h
      obtain ⟨rfl, rfl⟩ := pure_eq_ok_iff.1 h
      exact ⟨rfl, rfl⟩
  obtain ⟨rfl, rfl⟩ := hresult
  exact ⟨wrapped, u, bare, m₁, m₂, m₃, b, htaken, hunit, hbared, hb, rfl⟩

omit [Numeric.Exact] in
theorem takenAs_of_complete (hcomplete : Arguments.AreComplete f.parameters as) (hstands : StandFor c m as m' bs)
    (h : as.mapM (taking f) c m = .ok (wrapped, m₁)) : m.Grows m₁ ∧
      List.Forall₂ (fun e w => w.1 = e.1 ∧ TakenAs c m m₁ e.1.role e.2 w.2) as wrapped := by
  obtain ⟨first, ps, hparameters, hrequired, hfirst, -, -, hothers⟩ := parameters_eq f
  rw [hparameters] at hcomplete
  obtain ⟨x, rest, rfl, hmem⟩ := hcomplete.first hrequired hfirst
  exact ⟨(Adds.mapM (adds_taking f) _).grows h, takenAs_of_mapM (fun e he => (hothers e.1 (hmem e he)).1) hstands h⟩

omit [Numeric.Exact] in
theorem exists_taken (hcomplete : Arguments.AreComplete f.parameters as)
    (htaken : List.Forall₂ (fun e w => w.1 = e.1 ∧ TakenAs c m m₁ e.1.role e.2 w.2) as wrapped) {name : String} {r : Role}
    (hp : .needed name r ∈ f.parameters) :
    ∃ a, participants wrapped name = a.participants ∧ TakenAs c m m₁ r (as.get name) a := by
  obtain ⟨⟨p, x⟩, he, rfl⟩ := List.mem_map.1 (hcomplete.given _ hp rfl)
  obtain ⟨w, hw, hparam, htakes⟩ := exists_partner htaken he
  have hwnames : (wrapped.map fun w => w.1.name).Nodup := by
    rw [map_parameters htaken Parameter.name]
    exact nodup_names hcomplete
  have hget : as.get name = x := by
    have hfind : as.find? (·.1.name = name) = some (.needed name r, x) := find?_of_names (nodup_names hcomplete) he
    rw [Arguments.get, Arguments.get?, hfind]
    rfl
  have hparticipants := participants_of_names hwnames hw
  rw [hparam] at hparticipants
  exact ⟨w.2, hparticipants, hget ▸ htakes⟩

omit [Numeric.Exact] in
theorem participants_quantity (hcomplete : Arguments.AreComplete f.parameters as)
    (htaken : List.Forall₂ (fun e w => w.1 = e.1 ∧ TakenAs c m m₁ e.1.role e.2 w.2) as wrapped) {name : String}
    (hp : .needed name .quantity ∈ f.parameters) : participants wrapped name = [(as.get name).participant m] := by
  obtain ⟨a, ha, htakes⟩ := exists_taken hcomplete htaken hp
  rw [ha]
  generalize as.get name = x at htakes
  cases htakes
  rfl

/-- **A run by the rule computes on arguments in their units**, each by the factor that belongs to it. -/
theorem UnitSteps.barings (h : UnitSteps f as c m m₄ p wrapped u bare m₁ m₂ m₃ b)
    (hcomplete : Arguments.AreComplete f.parameters as) (hout : as.get "out" = .absent)
    (hstands : StandFor c m as m' bs) : m.Grows m₃ ∧
      List.Forall₂ (fun e o => o.1 = e.1 ∧ Bared c m m₃ (factorFor f u) e.1.role e.2 o.2) as bare := by
  obtain ⟨hm₁, htaken⟩ := takenAs_of_complete hcomplete hstands h.taken
  have hnames := nodup_names hcomplete
  have hm₂ := (adds_unitOfResult f wrapped).grows h.unit
  have hparams : ∀ e ∈ as, e.1 ∈ f.parameters := fun e he => hcomplete.ordered.subset (List.mem_map_of_mem he)
  have hwnames : (wrapped.map fun w => w.1.name).Nodup := by rwa [map_parameters htaken Parameter.name]
  refine ⟨(hm₁.trans hm₂).trans ((Adds.mapM (adds_baring f _) wrapped).grows h.bared), ?_⟩
  have hsteps := forall₂_trans (forall₂_and htaken hstands.each) (forall₂_of_mapM (adds_baring f _) h.bared)
  have hself : ∀ e ∈ as, e ∈ as := fun _ he => he
  refine ((List.forall₂_and_left _ _).2 ⟨hself, hsteps⟩).imp ?_
  rintro e o ⟨he, w, hw, ⟨⟨hparam, htakes⟩, b, -, hb⟩, m₅, m₆, hm₅, hbared, hm₆⟩
  obtain ⟨hparam', hbare⟩ := baring_eq hbared
  refine ⟨hparam'.trans hparam, ?_⟩
  rw [hparam] at hbare
  have hnone : e.1.name = "out" → e.2 = .absent := by
    intro hname
    rwa [Arguments.get, Arguments.get?, ← hname, find?_of_names hnames he] at hout
  refine bared_of_bareArgument hb (htakes.grows (hm₂.trans hm₅)) hnone ((hm₁.trans hm₂).trans hm₅)
    (fun q hq haligns => ?_) hbare hm₆
  rcases role_of_aligns haligns (hparams e he) with hrole | hname | hname
  · rw [hrole] at htakes
    generalize w.2 = a at hq htakes
    cases htakes with
    | single hr => rcases hr with hr | hr <;> cases hr
    | bare => cases hq
  · have hrole := (role_of_mem (hparams e he)).1 hname
    rw [hrole, hnone hname] at htakes
    generalize w.2 = a at hq htakes
    cases htakes with
    | single hr habsent => exact absurd rfl habsent
    | absent => cases hq
  · refine dimension_of_unitOfResult (eq_of_takenAs hwnames hparams htaken) h.unit hname q ?_
    rw [← hparam, participants_of_names hwnames hw]
    exact hq

end Baring

end Session

end UnitAlgebra

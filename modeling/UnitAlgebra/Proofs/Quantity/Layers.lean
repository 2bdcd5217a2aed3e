/-
Two ways to the same results. Values can be combined together with their units, or made into quantities first and then
met by an operator; the second way goes through the unit rules of elementwise functions. On numbers the two agree: in
the value, in the unit, and in what they refuse, except that each names its own operation.

Results:
- `combine_number`, `operate_number`: both are one and the same function of the stored numbers and their units.
- `onStored_operation`: the operation that is named in a refusal has no other part in it.
- `combine_agrees`, `inUnit_agrees`, `erase_agrees`: operators, conversions and erasures, one by one.
- `layers_agree`: the two ways agree.
-/
import UnitAlgebra.Proofs.Conversion.Numbers
import UnitAlgebra.Proofs.Expression.Composition
import UnitAlgebra.Proofs.Quantity.Physical
import UnitAlgebra.Proofs.Quantity.Prepared
import UnitAlgebra.Quantity.Operator

namespace UnitAlgebra

/-! ## Combinations of stored numbers -/

namespace Combination

def text : Combination → String
  | add => "+"
  | sub => "-"
  | mul => "*"
  | div => "/"

/-- the operator on quantities -/
def operator : Combination → Operator
  | add => .add
  | sub => .sub
  | mul => .mul
  | div => .div

theorem ofText?_text (k : Combination) : ofText? k.text = some k := by cases k <;> rfl

variable {κ : Type} [Numeric κ]

def compute (k : Combination) (x y : κ) : κ :=
  match k with
  | add => Numeric.add x y
  | sub => Numeric.sub x y
  | mul => Numeric.mul x y
  | div => Numeric.div x y

/-- two numbers of one dimension in the scale that the policy chooses -/
def summed (k : Combination) (p : ScalePolicy) (operation : Option Operation) (x y : κ) (u v : StorageUnit) :
    Outcome (κ × StorageUnit) := do
  if u.dimension = v.dimension then
    let scale ← p.resolve u.scale v.scale operation
    let x ← Step.convert x (u.scale.steps scale)
    let y ← Step.convert y (v.scale.steps scale)
    return (k.compute x y, ⟨u.dimension, scale⟩)
  else .error (.unit (.dimensionMismatch u.dimension v.dimension operation))

/-- two stored numbers combined; units are refused in the name of the operation -/
def onStored (k : Combination) (p : ScalePolicy) (operation : Option Operation) (x y : κ) (u v : StorageUnit) :
    Outcome (κ × StorageUnit) :=
  match k with
  | add | sub => k.summed p operation x y u v
  | mul => do return (k.compute x y, ← u.mul v)
  | div => do return (k.compute x y, ← u.div v)

end Combination

/-- the storage unit of a unit -/
def UnitMeaning.storageUnit {κ : Type} (u : UnitMeaning κ) : StorageUnit := ⟨u.dimension, u.scale⟩

namespace Session

variable {κ : Type} [Numeric κ] {α β γ δ : Type} {c : Context κ} {m : Store κ}

/-! ## Runs that leave memory alone -/

/-- the run gives what the outcome tells, and leaves memory alone -/
def Tells (c : Context κ) (m : Store κ) (act : Session κ α) (o : Outcome β) (φ : β → α) : Prop :=
  act c m = o.map fun x => (φ x, m)

omit [Numeric κ] in
theorem tells_lift (o : Outcome β) (φ : β → α) : Tells c m (liftM (o.map φ) : Session κ α) o φ := by
  cases o <;> rfl

omit [Numeric κ] in
theorem Tells.bind {act : Session κ α} {o : Outcome β} {φ : β → α} {f : α → Session κ γ} {g : β → Outcome δ} {ψ : δ → γ}
    (h : Tells c m act o φ) (hf : ∀ x, o = .ok x → Tells c m (f (φ x)) (g x) ψ) :
    Tells c m (act >>= f) (o >>= g) ψ := by
  change (act c m >>= fun r => f r.1 c r.2) = _
  rw [h]
  cases o with
  | error fault => rfl
  | ok x => exact hf x rfl

omit [Numeric κ] in
theorem Tells.bind_ok {act : Session κ α} {a : α} {f : α → Session κ γ} {o : Outcome δ} {ψ : δ → γ}
    (h : act c m = .ok (a, m)) (hf : Tells c m (f a) o ψ) : Tells c m (act >>= f) o ψ := (bind_of_ok h).trans hf

/-! ## Plain numbers -/

theorem tells_convert (x : κ) (steps : List (Step κ)) :
    Tells c m (convert (.number x) steps) (Step.convert x steps) .number := convert_number c m x steps

theorem convert_toStorage_number (x : κ) (u : UnitMeaning κ) :
    convert (.number x) u.toStorage c m = .ok (.number (u.intoStorage x), m) := by
  rw [convert_number, UnitMeaning.convert_intoStorage]
  rfl

theorem arithmetic_number (k : Combination) (x y : κ) (h : k = .div → Numeric.isZero y = false) :
    arithmetic k (.number x) (.number y) c m = .ok (.number (k.compute x y), m) := by
  cases k with
  | div =>
    change (liftM (if Numeric.isZero y then .error .divisionByZero else .ok (.number (Numeric.div x y)) :
      Outcome (Operand κ)) : Session κ _) c m = _
    rw [h rfl]
    rfl
  | _ => rfl

/-! ## Values together with their units -/

/-- the unit of what a combination gives -/
def unitFor (k : Combination) (u : StorageUnit) : UnitMeaning κ :=
  match k with
  | .add | .sub => .stored u.dimension u.scale
  | .mul => ⟨u.dimension, u.scale, Numeric.mul Numeric.one Numeric.one, Numeric.zero, none⟩
  | .div => ⟨u.dimension, u.scale, Numeric.div Numeric.one Numeric.one, Numeric.zero, none⟩

theorem tells_summed {k : Combination} (hk : k ≠ .div) (p : ScalePolicy) (operation : Operation) (x y : κ)
    (u v : UnitMeaning κ) :
    Tells c m (do
      let (forLeft, forRight, unit) ← Combination.alignment p operation u v
      let a ← convert (.number x) forLeft
      let b ← convert (.number y) forRight
      return (← arithmetic k a b, unit)) (k.summed p (some operation) x y u.storageUnit v.storageUnit)
      fun r => (.number r.1, .stored r.2.dimension r.2.scale) := by
  unfold Combination.alignment Combination.summed
  simp only [UnitMeaning.storageUnit]
  by_cases hd : u.dimension = v.dimension
  · simp only [hd, if_true]
    refine (tells_lift _ _).bind fun scale _ => (tells_convert x _).bind fun x _ =>
      (tells_convert y _).bind fun y _ => ?_
    exact .bind_ok (arithmetic_number k x y fun h => absurd h hk) rfl
  · simp only [hd, if_false]
    rfl

theorem composed_mul (u v : UnitMeaning κ) :
    Combination.mul.composed u v = (u.storageUnit.mul v.storageUnit).map (unitFor .mul) := by
  change u.storage.mul v.storage = (StorageUnit.mul ⟨u.dimension, u.scale⟩ ⟨v.dimension, v.scale⟩).map _
  unfold UnitMeaning.mul StorageUnit.mul
  change (u.dimension.mul v.dimension >>= fun d => u.scale.mul v.scale >>= fun s => _) = _
  cases u.dimension.mul v.dimension <;> cases u.scale.mul v.scale <;> rfl

theorem composed_div (u v : UnitMeaning κ) (hone : Numeric.isZero (Numeric.one : κ) = false) :
    Combination.div.composed u v = (u.storageUnit.div v.storageUnit).map (unitFor .div) := by
  change u.storage.div v.storage = (StorageUnit.div ⟨u.dimension, u.scale⟩ ⟨v.dimension, v.scale⟩).map _
  unfold UnitMeaning.div StorageUnit.div
  simp only [UnitMeaning.storage, UnitMeaning.stored, hone]
  cases u.dimension.div v.dimension <;> cases u.scale.div v.scale <;> rfl

/-- **Values together with their units.** Their stored numbers are combined. -/
theorem combine_number (k : Combination) (p : ScalePolicy) (a b : κ) (u v : UnitMeaning κ)
    (hone : Numeric.isZero (Numeric.one : κ) = false) (hdiv : k = .div → Numeric.isZero (v.intoStorage b) = false) :
    Tells c m (combine (.number a, u) (.number b, v) k.text (.policy p))
      (k.onStored p k.operation? (u.intoStorage a) (v.intoStorage b) u.storageUnit v.storageUnit)
      fun r => (.number r.1, unitFor k r.2) := by
  refine .bind_ok (convert_toStorage_number a u) (.bind_ok (convert_toStorage_number b v) ?_)
  rw [Combination.ofText?_text]
  have hsum (operation : Operation) (hk : k ≠ .div) : Tells c m (do
      if u.dimension ≠ v.dimension then throw (.mismatch u.dimension v.dimension operation)
      let (forLeft, forRight, unit) ← Combination.alignment (← policyFor (.policy p)) operation u v
      let a ← convert (.number (u.intoStorage a)) forLeft
      let b ← convert (.number (v.intoStorage b)) forRight
      return (← arithmetic k a b, unit))
      (k.summed p (some operation) (u.intoStorage a) (v.intoStorage b) u.storageUnit v.storageUnit)
      fun r => (.number r.1, .stored r.2.dimension r.2.scale) := by
    split
    · next hd =>
      have hrefused : k.summed p (some operation) (u.intoStorage a) (v.intoStorage b) u.storageUnit v.storageUnit =
        .error (.mismatch u.dimension v.dimension operation) := if_neg hd
      rw [hrefused]
      rfl
    · exact .bind_ok rfl (tells_summed hk p operation _ _ u v)
  cases k with
  | add => exact hsum .add (by decide)
  | sub => exact hsum .subtract (by decide)
  | mul =>
    refine .bind_ok (arithmetic_number .mul _ _ hdiv) ?_
    rw [composed_mul]
    exact (tells_lift _ _).bind fun w _ => rfl
  | div =>
    refine .bind_ok (arithmetic_number .div _ _ hdiv) ?_
    rw [composed_div _ _ hone]
    exact (tells_lift _ _).bind fun w _ => rfl

/-! ## Quantities -/

theorem of_number (x : κ) (u : UnitMeaning κ) :
    Quantity.of (.number x) u c m = .ok (⟨.number (u.intoStorage x), u.dimension, u.scale⟩, m) := by
  have hmade : Tells c m (Quantity.of (.number x) u) (.ok ()) fun _ =>
      ⟨.number (u.intoStorage x), u.dimension, u.scale⟩ :=
    .bind_ok rfl (.bind_ok (convert_toStorage_number x u) rfl)
  exact hmade

/-- the operation that an operator names when it refuses the unit on its right -/
def refusalOf (k : Combination) : Operation := (Wording.plain (functionOf k).name).refusal 1

omit [Numeric κ] in
theorem commonUnit_pair (p : ScalePolicy) (wording : Wording) (q r : Quantity (Operand κ)) :
    commonUnit p wording [⟨q, false⟩, ⟨r, false⟩] =
      if r.dimension = q.dimension then
        (p.resolve q.scale r.scale (some (wording.refusal 1))).map fun scale => ⟨q.dimension, scale⟩
      else .error (.mismatch q.dimension r.dimension (wording.refusal 1)) := by
  have hsame (o : Option Operation) : p.resolve q.scale q.scale o = .ok q.scale := by
    rw [ScalePolicy.resolve, ScalePolicy.resolve_same]
  have hfirst : commonUnit p wording [⟨q, false⟩, ⟨r, false⟩] =
      matching p wording ⟨q.dimension, q.scale⟩ [(⟨r.dimension, r.scale⟩, 1)] := by
    change (if q.dimension = q.dimension then p.resolve q.scale q.scale (some (wording.refusal 0)) >>= _ else _) = _
    rw [if_pos rfl, hsame]
    rfl
  rw [hfirst, matching]
  by_cases hd : r.dimension = q.dimension
  · rw [if_pos hd, if_pos hd]
    cases p.resolve q.scale r.scale (some (wording.refusal 1)) <;> rfl
  · rw [if_neg hd, if_neg hd]

theorem computeBare_number (k : Combination) (x y : κ) :
    computeBare (.each (functionOf k)) .plainly [] [.number x, .number y] c m =
      .ok ([.item (.real (k.compute x y))], m) := by
  cases k <;> rfl

/-- a stored number and its unit as a quantity -/
def quantityOf (r : κ × StorageUnit) : Operand κ := .quantity ⟨.item (.real r.1), r.2.dimension, r.2.scale⟩

/-- a stored number as a participant -/
def numberIn (x : κ) (u : StorageUnit) : Participant κ := ⟨⟨.number x, u.dimension, u.scale⟩, false⟩

theorem tells_alignedValue (x : κ) (u : StorageUnit) (scale : Scale) :
    Tells c m (UnitRule.alignedValue ⟨u.dimension, scale⟩ (numberIn x u)) (Step.convert x (u.scale.steps scale))
      .number := by
  have haligned : UnitRule.alignedValue ⟨u.dimension, scale⟩ (numberIn x u) = (numberIn x u).quantity.valueIn scale :=
    if_pos rfl
  rw [haligned]
  exact tells_convert x _

theorem tells_computed (k : Combination) (x y : κ) (w : StorageUnit) :
    Tells c m (do
      let results ← computeBare (.each (functionOf k)) .plainly [] [.number x, .number y]
      return together (results.map (inUnitOf w))) (.ok (k.compute x y, w)) quantityOf :=
  .bind_ok (computeBare_number k x y) rfl

theorem tells_apply (k : Combination) (x y : κ) (u v : StorageUnit) :
    Tells c m (apply (.each (functionOf k)) .plainly []
      [.quantity ⟨.number x, u.dimension, u.scale⟩, .quantity ⟨.number y, v.dimension, v.scale⟩])
      (k.onStored c.policy (some (refusalOf k)) x y u v) quantityOf := by
  rw [apply_quantities rfl rfl]
  refine .bind_ok (mapM_ofOperand _ c m) ?_
  have hsum (hk : k ≠ .div) : Tells c m (do
      let w ← commonUnit c.policy (.plain (functionOf k).name) [numberIn x u, numberIn y v]
      let values ← [numberIn x u, numberIn y v].mapM (UnitRule.alignedValue w)
      let results ← computeBare (.each (functionOf k)) .plainly [] values
      return together (results.map (inUnitOf w))) (k.summed c.policy (some (refusalOf k)) x y u v) quantityOf := by
    unfold numberIn
    rw [commonUnit_pair]
    unfold Combination.summed
    by_cases hd : u.dimension = v.dimension
    · rw [if_pos hd, if_pos hd.symm]
      refine (tells_lift _ _).bind fun scale _ => ?_
      simp only [List.mapM_cons, List.mapM_nil, bind_assoc, pure_bind]
      refine (tells_alignedValue x u scale).bind fun x _ => ?_
      have hright := tells_alignedValue (c := c) (m := m) y v scale
      rw [← hd] at hright
      exact hright.bind fun y _ => tells_computed k x y _
    · rw [if_neg hd, if_neg (Ne.symm hd)]
      rfl
  have hcomposed {act : Session κ StorageUnit} {o : Outcome StorageUnit} (h : act = liftM o) : Tells c m (do
      let w ← act
      let results ← computeBare (.each (functionOf k)) .plainly [] [.number x, .number y]
      return together (results.map (inUnitOf w))) (do return (k.compute x y, ← o)) quantityOf := by
    rw [h]
    cases o with
    | error fault => rfl
    | ok w => exact tells_computed k x y w
  cases k with
  | add => exact hsum (by decide)
  | sub => exact hsum (by decide)
  | mul =>
    have hfold : [numberIn y v].foldlM (fun w p => (liftM (w.mul p.unit) : Session κ StorageUnit)) u =
      liftM (u.mul v) := bind_pure _
    exact hcomposed hfold
  | div =>
    have hfold : [numberIn y v].foldlM (fun w p => (liftM (w.div p.unit) : Session κ StorageUnit)) u =
      liftM (u.div v) := bind_pure _
    exact hcomposed hfold

theorem operate_number (k : Combination) (x y : κ) (u v : StorageUnit) :
    Tells c m
      (operate k.operator (.quantity ⟨.number x, u.dimension, u.scale⟩) (.quantity ⟨.number y, v.dimension, v.scale⟩))
      (k.onStored c.policy (some (refusalOf k)) x y u v) quantityOf := by
  have hleft : Tells c m
      (operateLeft k.operator ⟨.number x, u.dimension, u.scale⟩ (.quantity ⟨.number y, v.dimension, v.scale⟩))
      (k.onStored c.policy (some (refusalOf k)) x y u v) quantityOf := by
    have hrule := tells_apply (c := c) (m := m) k x y u v
    cases k <;> exact hrule
  rw [← bind_pure (k.onStored _ _ _ _ _ _)]
  exact hleft.bind fun r _ => rfl

end Session

/-! ## Agreement -/

/-- a fault without the operation that it names -/
def Fault.withoutOperation : Fault → Fault
  | .unit (.dimensionMismatch expected actual _) => .unit (.dimensionMismatch expected actual none)
  | .unit (.scaleMismatch a b _) => .unit (.scaleMismatch a b none)
  | fault => fault

/-- Whatever operation is named, stored numbers give the same, or are refused for the same. -/
theorem Combination.onStored_operation {κ : Type} [Numeric κ] (k : Combination) (p : ScalePolicy)
    (operation operation' : Option Operation) (x y : κ) (u v : StorageUnit) :
    (∃ r, k.onStored p operation x y u v = .ok r ∧ k.onStored p operation' x y u v = .ok r) ∨
      ∃ fault fault', k.onStored p operation x y u v = .error fault ∧ k.onStored p operation' x y u v = .error fault' ∧
        fault.withoutOperation = fault'.withoutOperation := by
  have hsame {o o' : Outcome (κ × StorageUnit)} (h : o = o') : (∃ r, o = .ok r ∧ o' = .ok r) ∨
      ∃ fault fault', o = .error fault ∧ o' = .error fault' ∧ fault.withoutOperation = fault'.withoutOperation := by
    cases h
    cases o with
    | ok r => exact Or.inl ⟨r, rfl, rfl⟩
    | error fault => exact Or.inr ⟨fault, fault, rfl, rfl, rfl⟩
  have hsum : (∃ r, k.summed p operation x y u v = .ok r ∧ k.summed p operation' x y u v = .ok r) ∨
      ∃ fault fault', k.summed p operation x y u v = .error fault ∧ k.summed p operation' x y u v = .error fault' ∧
        fault.withoutOperation = fault'.withoutOperation := by
    unfold summed
    by_cases hd : u.dimension = v.dimension
    · rw [if_pos hd, if_pos hd]
      unfold ScalePolicy.resolve
      cases p.resolve? u.scale v.scale with
      | some scale => exact hsame rfl
      | none => exact Or.inr ⟨_, _, rfl, rfl, rfl⟩
    · rw [if_neg hd, if_neg hd]
      exact Or.inr ⟨_, _, rfl, rfl, rfl⟩
  cases k with
  | add => exact hsum
  | sub => exact hsum
  | mul => exact hsame rfl
  | div => exact hsame rfl

/-- a value with its unit and a quantity that tell one number in one unit, or refusals that differ at most in the
operation that they name -/
inductive Concur {κ : Type} :
    Outcome ((Operand κ × UnitMeaning κ) × Store κ) → Outcome (Operand κ × Store κ) → Prop where
  | returned (z : κ) (u : UnitMeaning κ) (m : Store κ) :
    Concur (.ok ((.number z, u), m)) (.ok (.quantity ⟨.item (.real z), u.dimension, u.scale⟩, m))
  | refused {fault fault' : Fault} (h : fault.withoutOperation = fault'.withoutOperation) :
    Concur (.error fault) (.error fault')

namespace Operand

/-- a unit expression, or a unit -/
def IsUnitLike {κ : Type} : Operand κ → Prop
  | text _ | unit _ => True
  | _ => False

/-- the unit that an operand stands for -/
def meaning {κ : Type} [Numeric κ] (r : Registry κ) : Operand κ → Outcome (UnitMeaning κ)
  | unit u => .ok u
  | text s => Expression.evaluateText r false s
  | x => .error (.wrongType (some (.expressionNotText x.kind)))

end Operand

namespace Session

section Units

variable {κ : Type} [Numeric κ] {c : Context κ} {m : Store κ}

theorem tells_unitOf (x : Operand κ) : Tells c m (unitOf x) (x.meaning c.registry) id := by
  cases x <;> rfl

theorem unitLike_eq {x : Operand κ} (h : x.IsUnitLike) : unitLike x = unitOf x := by
  cases x <;> first | rfl | exact h.elim

end Units

section Layers

theorem toStorage_stored (d : Dimension) (s : Scale) : (UnitMeaning.stored d s : UnitMeaning Float).toStorage = [] := by
  have hone : Numeric.isOne (Numeric.one : Float) = true := UnitMeaning.isOne_one
  have hzero : Numeric.isZero (Numeric.zero : Float) = true := rfl
  simp only [UnitMeaning.toStorage, UnitMeaning.stored, hone, hzero, if_true, List.append_nil]

/-- a conversion goes on from the stored number -/
theorem rescale_intoStorage (a : Float) (u v : UnitMeaning Float) :
    UnitMeaning.rescale (u.intoStorage a) (.stored u.dimension u.scale) v = UnitMeaning.rescale a u v := by
  unfold UnitMeaning.rescale UnitMeaning.steps
  rw [toStorage_stored]
  change (if u.dimension = v.dimension then _ else _) >>= _ = _
  split
  · change Step.convert (u.intoStorage a) (u.scale.steps v.scale ++ v.fromStorage) =
      Step.convert a (u.toStorage ++ u.scale.steps v.scale ++ v.fromStorage)
    rw [List.append_assoc, Step.convert_append a u.toStorage, UnitMeaning.convert_intoStorage]
    rfl
  · rfl

theorem erase_intoStorage (a : Float) (u : UnitMeaning Float) :
    UnitMeaning.erase (u.intoStorage a) (.stored u.dimension u.scale) = UnitMeaning.erase a u := by
  unfold UnitMeaning.erase UnitMeaning.erasure
  rw [toStorage_stored]
  change (if u.dimension.isErasable then _ else _) >>= _ = _
  split
  · change Step.convert (u.intoStorage a) (u.scale.steps .one) = Step.convert a (u.toStorage ++ u.scale.steps .one)
    rw [Step.convert_append a u.toStorage, UnitMeaning.convert_intoStorage]
    rfl
  · rfl

variable (c : Context Float) (m : Store Float) (p : ScalePolicy) (a b : Float) {x y : Operand Float}

theorem isZero_one : Numeric.isZero (Numeric.one : Float) = false := Binary64.isZero_of_isOne UnitMeaning.isOne_one

/-- **Combination.** An operator on two quantities, under a policy, tells what the combination of their values and units
under that policy tells. -/
theorem combine_agrees (k : Combination) (hx : x.IsUnitLike) (hy : y.IsUnitLike)
    (hdiv : k = .div → ∀ v, y.meaning c.registry = .ok v → Numeric.isZero (v.intoStorage b) = false) :
    Concur ((do combine (.number a, ← unitLike x) (.number b, ← unitLike y) k.text (.policy p)) c m)
      ((do
        let q ← Quantity.of (.number a) (← unitOf x)
        let r ← Quantity.of (.number b) (← unitOf y)
        operate k.operator (.quantity q) (.quantity r)) { c with policy := p } m) := by
  rw [unitLike_eq hx, unitLike_eq hy]
  have hcombine : Tells c m
      (do combine (.number a, ← unitOf x) (.number b, ← unitOf y) k.text (.policy p))
      (do
        let u ← x.meaning c.registry
        let v ← y.meaning c.registry
        k.onStored p k.operation? (u.intoStorage a) (v.intoStorage b) u.storageUnit v.storageUnit)
      fun r => (.number r.1, unitFor k r.2) :=
    (tells_unitOf x).bind fun u _ => (tells_unitOf y).bind fun v hv =>
      combine_number k p a b u v isZero_one fun h => hdiv h v hv
  have hoperate : Tells { c with policy := p } m
      (do
        let q ← Quantity.of (.number a) (← unitOf x)
        let r ← Quantity.of (.number b) (← unitOf y)
        operate k.operator (.quantity q) (.quantity r))
      (do
        let u ← x.meaning c.registry
        let v ← y.meaning c.registry
        k.onStored p (some (refusalOf k)) (u.intoStorage a) (v.intoStorage b) u.storageUnit v.storageUnit)
      quantityOf :=
    (tells_unitOf x).bind fun u _ => .bind_ok (of_number a u) ((tells_unitOf y).bind fun v _ =>
      .bind_ok (of_number b v) (operate_number k _ _ u.storageUnit v.storageUnit))
  rw [hcombine, hoperate]
  cases x.meaning c.registry with
  | error fault => exact .refused rfl
  | ok u =>
    cases y.meaning c.registry with
    | error fault => exact .refused rfl
    | ok v =>
      change Concur (Except.map _ (k.onStored _ _ _ _ _ _)) (Except.map _ (k.onStored _ _ _ _ _ _))
      rcases k.onStored_operation p k.operation? (some (refusalOf k)) (u.intoStorage a) (v.intoStorage b)
        u.storageUnit v.storageUnit with ⟨r, h, h'⟩ | ⟨fault, fault', h, h', hsame⟩
      · rw [h, h']
        cases k <;> exact .returned r.1 (unitFor _ r.2) m
      · rw [h, h']
        exact .refused hsame

/-- **Conversion.** A quantity in a unit is its value converted from the unit that it was made in. -/
theorem inUnit_agrees (hx : x.IsUnitLike) (hy : y.IsUnitLike) :
    (do
      let q ← Quantity.of (.number a) (← unitOf x)
      q.inUnit (← unitLike y)) c m = (do rescale (.number a) (← unitLike x) (← unitLike y)) c m := by
  rw [unitLike_eq hx, unitLike_eq hy]
  have hconvert : Tells c m (do rescale (.number a) (← unitOf x) (← unitOf y)) (do
      let u ← x.meaning c.registry
      let v ← y.meaning c.registry
      UnitMeaning.rescale a u v) .number :=
    (tells_unitOf x).bind fun u _ => (tells_unitOf y).bind fun v _ => rescale_number c m a u v
  have hquantity : Tells c m (do
      let q ← Quantity.of (.number a) (← unitOf x)
      q.inUnit (← unitOf y)) (do
      let u ← x.meaning c.registry
      let v ← y.meaning c.registry
      UnitMeaning.rescale (u.intoStorage a) (.stored u.dimension u.scale) v) .number :=
    (tells_unitOf x).bind fun u _ => .bind_ok (of_number a u) ((tells_unitOf y).bind fun v _ =>
      rescale_number c m (u.intoStorage a) (.stored u.dimension u.scale) v)
  rw [hconvert, hquantity]
  simp only [rescale_intoStorage]

/-- **Erasure.** A quantity without its unit is its value without the unit that it was made in. -/
theorem erase_agrees (hx : x.IsUnitLike) :
    (do (← Quantity.of (.number a) (← unitOf x)).erase) c m = (do erase (.number a) (← unitLike x)) c m := by
  rw [unitLike_eq hx]
  have herase : Tells c m (do erase (.number a) (← unitOf x)) (do UnitMeaning.erase a (← x.meaning c.registry))
      .number :=
    (tells_unitOf x).bind fun u _ => erase_number c m a u
  have hquantity : Tells c m (do (← Quantity.of (.number a) (← unitOf x)).erase) (do
      let u ← x.meaning c.registry
      UnitMeaning.erase (u.intoStorage a) (.stored u.dimension u.scale)) .number :=
    (tells_unitOf x).bind fun u _ => .bind_ok (of_number a u) (erase_number c m (u.intoStorage a) _)
  rw [herase, hquantity]
  simp only [erase_intoStorage]

/-- **Two ways to the same results.** For all numbers, units and policies: an operator on two quantities tells what the
combination of their values and units tells, a quantity in a unit is its value converted, and a quantity without its
unit is its value erased. -/
theorem layers_agree (hx : x.IsUnitLike) (hy : y.IsUnitLike) :
    (∀ k : Combination, (k = .div → ∀ v, y.meaning c.registry = .ok v → Numeric.isZero (v.intoStorage b) = false) →
      Concur ((do combine (.number a, ← unitLike x) (.number b, ← unitLike y) k.text (.policy p)) c m)
        ((do
          let q ← Quantity.of (.number a) (← unitOf x)
          let r ← Quantity.of (.number b) (← unitOf y)
          operate k.operator (.quantity q) (.quantity r)) { c with policy := p } m)) ∧
    (do
      let q ← Quantity.of (.number a) (← unitOf x)
      q.inUnit (← unitLike y)) c m = (do rescale (.number a) (← unitLike x) (← unitLike y)) c m ∧
    (do (← Quantity.of (.number a) (← unitOf x)).erase) c m = (do erase (.number a) (← unitLike x)) c m :=
  ⟨fun k hdiv => combine_agrees c m p a b k hx hy hdiv, inUnit_agrees c m a hx hy, erase_agrees c m a hx⟩

/-- 20 degrees Celsius over half a minute: an offset on the left, a factor on the right, and no zero among them -/
theorem layers_agree_celsius :
    let celsius : UnitMeaning Float := ⟨{ temperature := 1 }, .one, 1.0, 273.15, none⟩
    let minute : UnitMeaning Float := ⟨{ time := 1 }, .one, 60.0, 0.0, none⟩
    let context : Context Float := ⟨.smallerWins, .empty [] []⟩
    Numeric.isZero (minute.intoStorage 0.5) = false ∧
      Concur
        ((do
          combine (.number 20.0, ← unitLike (.unit celsius)) (.number 0.5, ← unitLike (.unit minute)) "/"
            (.policy .strict)) context .empty)
        ((do
          let q ← Quantity.of (.number 20.0) (← unitOf (.unit celsius))
          let r ← Quantity.of (.number 0.5) (← unitOf (.unit minute))
          operate .div (.quantity q) (.quantity r)) { context with policy := .strict } .empty) := by
  intro celsius minute context
  have hstored : Numeric.isZero (minute.intoStorage 0.5) = false := by decide +kernel
  refine ⟨hstored, (layers_agree context .empty .strict 20.0 0.5 (x := .unit celsius) (y := .unit minute) trivial
    trivial).1 .div fun _ v hv => ?_⟩
  cases hv
  exact hstored

end Layers

end Session

end UnitAlgebra

/-
Bare numbers beside quantities that have a dimension. A number without a unit takes part as dimensionless, and only a
zero fits other dimensions, so every function that matches its operands refuses it. Two ways in do not match: the start
of a reduction, and the number that missing elements are filled with, go in as numbers of the quantity's own unit.

Results:
- `commonUnit_append`: operands are matched one after the other, and the first that does not fit is refused.
- `apply_refused`, `operate_refused`, `assign_refused`, `applyArrayFunction_refused`: who matches, refuses.
- `reduce_quantity`: the start of a reduction is not matched.
- `take_row`: what missing elements are filled with.
- `bare_spec`: all ways for a bare number to meet a quantity.
- `bare_enters`: five is added to three meters, and seven taken for a length.
-/
import UnitAlgebra.Proofs.Quantity.Arguments
import UnitAlgebra.Proofs.Quantity.Layers
import UnitAlgebra.Proofs.Quantity.Matching
import UnitAlgebra.Proofs.Quantity.Reduction
import UnitAlgebra.Quantity.Access
import UnitAlgebra.Quantity.Operator

namespace UnitAlgebra

variable {κ : Type} [Numeric κ]

/-- a number without a unit that is not zero -/
structure Operand.IsBareNumber (m : Store κ) (x : Operand κ) : Prop where
  single : x.isArray = false
  numeric : x.IsNumeric m
  nonzero : x.isZero m = false

/-! ## Matching -/

section Matching

variable {p : ScalePolicy} {w : Wording} {q r : Participant κ} {ps : List (Participant κ)}

omit [Numeric κ] in
/-- an operand that decides, and those of the others that do -/
theorem deciding_cons (hq : q.isBareZero = false) :
    deciding (q :: ps) = (q, 0) :: (ps.zipIdx 1).filter fun p => !p.1.isBareZero := by
  have hfilter : ((q :: ps).zipIdx).filter (fun p => !p.1.isBareZero) =
      (q, 0) :: (ps.zipIdx 1).filter fun p => !p.1.isBareZero := by
    rw [List.zipIdx_cons, List.filter_cons_of_pos (by simp [hq])]
  unfold deciding
  rw [hfilter]

omit [Numeric κ] in
theorem commonUnit_cons (hq : q.isBareZero = false) :
    commonUnit p w (q :: ps) = matching p w q.unit ((deciding (q :: ps)).map fun r => (r.1.unit, r.2)) := by
  unfold commonUnit
  rw [deciding_cons hq]
  rfl

omit [Numeric κ] in
/-- Operands are matched one after the other, and the first that does not fit is refused. -/
theorem commonUnit_append (hq : q.isBareZero = false) (hr : r.isBareZero = false) (hd : r.dimension ≠ q.dimension) :
    commonUnit p w (q :: (ps ++ [r])) =
      commonUnit p w (q :: ps) >>= fun _ => .error (.mismatch q.dimension r.dimension (w.refusal (ps.length + 1))) := by
  have hone : ([r].zipIdx (1 + ps.length)).filter (fun p => !p.1.isBareZero) = [(r, 1 + ps.length)] := by
    rw [List.zipIdx_cons, List.filter_cons_of_pos (by simp [hr])]
    rfl
  have hlater : deciding (q :: (ps ++ [r])) = deciding (q :: ps) ++ [(r, 1 + ps.length)] := by
    rw [deciding_cons hq, deciding_cons hq, List.zipIdx_append, List.filter_append, hone]
    rfl
  have hsplit : commonUnit p w (q :: (ps ++ [r])) =
      commonUnit p w (q :: ps) >>= fun v => matching p w v [(r.unit, 1 + ps.length)] := by
    rw [commonUnit_cons hq, commonUnit_cons hq, hlater, List.map_append, matching_append]
    rfl
  rw [hsplit]
  cases hu : commonUnit p w (q :: ps) with
  | error fault => rfl
  | ok u =>
    have hunit : u.dimension = q.dimension := (dimension_eq_of_commonUnit hu List.mem_cons_self hq).symm
    have hdim : r.unit.dimension ≠ u.dimension := fun h => hd (h.trans hunit)
    change matching p w u [(r.unit, 1 + ps.length)] = .error _
    rw [matching, if_neg hdim, hunit, Nat.add_comm]
    rfl

end Matching

/-! ## Functions and operators -/

/-- the operators whose sides are matched -/
def Operator.matched : List Operator := [.add, .sub, .mod, .eq, .ne, .lt, .le, .gt, .ge]

/-- the name that refusals give an operator with a quantity on its left -/
def Operator.refusalName : Operator → String
  | .eq => "__eq__"
  | o => o.function.name

namespace Session

variable {c : Context κ} {m m' : Store κ} {q : Quantity (Operand κ)} {x : Operand κ}

theorem participant_of_bare (hx : x.IsBareNumber m) : x.participant m = ⟨⟨x, .one, .one⟩, false⟩ := by
  obtain ⟨hsingle, hnumeric, hnonzero⟩ := hx
  cases x with
  | flag b => exact congrArg (Participant.mk _) hnonzero
  | integer n => exact congrArg (Participant.mk _) hnonzero
  | number y => exact congrArg (Participant.mk _) hnonzero
  | item cell => exact congrArg (Participant.mk _) hnonzero
  | array v => cases hsingle
  | _ => exact hnumeric.elim

/-- a bare number is taken for nothing else -/
theorem isPlain_of_bare (hx : x.IsBareNumber m) :
    x.isSeries = false ∧ x.isQuantity = false ∧ x.beginsWithQuantity = false := by
  obtain ⟨hsingle, hnumeric, -⟩ := hx
  cases x <;> first | exact ⟨rfl, rfl, rfl⟩ | exact hnumeric.elim

/-- A function that matches its two operands refuses what has another dimension. -/
theorem apply_refused {f : TensorFunction} (hf : f.rule = .shared) {way : Way κ} {a b : Operand κ}
    (hseries : [a, b].any Operand.isSeries = false) (hquantity : [a, b].any Operand.isQuantity = true)
    {p r : Quantity (Operand κ)} (ha : a.participant m = ⟨p, false⟩) (hb : b.participant m = ⟨r, false⟩)
    (hd : r.dimension ≠ p.dimension) :
    apply f way [] [a, b] c m = .error (.mismatch p.dimension r.dimension (.apply f.name (.nth 1 "argument"))) := by
  have hunit : f.rule.unit (.plain f.name) [⟨p, false⟩, ⟨r, false⟩] c m =
      .error (.mismatch p.dimension r.dimension (.apply f.name (.nth 1 "argument"))) := by
    rw [hf]
    change (liftM (commonUnit c.policy (.plain f.name) [⟨p, false⟩, ⟨r, false⟩]) : Session κ _) c m = _
    rw [commonUnit_pair, if_neg hd]
    rfl
  rw [apply_quantities hseries hquantity, bind_of_ok (mapM_ofOperand _ c m), List.map_cons, List.map_cons, ha, hb]
  exact bind_of_error hunit

variable (hd : q.dimension ≠ .one) (hx : x.IsBareNumber m)
include hd hx

theorem apply_quantity_refused {f : TensorFunction} (hf : f.rule = .shared) {way : Way κ} :
    apply f way [] [.quantity q, x] c m =
      .error (.mismatch q.dimension .one (.apply f.name (.nth 1 "argument"))) := by
  obtain ⟨hseries, -, -⟩ := isPlain_of_bare hx
  refine apply_refused hf ?_ rfl rfl (participant_of_bare hx) hd.symm
  rw [List.any_cons, List.any_cons, hseries]
  rfl

theorem apply_bare_refused {f : TensorFunction} (hf : f.rule = .shared) {way : Way κ} :
    apply f way [] [x, .quantity q] c m =
      .error (.mismatch .one q.dimension (.apply f.name (.nth 1 "argument"))) := by
  obtain ⟨hseries, hquantity, -⟩ := isPlain_of_bare hx
  refine apply_refused hf ?_ ?_ (participant_of_bare hx) rfl hd
  · rw [List.any_cons, hseries]
    rfl
  · rw [List.any_cons, hquantity]
    rfl

theorem operateLeft_refused {o : Operator} (ho : o ∈ Operator.matched) : operateLeft o q x c m =
    .error (.mismatch q.dimension .one (.apply o.refusalName (.nth 1 "argument"))) := by
  obtain ⟨hseries, -, hbegins⟩ := isPlain_of_bare hx
  have hequality : equality q x c m = .error (.mismatch q.dimension .one (.apply "__eq__" (.nth 1 "argument"))) := by
    have hp := participant_of_bare hx
    have hofOperand : Participant.ofOperand x c m = .ok (x.participant m, m) := by cases x <;> rfl
    have hunit : UnitRule.unit .shared (.plain "__eq__") [⟨q, false⟩, x.participant m] c m =
        .error (.mismatch q.dimension .one (.apply "__eq__" (.nth 1 "argument"))) := by
      change (liftM (commonUnit c.policy (.plain "__eq__") [⟨q, false⟩, x.participant m]) : Session κ _) c m = _
      rw [hp, commonUnit_pair, if_neg hd.symm]
      rfl
    simp only [equality, hseries, Bool.false_eq_true, if_false]
    rw [bind_of_ok hofOperand]
    exact bind_of_error hunit
  have hkept : (o.yields && (x.isSeries || x.beginsWithQuantity)) = false := by simp [hseries, hbegins]
  simp only [operateLeft, hkept, Bool.false_eq_true, if_false]
  simp only [Operator.matched, List.mem_cons, List.not_mem_nil, or_false] at ho
  rcases ho with rfl | rfl | rfl | rfl | rfl | rfl | rfl | rfl | rfl <;>
    first | exact hequality | exact apply_quantity_refused hd hx rfl

/-- An operator that matches its sides refuses a bare number on the right of a quantity. -/
theorem operate_refused {o : Operator} (ho : o ∈ Operator.matched) : operate o (.quantity q) x c m =
    .error (.mismatch q.dimension .one (.apply o.refusalName (.nth 1 "argument"))) :=
  bind_of_error (operateLeft_refused hd hx ho)

theorem callWith_refused {f : Elementwise} (harity : f.arity = 2) (hf : (TensorFunction.each f).rule = .shared) :
    callWith (.each f) .plain [.quantity q, x] [] c m =
        .error (.mismatch q.dimension .one (.apply f.name (.nth 1 "argument"))) ∧
      callWith (.each f) .plain [x, .quantity q] [] c m =
        .error (.mismatch .one q.dimension (.apply f.name (.nth 1 "argument"))) := by
  have harranged (a b : Operand κ) : arrange (.each f) .plain [a, b] [] = .ok ⟨fun _ => .plainly, [], [a, b]⟩ := by
    have harity' : (TensorFunction.each f).arity = 2 := harity
    simp only [arrange, arrangePlainly, harity']
    rfl
  rw [callWith_of_arranged _ (harranged _ _), callWith_of_arranged _ (harranged _ _)]
  exact ⟨apply_quantity_refused hd hx hf, apply_bare_refused hd hx hf⟩

/-- A bare number is not assigned to elements of a quantity. -/
theorem assign_refused (key : Operand κ) :
    assign q key x c m = .error (.mismatch q.dimension .one (.apply "__setitem__" (.nth 1 "argument"))) := by
  have hofOperand : Participant.ofOperand x c m = .ok (x.participant m, m) := by cases x <;> rfl
  have hunit : UnitRule.unit .shared (.plain "__setitem__") [⟨q, false⟩, x.participant m] c m =
      .error (.mismatch q.dimension .one (.apply "__setitem__" (.nth 1 "argument"))) := by
    change (liftM (commonUnit c.policy (.plain "__setitem__") [⟨q, false⟩, x.participant m]) : Session κ _) c m = _
    rw [participant_of_bare hx, commonUnit_pair, if_neg hd.symm]
    rfl
  refine bind_of_error ?_
  rw [prepareAssignment, bind_of_ok hofOperand]
  exact bind_of_error hunit

end Session

/-! ## Arguments of array functions -/

/-- the participants of an argument -/
def Argument.participants : Argument κ → List (Participant κ)
  | .single p => [p]
  | .several ps => ps
  | .bare _ => []

namespace Arguments

/-- an operand as its parameter takes it: with its unit, as a list of such, or as it is -/
def taken (m : Store κ) (p : Parameter) (y : Operand κ) : Argument κ :=
  match p.role, y with
  | .quantity, y => .single (y.participant m)
  | .perhaps, .absent => .bare .absent
  | .perhaps, y => .single (y.participant m)
  | .quantities, .list ys | .quantities, .tuple ys => .several (ys.map (Operand.participant m))
  | .quantities, y | .bare, y => .bare y

/-- no quantity where there may be none, and a list where there has to be one -/
def AreTaken (as : Arguments κ) : Prop :=
  ∀ e ∈ as, (e.1.role = .bare → e.2.isQuantity = false) ∧ (e.1.role = .quantities → e.2.elements?.isSome)

end Arguments

namespace Session

variable {c : Context κ} {m m' : Store κ} {q : Quantity (Operand κ)} {x : Operand κ}

theorem argumentOf_taken {f : ArrayFunction} {p : Parameter} {y : Operand κ}
    (hbare : p.role = .bare → y.isQuantity = false) (hlist : p.role = .quantities → y.elements?.isSome) :
    argumentOf f p y c m = .ok (Arguments.taken m p y, m) := by
  obtain ⟨name, role, required⟩ := p
  have hofOperand (z : Operand κ) : Participant.ofOperand z c m = .ok (z.participant m, m) := by cases z <;> rfl
  have hsingle (z : Operand κ) : ((Participant.ofOperand z >>= fun r => pure (.single r)) : Session κ (Argument κ)) c m =
      .ok (.single (z.participant m), m) := by
    rw [bind_of_ok (hofOperand z)]
    rfl
  have hseveral (zs : List (Operand κ)) :
      ((zs.mapM Participant.ofOperand >>= fun rs => pure (.several rs)) : Session κ (Argument κ)) c m =
        .ok (.several (zs.map (Operand.participant m)), m) := by
    rw [bind_of_ok (mapM_ofOperand zs c m)]
    rfl
  cases role with
  | quantity => exact hsingle y
  | perhaps => cases y <;> rfl
  | quantities =>
    cases y with
    | list ys => exact hseveral ys
    | tuple ys => exact hseveral ys
    | _ => cases hlist rfl
  | bare =>
    cases y with
    | quantity q => cases hbare rfl
    | _ => rfl

theorem mapM_argumentOf {f : ArrayFunction} {as : Arguments κ} (h : as.AreTaken) :
    (as.mapM fun (p, y) => do return (p, ← argumentOf f p y) : Session κ _) c m =
      .ok (as.map fun e => (e.1, Arguments.taken m e.1 e.2), m) := by
  induction as with
  | nil => rfl
  | cons e as ih =>
    obtain ⟨hbare, hlist⟩ := h e List.mem_cons_self
    have hfirst : ((argumentOf f e.1 e.2 >>= fun a => pure (e.1, a)) : Session κ _) c m =
        .ok ((e.1, Arguments.taken m e.1 e.2), m) := by
      rw [bind_of_ok (argumentOf_taken hbare hlist)]
      rfl
    rw [List.mapM_cons, bind_of_ok hfirst, bind_of_ok (ih fun e he => h e (List.mem_cons_of_mem _ he))]
    rfl

theorem participants_taken {as : Arguments κ} {name : String} {p : Parameter} {y : Operand κ}
    (h : as.find? (·.1.name = name) = some (p, y)) :
    participants (as.map fun e => (e.1, Arguments.taken m e.1 e.2)) name = (Arguments.taken m p y).participants := by
  have hfound : (as.map fun e => (e.1, Arguments.taken m e.1 e.2)).find? (·.1.name = name) =
      some (p, Arguments.taken m p y) := by
    rw [List.find?_map]
    exact congrArg (Option.map _) h
  unfold participants
  rw [hfound, Option.map_some]
  cases Arguments.taken m p y <;> rfl

omit [Numeric κ] in
theorem find?_of_get? {f : ArrayFunction} {args : List (Operand κ)} {named : List (String × Operand κ)}
    {as : Arguments κ} (hbind : Arguments.bind f.parameters args named = .ok as) {name : String} {y : Operand κ}
    (h : as.get? name = some y) :
    ∃ p ∈ f.parameters, p.name = name ∧ as.find? (·.1.name = name) = some (p, y) ∧ (p, y) ∈ as := by
  unfold Arguments.get? at h
  obtain ⟨e, he, rfl⟩ := Option.map_eq_some_iff.1 h
  have hmem := List.mem_of_find?_eq_some he
  exact ⟨e.1, mem_of_bind hbind hmem, by simpa using List.find?_some he, he, hmem⟩

/-- The unit of the result is found before anything is computed. -/
theorem applyArrayFunction_refused {f : ArrayFunction} {args : List (Operand κ)} {named : List (String × Operand κ)}
    {as : Arguments κ} (hbind : Arguments.bind f.parameters args named = .ok as) (htaken : as.AreTaken)
    {p : Parameter} {y : Operand κ} (hmem : (p, y) ∈ as) (hbrings : bringsUnits f p.name = true)
    (hholds : holdsQuantity p y = true) {fault : Fault}
    (hunit : unitOfResult f (as.map fun e => (e.1, Arguments.taken m e.1 e.2)) c m = .error fault) :
    applyArrayFunction f args named c m = .error fault := by
  obtain ⟨k, hk⟩ := kindInto_eq (outputs as) c m
  have hany : (as.any fun (p, x) => bringsUnits f p.name && holdsQuantity p x) = true :=
    List.any_eq_true.2 ⟨(p, y), hmem, by simp [hbrings, hholds]⟩
  have hrule : prepareArrayRule f k as c m = .error fault := by
    rw [prepareArrayRule, bind_of_ok (mapM_argumentOf htaken)]
    exact bind_of_error hunit
  have hprepared : prepareArrayFunction f args named c m = .error fault := by
    rw [prepareArrayFunction, hbind, bind_of_ok (show (liftM (Except.ok as : Outcome _) : Session κ _) c m = .ok (as, m)
      from rfl), bind_of_ok hk, prepareArray, if_pos hany]
    exact hrule
  exact bind_of_error hprepared

/-! ## Array functions -/

section ArrayFunctions

variable {f : ArrayFunction} {args : List (Operand κ)} {named : List (String × Operand κ)} {as : Arguments κ}
  (hbind : Arguments.bind f.parameters args named = .ok as) (htaken : as.AreTaken)

include hbind in
theorem participants_single {name : String} {y : Operand κ} (h : as.get? name = some y)
    (hrole : ∀ p ∈ f.parameters, p.name = name → p.role = .quantity ∨ p.role = .perhaps ∧ y.isAbsent = false) :
    participants (as.map fun e => (e.1, Arguments.taken m e.1 e.2)) name = [y.participant m] := by
  obtain ⟨p, hp, hname, hfind, -⟩ := find?_of_get? hbind h
  have hsingle : Arguments.taken m p y = .single (y.participant m) := by
    unfold Arguments.taken
    rcases hrole p hp hname with h | ⟨h, hpresent⟩
    · rw [h]
    · rw [h]
      cases y <;> first | rfl | cases hpresent
  rw [participants_taken hfind, hsingle]
  rfl

variable (hd : q.dimension ≠ .one) (hx : x.IsBareNumber m)
include hd hx hbind htaken

/-- A bare number is no start of a sum or an extreme. -/
theorem fold_refused (hf : f ∈ [.sum, .max, .amax, .min, .amin]) (ha : as.get? "a" = some (.quantity q))
    (hinitial : as.get? "initial" = some x) : applyArrayFunction f args named c m =
      .error (.mismatch q.dimension .one (.apply f.refusalName (.named "'initial'" "argument"))) := by
  obtain ⟨p, hp, hname, -, hmem⟩ := find?_of_get? hbind ha
  have hroles : ∀ p ∈ f.parameters, (p.name = "a" → p.role = .quantity) ∧ (p.name = "initial" → p.role = .perhaps) ∧
      bringsUnits f "a" = true := by
    simp only [List.mem_cons, List.not_mem_nil, or_false] at hf
    rcases hf with rfl | rfl | rfl | rfl | rfl <;> decide
  have hpresent : x.isAbsent = false := by cases x <;> first | rfl | exact hx.numeric.elim
  have hown := participants_single (m := m) hbind ha fun p hp h => .inl ((hroles p hp).1 h)
  have hstart := participants_single (m := m) hbind hinitial fun p hp h => .inr ⟨(hroles p hp).2.1 h, hpresent⟩
  refine applyArrayFunction_refused hbind htaken hmem (hname ▸ (hroles p hp).2.2) rfl ?_
  have hunit : unitOfResult f (as.map fun e => (e.1, Arguments.taken m e.1 e.2)) c m =
      ((liftM (commonUnit c.policy ⟨f.refusalName, "argument", [(1, "'initial'")]⟩ [⟨q, false⟩, x.participant m]) :
        Session κ _) >>= fun u => pure (some u)) c m := by
    simp only [List.mem_cons, List.not_mem_nil, or_false] at hf
    rcases hf with rfl | rfl | rfl | rfl | rfl <;> simp only [unitOfResult, hown, hstart] <;> rfl
  rw [hunit, participant_of_bare hx, commonUnit_pair, if_neg hd.symm]
  rfl

/-- A bare number is no tolerance, unless the operands themselves do not fit, which is refused before. -/
theorem close_refused (hf : f ∈ [.isclose, .allclose]) (ha : as.get? "a" = some (.quantity q)) {y : Operand κ}
    (hb : as.get? "b" = some y) (hatol : as.get? "atol" = some x) : applyArrayFunction f args named c m = .error (
      match commonUnit c.policy ⟨f.name, "argument", [(2, "'atol'")]⟩ [⟨q, false⟩, y.participant m] with
      | .error fault => fault
      | .ok _ => .mismatch q.dimension .one (.apply f.name (.named "'atol'" "argument"))) := by
  obtain ⟨p, hp, hname, -, hmem⟩ := find?_of_get? hbind ha
  have hroles : ∀ p ∈ f.parameters, (p.name = "a" → p.role = .quantity) ∧ (p.name = "b" → p.role = .quantity) ∧
      (p.name = "atol" → p.role = .perhaps) ∧ bringsUnits f "a" = true := by
    simp only [List.mem_cons, List.not_mem_nil, or_false] at hf
    rcases hf with rfl | rfl <;> decide
  have hpresent : x.isAbsent = false := by cases x <;> first | rfl | exact hx.numeric.elim
  have hown := participants_single (m := m) hbind ha fun p hp h => .inl ((hroles p hp).1 h)
  have hother := participants_single (m := m) hbind hb fun p hp h => .inl ((hroles p hp).2.1 h)
  have hbound := participants_single (m := m) hbind hatol fun p hp h => .inr ⟨(hroles p hp).2.2.1 h, hpresent⟩
  refine applyArrayFunction_refused hbind htaken hmem (hname ▸ (hroles p hp).2.2.2) rfl ?_
  have hunit : unitOfResult f (as.map fun e => (e.1, Arguments.taken m e.1 e.2)) c m =
      ((liftM (commonUnit c.policy ⟨f.name, "argument", [(2, "'atol'")]⟩
        ([⟨q, false⟩, y.participant m] ++ [x.participant m])) : Session κ _) >>= fun u => pure (some u)) c m := by
    simp only [List.mem_cons, List.not_mem_nil, or_false] at hf
    rcases hf with rfl | rfl <;> simp only [unitOfResult, hown, hother, hbound] <;> rfl
  have happend : commonUnit c.policy ⟨f.name, "argument", [(2, "'atol'")]⟩
      ([⟨q, false⟩, y.participant m] ++ [⟨⟨x, .one, .one⟩, false⟩]) = _ := commonUnit_append rfl rfl hd.symm
  rw [hunit, participant_of_bare hx, happend]
  cases commonUnit c.policy ⟨f.name, "argument", [(2, "'atol'")]⟩ [⟨q, false⟩, y.participant m] <;> rfl

omit hx in
/-- A list of bare numbers is not joined to a quantity. -/
theorem join_refused (hf : f ∈ [.concatenate, .stack]) {y : Operand κ} (harrays : as.get? "arrays" = some y)
    (hy : y.elements? = some [.quantity q, .list [x]]) : applyArrayFunction f args named c m =
      .error (.mismatch q.dimension .one (.apply f.name (.nth 1 "array"))) := by
  obtain ⟨p, hp, hname, hfind, hmem⟩ := find?_of_get? hbind harrays
  have hroles : ∀ p ∈ f.parameters, (p.name = "arrays" → p.role = .quantities) ∧ bringsUnits f "arrays" = true := by
    simp only [List.mem_cons, List.not_mem_nil, or_false] at hf
    rcases hf with rfl | rfl <;> decide
  have hrole := (hroles p hp).1 hname
  have hlist : y = .list [.quantity q, .list [x]] ∨ y = .tuple [.quantity q, .list [x]] := by
    cases y <;> simp_all [Operand.elements?]
  have htwo : participants (as.map fun e => (e.1, Arguments.taken m e.1 e.2)) "arrays" =
      [⟨q, false⟩, ⟨⟨.list [x], .one, .one⟩, false⟩] := by
    rw [participants_taken hfind]
    unfold Arguments.taken
    rw [hrole]
    rcases hlist with rfl | rfl <;> rfl
  have hholds : holdsQuantity p y = true := by
    rcases hlist with rfl | rfl <;> simp [holdsQuantity, hrole, Operand.isQuantity, Operand.quantity?]
  refine applyArrayFunction_refused hbind htaken hmem (hname ▸ (hroles p hp).2) hholds ?_
  have hunit : unitOfResult f (as.map fun e => (e.1, Arguments.taken m e.1 e.2)) c m =
      ((liftM (commonUnit c.policy ⟨f.name, "array", []⟩ [⟨q, false⟩, ⟨⟨.list [x], .one, .one⟩, false⟩]) :
        Session κ _) >>= fun u => pure (some u)) c m := by
    simp only [List.mem_cons, List.not_mem_nil, or_false] at hf
    rcases hf with rfl | rfl <;> simp only [unitOfResult, htwo] <;> rfl
  rw [hunit, commonUnit_pair, if_neg hd.symm]
  rfl

end ArrayFunctions

/-! ## Ways in -/

/-- how a reduction is done does not depend on what is reduced -/
theorem arrange_reduce (f : TensorFunction) {named : List (String × Operand κ)} (hout : ∀ e ∈ named, e.1 ≠ "out") :
    (∃ fault, ∀ y, arrange f .reduce [y] named = .error fault) ∨
      ∃ options : Option Kind → Folding κ, ∀ y, arrange f .reduce [y] named = .ok ⟨fun k => .folded (options k), [], [y]⟩ := by
  have hbind (y : Operand κ) : Arguments.bind Manner.reduce.parameters [y] named =
      (Arguments.bind (Manner.reduce.parameters.drop 1) [] named).map ((.needed "array" .bare, y) :: ·) :=
    bind_cons _ _ y [] named
  cases hrest : Arguments.bind (Manner.reduce.parameters.drop 1) [] named with
  | error fault =>
    refine Or.inl ⟨fault, fun y => ?_⟩
    simp only [arrange, hbind, hrest]
    rfl
  | ok rest =>
    refine Or.inr ⟨fun into =>
      ⟨(rest.get? "axis").getD (.integer 0), rest.flag "keepdims", rest.get? "initial", into⟩, fun y => ?_⟩
    have hlater {name : String} (hname : "array" ≠ name) :
        Arguments.get? ((.needed "array" .bare, y) :: rest) name = rest.get? name := by
      rw [Arguments.get?, List.find?_cons_of_neg (by simp [Parameter.needed, hname])]
      rfl
    have hgot {name : String} (hname : "array" ≠ name) :
        Arguments.get ((.needed "array" .bare, y) :: rest) name = rest.get name := by
      rw [Arguments.get, hlater hname]
      rfl
    have hno : rest.get "out" = .absent := by
      rw [Arguments.get, get?_of_unnamed hrest hout]
      rfl
    have hflag : Arguments.flag ((.needed "array" .bare, y) :: rest) "keepdims" = rest.flag "keepdims" := by
      rw [Arguments.flag, hgot (by decide)]
      rfl
    simp only [arrange, hbind, hrest]
    change (do
      let outs ← outputsOf 1 (Arguments.get ((.needed "array" .bare, y) :: rest) "out")
      Except.ok (Arranged.mk (fun into => Way.folded ⟨
        (Arguments.get? ((.needed "array" .bare, y) :: rest) "axis").getD (.integer 0),
        Arguments.flag ((.needed "array" .bare, y) :: rest) "keepdims",
        Arguments.get? ((.needed "array" .bare, y) :: rest) "initial", into⟩) outs [y])) = _
    rw [hlater (by decide), hlater (by decide), hflag, hgot (by decide), hno]
    rfl

theorem computeBare_folded {f : Elementwise} {o : Folding κ} {x : Operand κ} {zs : List (Operand κ)}
    (h : computeBare (.each f) (.folded o) [] [x] c m = .ok (zs, m')) : ∃ z, zs = [z] := by
  rw [computeBare_nil (.folded o) (by simp)] at h
  obtain ⟨r, m₁, hr, h⟩ := bind_eq_ok_iff.1 h
  simp only [resultsOf] at hr
  split at hr
  · obtain ⟨t, _, -, hr⟩ := bind_eq_ok_iff.1 hr
    obtain ⟨axes, _, -, hr⟩ := bind_eq_ok_iff.1 hr
    obtain ⟨start, _, -, hr⟩ := bind_eq_ok_iff.1 hr
    obtain ⟨s, _, -, hr⟩ := bind_eq_ok_iff.1 hr
    obtain ⟨rfl, rfl⟩ := pure_eq_ok_iff.1 hr
    simp only [delivered, List.mapM_cons, List.mapM_nil, pure_bind] at h
    obtain ⟨z, _, -, h⟩ := bind_eq_ok_iff.1 h
    obtain ⟨rfl, -⟩ := pure_eq_ok_iff.1 h
    exact ⟨z, rfl⟩
  · cases hr

/-- **The start of a reduction** is not matched: a quantity is reduced as its stored value is, whatever its unit. -/
theorem reduce_quantity {f : Elementwise} (hf : f ∈ Elementwise.folding) (q : Quantity (Operand κ))
    (hbare : q.value.isQuantity = false ∧ q.value.isSeries = false) {named : List (String × Operand κ)}
    (hout : ∀ e ∈ named, e.1 ≠ "out") : callWith (.each f) .reduce [.quantity q] named c m =
      (callWith (.each f) .reduce [q.value] named >>= fun z =>
        (pure (inUnitOf ⟨q.dimension, q.scale⟩ z) : Session κ _)) c m := by
  rcases arrange_reduce (.each f) hout with ⟨fault, hfault⟩ | ⟨options, hoptions⟩
  · have hfails (y : Operand κ) : callWith (.each f) .reduce [y] named c m = .error fault := by
      rw [callWith, prepareCall, hfault]
      rfl
    rw [hfails, bind_of_error (hfails _)]
  · have hstored : apply (.each f) (.folded (options none)) [] [q.value] =
        (do return together (← computeBare (.each f) (.folded (options none)) [] [q.value])) := by
      simp only [apply, prepare, List.append_nil, List.any_cons, List.any_nil, hbare, Bool.or_false, Bool.false_eq_true,
        if_false, computeBare, bind_assoc, pure_bind, Prepared.run_map]
    rw [callWith_of_arranged _ (hoptions _), callWith_of_arranged _ (hoptions _), hstored]
    change apply (.each f) _ [] [inUnitOf ⟨q.dimension, q.scale⟩ q.value] c m = _
    rw [apply_one hf]
    cases hzs : computeBare (.each f) (.folded (options none)) [] [q.value] c m with
    | error fault => rw [bind_of_error hzs, bind_of_error (bind_of_error hzs)]
    | ok r =>
      obtain ⟨zs, m₁⟩ := r
      obtain ⟨z, rfl⟩ := computeBare_folded hzs
      rw [bind_of_ok hzs, bind_of_ok (bind_of_ok hzs)]
      rfl

/-- the values at positions of a row, and one for all that are missing -/
def filledRow (row : List (Cell κ)) (is : List Int) (filling : Cell κ) (k : Kind) : List (Cell κ) :=
  is.map fun i => (if i < 0 then filling else (row[i.toNat]?).getD filling).cast k

theorem rowsAt_row {row : List (Cell κ)} {is : List Int} (his : ∀ i ∈ is, i < row.length) (filling : Cell κ) (k : Kind) :
    rowsAt ⟨[row.length], row.map (Cell.cast k)⟩ (is.map fun i => if i < 0 then none else some i.toNat)
      (filling.cast k) = ⟨[is.length], filledRow row is filling k⟩ := by
  have hvolume : Grid.volume ([] : List Nat) = 1 := rfl
  simp only [rowsAt, List.length_map, List.drop_succ_cons, List.drop_zero, hvolume, Nat.mul_one, Grid.mk.injEq,
    true_and, List.flatMap_map, filledRow]
  rw [List.map_eq_flatMap (l := is)]
  refine List.flatMap_congr fun i hi => ?_
  by_cases hneg : i < 0
  · simp only [hneg, if_true]
    rfl
  · have hlt : i.toNat < row.length := by
      have := his i hi
      omega
    simp only [hneg, if_false, List.getElem?_eq_getElem hlt, Option.getD_some]
    rw [List.drop_eq_getElem_cons (by simpa using hlt), List.take_succ_cons, List.take_zero, List.getElem_map]

/-- **Filling** is not matched: whatever number is given stands for the missing values, in the unit of the quantity. -/
theorem take_row {v : View} {n : Nat} {d : Dimension} {s : Scale} (hv : (Operand.array v).IsNumeric m)
    (hn : v.shape = [n]) {at_ : Operand κ} {cell : Cell κ} (hx : x.isQuantity = false ∧ x.isAbsent = false)
    (hcell : cellOf x c m = .ok (cell, m)) {is : List Int} (hat : positions at_ c m = .ok (is, m))
    (his : ∀ i ∈ is, -1 ≤ i ∧ i < n) : ∃ z m', take ⟨.array v, d, s⟩ at_ true x c m = .ok (.quantity ⟨z, d, s⟩, m') ∧
      (z.tensor m').grid = ⟨[is.length], filledRow (m.read v).grid.entries is cell
        (if is.any (· < 0) then (m.read v).kind.join cell.kind else (m.read v).kind)⟩ := by
  have hlength : (m.read v).grid.entries.length = n := hv.filled.length_row ((m.shape_read v).trans hn)
  have hshape : (m.read v).grid.shape = [n] := (m.shape_read v).trans hn
  have hread : readView v c m = .ok (m.read v, m) := rfl
  have hfilling : fillingCell x = cellOf x := by cases x <;> first | rfl | cases hx.2
  have hlow : (is.any (· < -1)) = false := by
    rw [List.any_eq_false]
    intro i hi
    have := (his i hi).1
    simpa using this
  have hhigh : (is.any fun i => decide ((n : Int) ≤ i)) = false := by
    rw [List.any_eq_false]
    intro i hi
    have := (his i hi).2
    simpa using this
  obtain ⟨k, hk⟩ : ∃ k, k = if is.any (· < 0) then (m.read v).kind.join cell.kind else (m.read v).kind := ⟨_, rfl⟩
  have hrun : takePositions (.array v) at_ true x c m = newArray ⟨k, rowsAt ((m.read v).cast k).grid
      (is.map fun i => if i < 0 then none else some i.toNat) (cell.cast k)⟩ c m := by
    simp only [takePositions, if_true, hfilling]
    rw [bind_of_ok hread]
    simp only [hshape, pure_bind]
    rw [bind_of_ok hat]
    simp only [hlow, hhigh, Bool.false_eq_true, if_false]
    rw [bind_of_ok hcell, hk]
  have hgrid : (m.read v).grid = ⟨[(m.read v).grid.entries.length], (m.read v).grid.entries⟩ := by
    rw [hlength, ← hshape]
  have hrows : rowsAt ((m.read v).cast k).grid (is.map fun i => if i < 0 then none else some i.toNat) (cell.cast k) =
      ⟨[is.length], filledRow (m.read v).grid.entries is cell k⟩ := by
    rw [Tensor.cast, hgrid]
    exact rowsAt_row (fun i hi => hlength ▸ (his i hi).2) cell k
  have htake : take ⟨.array v, d, s⟩ at_ true x = (takePositions (.array v) at_ true x >>= fun z =>
      (pure (.quantity ⟨z, d, s⟩) : Session κ (Operand κ))) := by
    cases x <;> first | rfl | cases hx.1
  rw [← hk, htake, bind_of_ok (hrun.trans rfl)]
  exact ⟨_, _, rfl, (congrArg Tensor.grid (m.read_alloc _)).trans hrows⟩

/-! ## All ways -/

/-- a bare number is refused beside a quantity by whatever matches its operands -/
structure RefusesBare (c : Context κ) (m : Store κ) (q : Quantity (Operand κ)) (x : Operand κ) : Prop where
  operators : ∀ o ∈ Operator.matched, operate o (.quantity q) x c m =
    .error (.mismatch q.dimension .one (.apply o.refusalName (.nth 1 "argument")))
  functions : ∀ f : Elementwise, f.arity = 2 → (TensorFunction.each f).rule = .shared →
    callWith (.each f) .plain [.quantity q, x] [] c m =
        .error (.mismatch q.dimension .one (.apply f.name (.nth 1 "argument"))) ∧
      callWith (.each f) .plain [x, .quantity q] [] c m =
        .error (.mismatch .one q.dimension (.apply f.name (.nth 1 "argument")))
  assignment : ∀ key, assign q key x c m =
    .error (.mismatch q.dimension .one (.apply "__setitem__" (.nth 1 "argument")))
  folds : ∀ f ∈ [ArrayFunction.sum, .max, .amax, .min, .amin], ∀ args named as,
    Arguments.bind f.parameters args named = .ok as → as.AreTaken → as.get? "a" = some (.quantity q) →
    as.get? "initial" = some x → applyArrayFunction f args named c m =
      .error (.mismatch q.dimension .one (.apply f.refusalName (.named "'initial'" "argument")))
  closeness : ∀ f ∈ [ArrayFunction.isclose, .allclose], ∀ args named as y,
    Arguments.bind f.parameters args named = .ok as → as.AreTaken → as.get? "a" = some (.quantity q) →
    as.get? "b" = some y → as.get? "atol" = some x → applyArrayFunction f args named c m = .error (
      match commonUnit c.policy ⟨f.name, "argument", [(2, "'atol'")]⟩ [⟨q, false⟩, y.participant m] with
      | .error fault => fault
      | .ok _ => .mismatch q.dimension .one (.apply f.name (.named "'atol'" "argument")))
  joins : ∀ f ∈ [ArrayFunction.concatenate, .stack], ∀ args named as y,
    Arguments.bind f.parameters args named = .ok as → as.AreTaken → as.get? "arrays" = some y →
    y.elements? = some [.quantity q, .list [x]] → applyArrayFunction f args named c m =
      .error (.mismatch q.dimension .one (.apply f.name (.nth 1 "array")))

/-- a bare number goes into a row of a quantity unmatched: as the start of a reduction, and for missing values -/
structure TakesBare (c : Context κ) (m : Store κ) (v : View) (u : StorageUnit) (x : Operand κ) (cell : Cell κ) :
    Prop where
  starts : ∀ f ∈ Elementwise.folding, callWith (.each f) .reduce [inUnitOf u (.array v)] [("initial", x)] c m =
    (callWith (.each f) .reduce [.array v] [("initial", x)] >>= fun z => (pure (inUnitOf u z) : Session κ _)) c m
  started : ∀ f ∈ Elementwise.folding, ∀ y m',
    callWith (.each f) .reduce [inUnitOf u (.array v)] [("initial", x)] c m = .ok (y, m') ↔
      m' = m ∧ ∃ k folded, f.foldingKind (m.read v).kind = .ok k ∧
        Tensor.foldRows f k (.given cell) [(m.read v).grid.entries] = .ok folded ∧ y = inUnitOf u (.item folded)
  fills : ∀ at_ is, positions at_ c m = .ok (is, m) → (∀ i ∈ is, -1 ≤ i ∧ i < (m.read v).grid.entries.length) →
    ∃ z m', take ⟨.array v, u.dimension, u.scale⟩ at_ true x c m = .ok (inUnitOf u z, m') ∧
      (z.tensor m').grid = ⟨[is.length], filledRow (m.read v).grid.entries is cell
        (if is.any (· < 0) then (m.read v).kind.join cell.kind else (m.read v).kind)⟩

/-- **Bare numbers beside quantities.** A bare number that is not zero is refused beside a quantity with a dimension,
under every policy, wherever operands are matched; the start of a reduction and the number for missing values are not
matched, and go in as numbers of whatever unit the quantity has. -/
theorem bare_spec (hd : q.dimension ≠ .one) (hx : x.IsBareNumber m) :
    RefusesBare c m q x ∧
      ∀ v n cell, q.value = .array v → (Operand.array v).IsNumeric m → v.shape = [n] →
        cellOf x c m = .ok (cell, m) → TakesBare c m v ⟨q.dimension, q.scale⟩ x cell := by
  constructor
  · exact {
      operators := fun o ho => operate_refused hd hx ho
      functions := fun f harity hf => callWith_refused hd hx harity hf
      assignment := assign_refused hd hx
      folds := fun f hf args named as hbind htaken ha hinitial => fold_refused hbind htaken hd hx hf ha hinitial
      closeness := fun f hf args named as y hbind htaken ha hb hatol => close_refused hbind htaken hd hx hf ha hb hatol
      joins := fun f hf args named as y hbind htaken harrays hy => join_refused hbind htaken hd hf harrays hy }
  · intro v n cell _ hv hn hcell
    have hlength : (m.read v).grid.entries.length = n := hv.filled.length_row ((m.shape_read v).trans hn)
    obtain ⟨-, hquantity, -⟩ := isPlain_of_bare hx
    have hpresent : x.isAbsent = false := by cases x <;> first | rfl | exact hx.numeric.elim
    constructor
    · intro f hf
      exact reduce_quantity hf ⟨.array v, q.dimension, q.scale⟩ ⟨rfl, rfl⟩ fun e he => by
        rw [List.mem_singleton.1 he]
        exact (by decide : "initial" ≠ "out")
    · intro f hf y m'
      have hstart : startOf (some x) c m = .ok (.given cell, m) := by
        have hgiven : startOf (some x) = (cellOf x >>= fun cell => (pure (.given cell) : Session κ (Start κ))) := by
          cases x <;> first | rfl | cases hpresent
        rw [hgiven, bind_of_ok hcell]
        rfl
      have harranged : arrange (.each f) .reduce [inUnitOf ⟨q.dimension, q.scale⟩ (.array v)] [("initial", x)] =
          .ok ⟨fun k => .folded ⟨.integer 0, false, some x, k⟩, [], [inUnitOf ⟨q.dimension, q.scale⟩ (.array v)]⟩ :=
        rfl
      rw [callWith_of_arranged _ harranged]
      exact reduce_row hf hv hn hstart
    · intro at_ is hat his
      exact take_row hv hn ⟨hquantity, hpresent⟩ hcell hat (hlength ▸ his)

/-- five beside two lengths -/
theorem bare_spec_lengths :
    operate .add (.quantity (twoLengths Float)) (.number 5.0) (underPolicy .strict) (twoNumbers 1.0 2.0) =
      .error (.mismatch { length := 1 } .one (.apply "add" (.nth 1 "argument"))) ∧
    TakesBare (underPolicy .strict) (twoNumbers 1.0 2.0) bothNumbers ⟨{ length := 1 }, .one⟩ (.number (5.0 : Float))
      (.real 5.0) := by
  obtain ⟨hrefused, htaken⟩ := bare_spec (c := underPolicy .strict) (m := twoNumbers 1.0 2.0) (q := twoLengths Float)
    (x := .number 5.0) (by decide) ⟨rfl, trivial, by decide +kernel⟩
  exact ⟨hrefused.operators .add (by decide), htaken _ _ _ rfl (isNumeric_bothNumbers _ _) rfl rfl⟩

/-- **Unmatched.** Five is added to three meters, and seven taken for a length, where the operator refuses both. -/
theorem bare_enters :
    callWith (.each .add) .reduce [.quantity (twoLengths Float)] [("initial", .number 5.0)] (underPolicy .smallerWins)
      (twoNumbers 1.0 2.0) = .ok (.quantity ⟨.item (.real 8.0), { length := 1 }, .one⟩, twoNumbers 1.0 2.0) ∧
    (∃ v m', take (twoLengths Float) (.list [.integer 0, .integer (-1)]) true (.number 7.0) (underPolicy .smallerWins)
        (twoNumbers 1.0 2.0) = .ok (.quantity ⟨.array v, { length := 1 }, .one⟩, m') ∧
      (m'.read v).numbers.entries = [1.0, 7.0]) ∧
    ∀ x ∈ [5.0, 7.0], operate .add (.quantity (twoLengths Float)) (.number x) (underPolicy .smallerWins)
        (twoNumbers 1.0 2.0) = .error (.mismatch { length := 1 } .one (.apply "add" (.nth 1 "argument"))) := by
  have height : (5.0 + Numeric.rowSum [1.0, 2.0] : Float) = 8.0 := by decide +kernel
  rw [← height]
  refine ⟨rfl, ⟨_, _, rfl, by decide +kernel⟩, fun x hx => ?_⟩
  have hnonzero : Numeric.isZero x = false := by
    rcases List.mem_cons.1 hx with rfl | hx
    · decide +kernel
    · cases List.mem_singleton.1 hx
      decide +kernel
  have hbare : (Operand.number x).IsBareNumber (twoNumbers 1.0 2.0) := ⟨rfl, trivial, hnonzero⟩
  exact operate_refused (by decide) hbare (by decide)

end Session

end UnitAlgebra

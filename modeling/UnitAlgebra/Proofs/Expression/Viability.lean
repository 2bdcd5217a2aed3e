/-
Which token a text is refused for. The machine goes on exactly as long as there is hope: whatever it has taken can be
completed to an expression, by an operand or an exponent where one is due and a parenthesis for each that is open, and
no expression goes on with a token that it refuses. So a fault with a position tells the first token that cannot be
right, and an expression that ends too early is the beginning of another.

Results:
- `FormatFault.message_of_position?`: a message ends with the place that it names.
- `Machine.exists_completion`: every machine can be brought to an end.
- `viable_of_run`: what the machine has taken is the beginning of an expression.
- `not_viable_of_step`: with a token that it refuses it is not.
- `parse_first_hopeless`: the position of a fault is that of the first hopeless token.
-/
import UnitAlgebra.Fault.Message
import UnitAlgebra.Proofs.Expression.Runs

namespace UnitAlgebra

/-- the place in the expression that a message names -/
def FormatFault.position? : FormatFault → Option Nat
  | unexpectedCharacter _ position _ | expected _ _ position _ | unexpectedToken _ position _
  | signedNumber _ position _ => some position
  | _ => none

/-- The message ends with the place. -/
theorem FormatFault.message_of_position? {cause : FormatFault} {position : Nat} (h : cause.position? = some position) :
    ∃ before text, cause.message = before ++ atPosition position text := by
  cases cause with
  | unexpectedCharacter | expected | unexpectedToken | signedNumber =>
    cases h
    exact ⟨_, _, rfl⟩
  | _ => cases h

namespace Expression

open Text

/-! ## Beginnings of expressions -/

/-- the terminals of a text that is parsed -/
def Accepted (ts : List Terminal) : Prop := ∃ text : String, Reads (trim text.toList) ts ∧ ∃ n, parse text = .ok n

/-- terminals that can be completed to an expression -/
def Viable (ts : List Terminal) : Prop := ∃ us, Accepted (ts ++ us)

theorem Accepted.exists_run {ts : List Terminal} (h : Accepted ts) :
    ∃ m n, Machine.start.run (ts.map Terminal.token) = .ok m ∧ m.finish? = some n := by
  obtain ⟨text, hreads, n, hparse⟩ := h
  obtain ⟨m, hrun, hfinish⟩ := (parse_eq_ok_iff_run hreads).1 hparse
  exact ⟨m, n, hrun, hfinish⟩

/-! ## Completions -/

/-- terminals that are spelled by a text of their own and bring the machine to an end -/
structure Completes (m : Machine) (cs : List Char) (us : List Terminal) : Prop where
  reads : Reads cs us
  apart : Apart cs
  ends : ∃ n t, m.run (us.map Terminal.token) = .ok n ∧ n.finish? = some t

theorem Completes.cons {m m' : Machine} {word cs : List Char} {t : Terminal} {us : List Terminal}
    (h : Completes m' cs us) (hstep : m.step t.token = .ok m') (hword : Reads word [t]) :
    Completes m (' ' :: (word ++ cs)) (t :: us) where
  reads := .cons (.blank rfl) (hword.append h.reads h.apart)
  apart := fun c hc => by
    cases hc
    exact .inr rfl
  ends := by
    obtain ⟨n, tree, hrun, hfinish⟩ := h.ends
    exact ⟨n, tree, Machine.run_cons_eq_ok.2 ⟨m', hstep, hrun⟩, hfinish⟩

theorem exists_completes_atom (level : Level) (outer : List Level) (t : UnitExpr) :
    ∃ cs us, Completes ⟨level, outer, .atom t⟩ cs us := by
  induction outer generalizing level t with
  | nil => exact ⟨[], [], .nil, nofun, _, _, rfl, rfl⟩
  | cons inner outer ih =>
    obtain ⟨cs, us, h⟩ := ih inner (level.close t)
    exact ⟨_, _, h.cons rfl (.mark (c := ')') rfl .nil)⟩

theorem exists_completes_power (level : Level) (outer : List Level) (t : UnitExpr) :
    ∃ cs us, Completes ⟨level, outer, .power t⟩ cs us := by
  cases outer with
  | nil => exact ⟨[], [], .nil, nofun, _, _, rfl, rfl⟩
  | cons inner outer =>
    obtain ⟨cs, us, h⟩ := exists_completes_atom inner outer (level.close t)
    exact ⟨_, _, h.cons rfl (.mark (c := ')') rfl .nil)⟩

theorem reads_letters (cs : List Char) (hne : cs ≠ []) (h : cs.all isNameChar = true) :
    Reads cs [.name (String.ofList cs)] := by
  let n : Name := ⟨cs, hne, List.all_eq_true.1 h⟩
  have hbare : ∀ l : Literal, ¬ l.chars <+: [] := by
    intro l hl
    obtain ⟨d, ds, hsplit, -⟩ := l.exists_head
    rw [hsplit] at hl
    cases List.prefix_nil.1 hl
  have hname : Reads (n.chars ++ []) [n.terminal] := .cons (.name n (stopsAt_nil _) hbare) .nil
  rwa [List.append_nil] at hname

theorem reads_digit {c : Char} (h : isDecimal c = true) : ∃ n, Reads [c] [.integer n] ∧ n.digits = 1 := by
  let l : Literal := ⟨none, [c], by simp, List.cons_ne_nil _ _, fun d hd => List.mem_singleton.1 hd ▸ h⟩
  exact ⟨l.numeral, .cons (.literal l (stopsAt_nil _)) .nil, l.digits_numeral⟩

/-- **Every machine can be brought to an end.** -/
theorem Machine.exists_completion (m : Machine) : ∃ cs us, Completes m cs us := by
  obtain ⟨level, outer, phase⟩ := m
  cases phase with
  | atom t => exact exists_completes_atom level outer t
  | operand =>
    obtain ⟨cs, us, h⟩ := exists_completes_atom level outer (.identifier (String.ofList ['m']))
    exact ⟨_, _, h.cons rfl (reads_letters ['m'] (by simp) (by decide))⟩
  | exponent base =>
    obtain ⟨n, hn, hdigits⟩ := reads_digit (c := '1') rfl
    obtain ⟨cs, us, h⟩ := exists_completes_power level outer (.pow base n.value)
    refine ⟨_, _, h.cons ?_ hn⟩
    exact (Machine.step_exponent ..).trans (if_neg (by rw [hdigits]; decide))
  | power t => exact exists_completes_power level outer t

/-! ## What the machine takes and what it refuses -/

/-- **What is taken can be completed.** -/
theorem viable_of_run {front : List Char} {ts : List Terminal} {m : Machine} (h : Reads front ts)
    (hrun : Machine.start.run (ts.map Terminal.token) = .ok m) : Viable ts := by
  obtain ⟨cs, us, hc⟩ := m.exists_completion
  obtain ⟨n, t, hrest, hfinish⟩ := hc.ends
  have hreads : Reads (trim (String.ofList (front ++ cs)).toList) (ts ++ us) := by
    rw [String.toList_ofList]
    exact (h.append hc.reads hc.apart).trim
  refine ⟨us, _, hreads, t, (parse_eq_ok_iff_run hreads).2 ⟨n, ?_, hfinish⟩⟩
  rw [List.map_append]
  exact Machine.run_append_eq_ok.2 ⟨m, hrun, hrest⟩

/-- **What is refused cannot.** No expression goes on with a terminal that the machine refuses. -/
theorem not_viable_of_step {ts : List Terminal} {t : Terminal} {m : Machine} {refusal : Refusal}
    (hrun : Machine.start.run (ts.map Terminal.token) = .ok m) (hstep : m.step t.token = .error refusal) :
    ¬ Viable (ts ++ [t]) := by
  rintro ⟨us, haccepted⟩
  obtain ⟨n, -, hwhole, -⟩ := haccepted.exists_run
  rw [List.append_assoc, List.map_append] at hwhole
  obtain ⟨m', hbefore, hrest⟩ := Machine.run_append_eq_ok.1 hwhole
  cases hrun.symm.trans hbefore
  obtain ⟨m', htaken, -⟩ := Machine.run_cons_eq_ok.1 hrest
  cases hstep.symm.trans htaken

/-- a token that is refused for its length shows an integer that is too long -/
theorem long_of_step {m : Machine} {token : Token} {t : Terminal} (h : token.Shows t)
    (hm : m.step token = .error .tooManyDigits) : ¬ t.Short := by
  intro hshort
  rw [Machine.step_of_shows m h] at hm
  obtain ⟨level, outer, phase⟩ := m
  cases t with
  | integer n =>
    have hn := Nat.not_lt.2 (hshort n rfl)
    cases n <;> cases phase <;> cases outer <;>
      simp_all [Terminal.token, Terminal.symbol, Machine.step, Machine.takeOperand, Machine.takeOperator,
        Numeral.digits, Numeral.isSigned]
  | _ => cases phase <;> cases outer <;> cases hm

theorem exists_step_of_run {m : Machine} {tokens : List Token} {ts : List Terminal} {refusal : Refusal} {token : Token}
    (h : List.Forall₂ Token.Shows tokens ts) (hm : m.run tokens = .error (refusal, token)) :
    ∃ t ∈ ts, token.Shows t ∧ ∃ n : Machine, n.step token = .error refusal := by
  induction h generalizing m with
  | nil => cases hm
  | @cons first t _ ts ht _ ih =>
    rw [Machine.run] at hm
    split at hm
    · obtain ⟨u, hu, hshows, hstep⟩ := ih hm
      exact ⟨u, List.mem_cons_of_mem t hu, hshows, hstep⟩
    · next hstep =>
      cases hm
      exact ⟨t, List.mem_cons_self, ht, m, hstep⟩

/-! ## Faults of the parser -/

/-- the position stands before the first terminal that no expression can have there -/
def FirstHopeless (cs : List Char) (ts : List Terminal) (position : Nat) : Prop :=
  ∃ before t after, ts = before ++ t :: after ∧ Reads (cs.take position) before ∧
    Reads (cs.drop position) (t :: after) ∧ Viable before ∧ ¬ Viable (before ++ [t])

/-- a refused token stands at the first hopeless terminal -/
theorem firstHopeless_of_run {cs : List Char} {ts : List Terminal} {found : List Token} {refusal : Refusal}
    {token : Token} (h : Reads cs ts) (hscan : scan 0 cs = .ok found)
    (hrun : Machine.start.run found = .error (refusal, token)) (hr : refusal ≠ .tooManyDigits) :
    FirstHopeless cs ts token.position := by
  obtain ⟨front, back, before, t, after, m, rfl, hposition, hall, hfront, hback, htoken, hbefore, hstep⟩ :=
    scan_refused hscan hrun hr
  rw [Nat.zero_add] at hposition
  rw [Machine.step_of_shows m htoken] at hstep
  refine ⟨before, t, after, h.unique hall, ?_, ?_, viable_of_run hfront hbefore, not_viable_of_step hbefore hstep⟩
  · rwa [List.take_left' hposition.symm]
  · rwa [List.drop_left' hposition.symm]

/-- **Faults tell the first hopeless token.** A text that is read as tokens and not parsed is refused at the first token
that no expression can have there, or it ends before an expression does, or an integer in it is too long. -/
theorem parse_first_hopeless {text : String} {ts : List Terminal} {fault : Fault} (h : Reads (trim text.toList) ts)
    (hp : parse text = .error fault) :
    (∀ cause position, fault = .format cause → cause.position? = some position →
      FirstHopeless (trim text.toList) ts position) ∧
    (∀ shown, fault = .format (.unexpectedEnd shown) ∨ fault = .format .empty → Viable ts) ∧
    ((∃ cause position, fault = .format cause ∧ cause.position? = some position) ∨
      (fault = .format (.unexpectedEnd (trimmed text)) ∨ fault = .format .empty) ∨
        fault = .badValue none ∧ ∃ t ∈ ts, ¬ t.Short) := by
  obtain ⟨found, hscan, hshows, hparse⟩ := parse_of_reads_of_shows h
  cases hrun : Machine.start.run found with
  | ok m =>
    -- nothing is refused, so that something is missing
    have hviable : Viable ts := viable_of_run h ((Machine.run_of_shows hshows).1 hrun)
    have hend : fault = .format (.unexpectedEnd (trimmed text)) ∨ fault = .format .empty := by
      rw [hparse m hrun] at hp
      split at hp
      · cases hp
      · cases hp
        split
        · exact .inr rfl
        · exact .inl rfl
    refine ⟨fun cause position hc hposition => ?_, fun _ _ => hviable, .inr (.inl hend)⟩
    rcases hend with rfl | rfl <;> cases hc <;> cases hposition
  | error refused =>
    obtain ⟨refusal, token⟩ := refused
    have hfault : fault = refusalFault (trimmed text) (refusal, token) := by
      rw [parse_of_scan hscan, hrun, if_neg (by rintro hempty; cases List.isEmpty_iff.1 hempty; cases hrun)] at hp
      exact (Except.error.inj hp).symm
    by_cases hr : refusal = .tooManyDigits
    · obtain ⟨t, ht, htoken, m, hstep⟩ := exists_step_of_run hshows hrun
      subst hr hfault
      exact ⟨nofun, nofun, .inr (.inr ⟨rfl, t, ht, long_of_step htoken hstep⟩)⟩
    · have hfirst := firstHopeless_of_run h hscan hrun hr
      have hposition : ∃ cause, fault = .format cause ∧ cause.position? = some token.position := by
        subst hfault
        cases refusal with
        | tooManyDigits => exact absurd rfl hr
        | _ => exact ⟨_, rfl, rfl⟩
      obtain ⟨cause, rfl, hcause⟩ := hposition
      refine ⟨fun cause' position hc hposition => ?_, ?_, .inl ⟨cause, _, rfl, hcause⟩⟩
      · cases hc
        rw [hcause] at hposition
        cases hposition
        exact hfirst
      · rintro _ (hc | hc) <;> cases hc <;> cases hcause

/-- in `m*(kg/)` the closing parenthesis stands where an operand is due -/
theorem parse_first_hopeless_group :
    Reads (trim "m*(kg/)".toList) [.name "m", .times, .opening, .name "kg", .slash, .closing] ∧
    parse "m*(kg/)" = .error (.format (.unexpectedToken ")" 6 "m*(kg/)")) ∧
    FirstHopeless (trim "m*(kg/)".toList) [.name "m", .times, .opening, .name "kg", .slash, .closing] 6 := by
  have hinner : Reads ['k', 'g', '/', ')'] [.name "kg", .slash, .closing] :=
    (reads_letters ['k', 'g'] (by simp) (by decide)).append (.mark (c := '/') rfl (.mark (c := ')') rfl .nil))
      (apart_mark (t := .slash) rfl _)
  have hreads : Reads "m*(kg/)".toList [.name "m", .times, .opening, .name "kg", .slash, .closing] :=
    (reads_letters ['m'] (by simp) (by decide)).append (.mark (c := '*') rfl (.mark (c := '(') rfl hinner))
      (apart_mark (t := .times) rfl _)
  have hp : parse "m*(kg/)" = .error (.format (.unexpectedToken ")" 6 "m*(kg/)")) := by decide +kernel
  exact ⟨hreads.trim, hp, (parse_first_hopeless hreads.trim hp).1 _ 6 rfl rfl⟩

end Expression

end UnitAlgebra

/-
Runs of the machine over terminals. A step looks at no more of a token than the terminal that it shows, so what a text
is parsed to is told by the run over its terminals, and so is the token that it is refused for. The shorthand for a
power is three tokens at once, of which only the first can be out of place.

Results:
- `Machine.step_of_shows`, `Machine.run_of_shows`: tokens that show the same terminals are taken alike.
- `parse_eq_ok_iff_run`: a text is parsed to the tree of the run over its terminals.
- `parse_refused`: a terminal that the machine refuses decides on the fault.
- `scan_refused`: the text before a refused token, and the text from it on.
-/
import UnitAlgebra.Proofs.Expression.Grammar
import UnitAlgebra.Proofs.Expression.Splitting

namespace UnitAlgebra.Expression

open Text

/-! ## Tokens for terminals -/

/-- a token for a terminal, at no position in particular -/
def Terminal.token : Terminal → Token
  | name text => ⟨.name, text, 0⟩
  | t => ⟨t.symbol, "", 0⟩

namespace Machine

/-- A step looks at no more of a token than its terminal. -/
theorem step_of_shows (m : Machine) {token : Token} {t : Terminal} (h : token.Shows t) :
    m.step token = m.step t.token := by
  obtain ⟨symbol, text, position⟩ := token
  obtain ⟨hsymbol, htext⟩ := h
  obtain ⟨level, outer, phase⟩ := m
  cases t with
  | name s =>
    obtain rfl : symbol = .name := hsymbol
    obtain rfl : text = s := htext s rfl
    rfl
  | integer n =>
    obtain rfl : symbol = .integer n.isSigned n.value n.digits := hsymbol
    cases phase <;> cases outer <;> cases n <;> rfl
  | _ =>
    subst hsymbol
    cases phase <;> cases outer <;> rfl

theorem run_append_eq_ok {m n : Machine} {first second : List Token} : m.run (first ++ second) = .ok n ↔
    ∃ m', m.run first = .ok m' ∧ m'.run second = .ok n := by
  rw [run_append]
  cases m.run first with
  | error refused => simp [Except.bind]
  | ok m' => simp [Except.bind]

theorem run_cons_eq_ok {m n : Machine} {token : Token} {rest : List Token} : m.run (token :: rest) = .ok n ↔
    ∃ m', m.step token = .ok m' ∧ m'.run rest = .ok n := by
  rw [run]
  cases m.step token with
  | error refusal => simp
  | ok m' => simp

/-- the rest of a run decides where the first half goes through -/
theorem run_append_of_ok {m m' : Machine} {first : List Token} (h : m.run first = .ok m') (second : List Token) :
    m.run (first ++ second) = m'.run second := by
  rw [run_append, h]
  rfl

/-- Tokens that show the same terminals are taken alike. -/
theorem run_of_shows {m n : Machine} {tokens : List Token} {ts : List Terminal}
    (h : List.Forall₂ Token.Shows tokens ts) : m.run tokens = .ok n ↔ m.run (ts.map Terminal.token) = .ok n := by
  induction h generalizing m with
  | nil => exact .rfl
  | cons ht _ ih =>
    rw [List.map_cons, run_cons_eq_ok, run_cons_eq_ok, step_of_shows m ht]
    exact exists_congr fun m' => and_congr_right fun _ => ih

theorem step_name {m n : Machine} {s : String} : m.step (Terminal.name s).token = .ok n ↔
    m.phase = .operand ∧ n = { m with phase := .atom (.identifier s) } := by
  obtain ⟨level, outer, phase⟩ := m
  cases phase with
  | operand => exact ⟨fun h => ⟨rfl, (Except.ok.inj h).symm⟩, fun ⟨_, h⟩ => h ▸ rfl⟩
  | exponent base => exact ⟨nofun, fun h => nomatch h.1⟩
  | atom t | power t => cases outer <;> exact ⟨nofun, fun h => nomatch h.1⟩

theorem step_exponent (level : Level) (outer : List Level) (base : UnitExpr) (n : Numeral) :
    (⟨level, outer, .exponent base⟩ : Machine).step (Terminal.integer n).token =
      if digitLimit < n.digits then .error .tooManyDigits else .ok ⟨level, outer, .power (.pow base n.value)⟩ := rfl

end Machine

/-! ## Parsing by runs -/

theorem parse_of_reads_of_shows {text : String} {ts : List Terminal} (h : Reads (trim text.toList) ts) :
    ∃ found, scan 0 (trim text.toList) = .ok found ∧ List.Forall₂ Token.Shows found ts ∧
      ∀ m, Machine.start.run found = .ok m → parse text = match m.finish? with
        | some t => .ok t
        | none => .error (.format (if ts = [] then .empty else .unexpectedEnd (trimmed text))) := by
  obtain ⟨found, hscan, hshows⟩ := h.exists_scan 0
  refine ⟨found, hscan, hshows, fun m hm => ?_⟩
  rw [parse_of_scan hscan]
  cases hshows with
  | nil =>
    cases hm
    rfl
  | cons =>
    rw [if_neg (by simp), hm]
    cases hfinish : m.finish? with
    | some t =>
      change (match m.finish? with | some t => _ | none => _) = _
      rw [hfinish]
    | none =>
      change (match m.finish? with | some t => _ | none => _) = _
      rw [hfinish]
      exact congrArg (fun cause => Except.error (Fault.format cause)) (if_neg (by simp)).symm

/-- **Parsing by runs.** A text is parsed to the tree that the run over its terminals ends with. -/
theorem parse_eq_ok_iff_run {text : String} {ts : List Terminal} (h : Reads (trim text.toList) ts) {n : UnitExpr} :
    parse text = .ok n ↔ ∃ m, Machine.start.run (ts.map Terminal.token) = .ok m ∧ m.finish? = some n := by
  obtain ⟨found, hscan, hshows, hparse⟩ := parse_of_reads_of_shows h
  constructor
  · intro hn
    cases hrun : Machine.start.run found with
    | error refused =>
      rw [parse_of_scan hscan, hrun] at hn
      split at hn <;> cases hn
    | ok m =>
      rw [hparse m hrun] at hn
      refine ⟨m, (Machine.run_of_shows hshows).1 hrun, ?_⟩
      split at hn
      · next t ht =>
        cases hn
        exact ht
      · cases hn
  · rintro ⟨m, hrun, hfinish⟩
    rw [hparse m ((Machine.run_of_shows hshows).2 hrun), hfinish]

/-- **A refused terminal decides on the fault.** Whatever follows it, the text is refused for its token. -/
theorem parse_refused {text : String} {ts us : List Terminal} {t : Terminal} {m : Machine} {refusal : Refusal}
    (h : Reads (trim text.toList) (ts ++ t :: us)) (hrun : Machine.start.run (ts.map Terminal.token) = .ok m)
    (hstep : m.step t.token = .error refusal) :
    ∃ token, token.Shows t ∧ parse text = .error (refusalFault (trimmed text) (refusal, token)) := by
  obtain ⟨found, hscan, hshows⟩ := h.exists_scan 0
  have hbefore := List.forall₂_take_append found ts (t :: us) hshows
  have hafter := List.forall₂_drop_append found ts (t :: us) hshows
  obtain ⟨token, rest, htoken, -, hrest⟩ := List.forall₂_cons_right_iff.1 hafter
  refine ⟨token, htoken, ?_⟩
  have hfound : Machine.start.run found = .error (refusal, token) := by
    rw [← List.take_append_drop ts.length found,
      Machine.run_append_of_ok ((Machine.run_of_shows hbefore).2 hrun), hrest, Machine.run,
      Machine.step_of_shows m htoken, hstep]
  rw [parse_of_scan hscan, hfound, if_neg]
  rintro hempty
  rw [List.isEmpty_iff.1 hempty] at hshows
  cases ts <;> cases hshows

/-! ## Refused tokens -/

/-- the first token of a lexeme stands where the lexeme begins -/
theorem position_of_lexeme {position : Nat} {c : Char} {rest after : List Char} {tokens : List Token}
    (h : lexeme position c rest = some (tokens, after)) {token : Token} (ht : tokens.head? = some token) :
    token.position = position := by
  have hdigits : ∀ {sign : Option Char} {cs rest : List Char} {t : Token},
      digitsAt position sign cs = some (t, rest) → t.position = position := by
    intro sign cs rest t hd
    simp only [digitsAt] at hd
    split at hd
    · cases hd
    · cases hd
      rfl
  cases hb : isBlank c with
  | true =>
    rw [lexeme_of_isBlank hb] at h
    cases h
    cases ht
  | false =>
  cases hm : mark? c with
  | some t =>
    rw [lexeme_of_mark? hm] at h
    cases h
    cases ht
    rfl
  | none =>
  cases hi : integerAt position (c :: rest) with
  | some found =>
    obtain ⟨first, tail⟩ := found
    rw [lexeme_of_literal hb hm position rest hi] at h
    cases h
    cases ht
    unfold integerAt at hi
    split at hi
    · cases hi
    · next heq =>
      cases heq
      split at hi <;> exact hdigits hi
  | none =>
    rw [lexeme_of_unmarked hb hm position rest hi] at h
    split at h
    · cases h
      cases ht
      rfl
    · cases h

/-- of the tokens of a lexeme only the first can be out of place -/
theorem Lexeme.refused {cs rest : List Char} {ts : List Terminal} (h : Lexeme cs ts rest) {tokens : List Token}
    (hs : List.Forall₂ Token.Shows tokens ts) {m : Machine} {refusal : Refusal} {token : Token}
    (hrun : m.run tokens = .error (refusal, token)) (hr : refusal ≠ .tooManyDigits) :
    tokens.head? = some token ∧ m.step token = .error refusal := by
  have hone : ∀ {t : Terminal}, List.Forall₂ Token.Shows tokens [t] →
      tokens.head? = some token ∧ m.step token = .error refusal := by
    intro t hs
    obtain ⟨first, rest, -, hnil, rfl⟩ := List.forall₂_cons_right_iff.1 hs
    cases hnil
    rw [Machine.run] at hrun
    cases hstep : m.step first with
    | ok m' =>
      rw [hstep] at hrun
      cases hrun
    | error =>
      rw [hstep] at hrun
      cases hrun
      exact ⟨rfl, hstep⟩
  cases h with
  | blank =>
    cases hs
    cases hrun
  | mark => exact hone hs
  | literal => exact hone hs
  | name => exact hone hs
  | raised n l =>
    cases hs with
    | @cons first _ _ _ hfirst hs =>
    cases hs with
    | @cons caret _ _ _ hcaret hs =>
    cases hs with
    | @cons exponent _ _ _ hexponent hs =>
    cases hs
    rw [Machine.run] at hrun
    cases hstep : m.step first with
    | error =>
      rw [hstep] at hrun
      cases hrun
      exact ⟨rfl, hstep⟩
    | ok m' =>
      -- a name that is taken may be raised to any power that is not too long
      rw [Machine.step_of_shows m hfirst] at hstep
      obtain ⟨-, rfl⟩ := Machine.step_name.1 hstep
      rw [Machine.step_of_shows m hfirst, hstep] at hrun
      change Machine.run ⟨m.level, m.outer, .atom _⟩ [caret, exponent] = _ at hrun
      rw [Machine.run, Machine.step_of_shows _ hcaret] at hrun
      change Machine.run ⟨m.level, m.outer, .exponent _⟩ [exponent] = _ at hrun
      rw [Machine.run, Machine.step_of_shows _ hexponent, Literal.terminal, Machine.step_exponent] at hrun
      split at hrun
      · next heq =>
        cases hrun
      · next heq =>
        cases hrun
        split at heq
        · cases heq
          exact absurd rfl hr
        · cases heq

/-- **Where a text is refused.** What stands before the refused token is read on its own and taken by the machine; the
rest of the text begins with the token. -/
theorem scan_refused {position : Nat} {cs : List Char} {found : List Token} {m : Machine} {refusal : Refusal}
    {token : Token} (hscan : scan position cs = .ok found) (hrun : m.run found = .error (refusal, token))
    (hr : refusal ≠ .tooManyDigits) : ∃ front back ts t us n, cs = front ++ back ∧
      token.position = position + front.length ∧ Reads cs (ts ++ t :: us) ∧ Reads front ts ∧ Reads back (t :: us) ∧
      token.Shows t ∧ m.run (ts.map Terminal.token) = .ok n ∧ n.step token = .error refusal := by
  fun_induction scan position cs generalizing found m with
  | case1 =>
    cases hscan
    cases hrun
  | case2 => cases hscan
  | case3 position c rest first after hlex ih =>
    obtain ⟨ts, hl, hshows⟩ := exists_lexeme hlex
    obtain ⟨word, hword, -, -, hcut⟩ := hl.exists_word
    cases hothers : scan (position + (rest.length + 1 - after.length)) after with
    | error refused =>
      rw [hothers] at hscan
      cases hscan
    | ok others =>
    rw [hothers] at hscan
    cases hscan
    cases hfirst : m.run first with
    | error refused =>
      -- the lexeme is refused at its first token
      rw [Machine.run_append, hfirst] at hrun
      cases hrun
      obtain ⟨hhead, hstep⟩ := hl.refused hshows hfirst hr
      obtain ⟨us, hus, -⟩ := exists_reads_of_scan hothers
      cases hshows with
      | nil => cases hhead
      | @cons token' t _ ts htoken hrest =>
        cases hhead
        have hall : Reads (c :: rest) (t :: (ts ++ us)) := .cons hl hus
        exact ⟨[], c :: rest, [], t, ts ++ us, m, rfl, position_of_lexeme hlex rfl, hall, .nil, hall, htoken, rfl,
          hstep⟩
    | ok m' =>
      rw [Machine.run_append_of_ok hfirst] at hrun
      obtain ⟨front, back, vs, t, us, n, rfl, hposition, hall, hfront, hback, htoken, hvs, hstep⟩ := ih hothers hrun
      refine ⟨word ++ front, back, ts ++ vs, t, us, n, by rw [hword, List.append_assoc], ?_,
        List.append_assoc ts vs _ ▸ .cons hl hall, .cons (hcut front (List.prefix_append _ _)) hfront, hback, htoken,
        ?_, hstep⟩
      · have hlength := congrArg List.length hword
        simp only [List.length_cons, List.length_append] at hlength hposition ⊢
        omega
      · rw [List.map_append]
        exact Machine.run_append_eq_ok.2 ⟨m', (Machine.run_of_shows hshows).1 hfirst, hvs⟩

end UnitAlgebra.Expression

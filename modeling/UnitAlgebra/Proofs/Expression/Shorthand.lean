/-
The shorthand for powers, `s2` for `s^2`. It can stand wherever the name alone can, and says what the power in
parentheses says, unless an exponent follows: `(s^2)^3` is an expression, and `s2^3` is refused at the caret, since the
digits behind the name are an exponent already and a power takes no further one.

Results:
- `Machine.Alike.run`: which trees a machine holds has no part in what it takes.
- `Machine.run_power_iff`: a power is continued like an atom with the same tree, but for a caret.
- `Alone.reads`: a name on its own is a terminal of the text around it.
- `shorthand_spec`: what a name with digits behind it is parsed to.
- `shorthand_no_atom`: a name with digits behind it cannot be raised to a power.
-/
import UnitAlgebra.Proofs.Expression.Runs

namespace UnitAlgebra.Expression

open Text

/-! ## Machines that hold other trees -/

/-- two phases that wait for the same -/
def Phase.Alike : Phase → Phase → Prop
  | .operand, .operand | .atom _, .atom _ | .exponent _, .exponent _ | .power _, .power _ => True
  | _, _ => False

namespace Machine

/-- two machines that differ in their trees at most -/
structure Alike (m n : Machine) : Prop where
  depth : m.outer.length = n.outer.length
  phase : m.phase.Alike n.phase

theorem Alike.takeOperator {m n m' : Machine} (h : m.outer.length = n.outer.length) {t u : UnitExpr} {token : Token}
    (hm : m.takeOperator t token = .ok m') : ∃ n', n.takeOperator u token = .ok n' ∧ m'.Alike n' := by
  obtain ⟨level, outer, phase⟩ := m
  obtain ⟨level', outer', phase'⟩ := n
  obtain ⟨symbol, text, position⟩ := token
  cases symbol with
  | times | slash =>
    cases hm
    exact ⟨_, rfl, h, trivial⟩
  | closing =>
    cases outer with
    | nil => cases hm
    | cons inner outer =>
      cases outer' with
      | nil => cases h
      | cons inner' outer' =>
        cases hm
        exact ⟨_, rfl, Nat.succ.inj h, trivial⟩
  | _ => cases outer <;> cases hm

theorem Alike.step {m n m' : Machine} (h : m.Alike n) {token : Token} (hm : m.step token = .ok m') :
    ∃ n', n.step token = .ok n' ∧ m'.Alike n' := by
  obtain ⟨level, outer, phase⟩ := m
  obtain ⟨level', outer', phase'⟩ := n
  obtain ⟨hdepth, hphase⟩ := h
  cases phase with
  | operand =>
    cases phase' with
    | operand =>
      obtain ⟨symbol, text, position⟩ := token
      cases symbol with
      | opening =>
        cases hm
        exact ⟨_, rfl, congrArg Nat.succ hdepth, trivial⟩
      | name =>
        cases hm
        exact ⟨_, rfl, hdepth, trivial⟩
      | integer signed value digits =>
        cases signed with
        | true => cases hm
        | false =>
          change (if digitLimit < digits then _ else _) = _ at hm
          split at hm
          · cases hm
          · next hdigits =>
            cases hm
            exact ⟨_, if_neg hdigits, hdepth, trivial⟩
      | _ => cases hm
    | _ => exact hphase.elim
  | atom t =>
    cases phase' with
    | atom t' =>
      change (if token.symbol = .caret then _ else Machine.takeOperator _ t token) = _ at hm
      split at hm
      · next hcaret =>
        cases hm
        exact ⟨_, if_pos hcaret, hdepth, trivial⟩
      · next hcaret =>
        obtain ⟨n', hn, halike⟩ := Alike.takeOperator (n := ⟨level', outer', .atom t'⟩) (u := t') hdepth hm
        exact ⟨n', (if_neg hcaret).trans hn, halike⟩
    | _ => exact hphase.elim
  | exponent base =>
    cases phase' with
    | exponent base' =>
      obtain ⟨symbol, text, position⟩ := token
      cases symbol with
      | integer signed value digits =>
        change (if digitLimit < digits then _ else _) = _ at hm
        split at hm
        · cases hm
        · next hdigits =>
          cases hm
          exact ⟨_, if_neg hdigits, hdepth, trivial⟩
      | _ => cases hm
    | _ => exact hphase.elim
  | power t =>
    cases phase' with
    | power t' => exact Alike.takeOperator (n := ⟨level', outer', .power t'⟩) hdepth hm
    | _ => exact hphase.elim

/-- **Trees have no part in what is taken.** -/
theorem Alike.run {m n m' : Machine} (h : m.Alike n) {tokens : List Token} (hm : m.run tokens = .ok m') :
    ∃ n', n.run tokens = .ok n' ∧ m'.Alike n' := by
  induction tokens generalizing m n with
  | nil =>
    cases hm
    exact ⟨n, rfl, h⟩
  | cons token tokens ih =>
    obtain ⟨m₁, hstep, hrun⟩ := run_cons_eq_ok.1 hm
    obtain ⟨n₁, hstep', halike⟩ := h.step hstep
    obtain ⟨n', hrun', halike'⟩ := ih halike hrun
    exact ⟨n', run_cons_eq_ok.2 ⟨n₁, hstep', hrun'⟩, halike'⟩

theorem Alike.exists_finish? {m n : Machine} (h : m.Alike n) {t : UnitExpr} (hm : m.finish? = some t) :
    ∃ u, n.finish? = some u := by
  obtain ⟨level, outer, phase⟩ := m
  obtain ⟨level', outer', phase'⟩ := n
  obtain ⟨hdepth, hphase⟩ := h
  cases outer with
  | cons inner outer => cases phase <;> cases hm
  | nil =>
    obtain rfl : outer' = [] := List.length_eq_zero_iff.1 hdepth.symm
    cases phase <;> cases phase' <;> first | exact hphase.elim | (cases hm; done) | exact ⟨_, rfl⟩

/-- **Powers are continued like atoms.** Where no caret follows, a power and an atom of one tree come to the same. -/
theorem run_power_iff {level : Level} {outer : List Level} {t u : UnitExpr} {us : List Terminal}
    (h : us.head? ≠ some .caret) :
    (∃ n, (⟨level, outer, .power t⟩ : Machine).run (us.map Terminal.token) = .ok n ∧ n.finish? = some u) ↔
      ∃ n, (⟨level, outer, .atom t⟩ : Machine).run (us.map Terminal.token) = .ok n ∧ n.finish? = some u := by
  cases us with
  | nil =>
    have hfinish : (⟨level, outer, .power t⟩ : Machine).finish? = (⟨level, outer, .atom t⟩ : Machine).finish? := by
      cases outer <;> rfl
    constructor
    · rintro ⟨n, hn, hu⟩
      cases hn
      exact ⟨_, rfl, hfinish ▸ hu⟩
    · rintro ⟨n, hn, hu⟩
      cases hn
      exact ⟨_, rfl, hfinish ▸ hu⟩
  | cons v us =>
    have hstep : (⟨level, outer, .power t⟩ : Machine).step v.token =
        (⟨level, outer, .atom t⟩ : Machine).step v.token := by
      cases v with
      | caret => exact absurd rfl h
      | _ => rfl
    rw [List.map_cons, run, run, hstep]

theorem step_power_caret (level : Level) (outer : List Level) (t : UnitExpr) :
    ∃ refusal, (⟨level, outer, .power t⟩ : Machine).step Terminal.caret.token = .error refusal ∧
      (refusal = .unexpected ∨ refusal = .expected .closing) := by
  cases outer with
  | nil => exact ⟨_, rfl, .inl rfl⟩
  | cons inner outer => exact ⟨_, rfl, .inr rfl⟩

end Machine

/-! ## Names on their own -/

/-- the name stands between the two texts as an identifier, without digits behind it -/
structure Alone (front : List Char) (n : Name) (back : List Char) : Prop where
  before : StopsAt isNameChar front.reverse
  behind : StopsAt isNameChar back
  bare : ∀ l : Literal, ¬ l.chars <+: back

/-- the text with the name alone -/
def nameBetween (front : List Char) (n : Name) (back : List Char) : String := String.ofList (front ++ (n.chars ++ back))

/-- the text with the name and an exponent right behind it -/
def shorthandBetween (front : List Char) (n : Name) (l : Literal) (back : List Char) : String :=
  String.ofList (front ++ (n.chars ++ (l.chars ++ back)))

/-- the text with the power of the name in parentheses -/
def powerBetween (front : List Char) (n : Name) (l : Literal) (back : List Char) : String :=
  String.ofList (front ++ '(' :: (n.chars ++ '^' :: (l.chars ++ ')' :: back)))

/-- an explicit exponent follows, or at least its caret -/
def RaisedBehind (back : List Char) : Prop := (back.dropWhile isBlank).head? = some '^'

theorem mark?_eq_caret_iff {c : Char} : mark? c = some .caret ↔ c = '^' := by
  constructor
  · intro h
    unfold mark? at h
    split_ifs at h <;> first | assumption | cases h
  · rintro rfl
    rfl

theorem Reads.head_caret_iff {back : List Char} {us : List Terminal} (h : Reads back us) :
    us.head? = some .caret ↔ RaisedBehind back := by
  -- neither a letter nor a digit nor a sign is a caret
  have hunmarked : ∀ {c : Char} {cs : List Char}, isBlank c = false → mark? c = none → ¬ RaisedBehind (c :: cs) := by
    intro c cs hb hm hcaret
    rw [RaisedBehind, List.dropWhile_cons_of_neg (by simp [hb])] at hcaret
    cases hcaret
    cases hm
  have hname : ∀ (n : Name) (cs : List Char), ¬ RaisedBehind (n.chars ++ cs) := by
    intro n cs
    obtain ⟨chars, nonempty, letters⟩ := n
    cases chars with
    | nil => exact absurd rfl nonempty
    | cons c chars =>
      have hc := letters c List.mem_cons_self
      exact hunmarked (isBlank_of_isNameChar hc) (mark?_of_isNameChar hc)
  induction h with
  | nil => exact ⟨nofun, nofun⟩
  | cons hlex _ ih =>
    cases hlex with
    | blank hb => rwa [RaisedBehind, List.dropWhile_cons_of_pos hb]
    | mark hm =>
      have hb := (isMark_of_mark? hm).blank
      rw [RaisedBehind, List.dropWhile_cons_of_neg (by simp [hb]), List.head?_cons, Option.some.injEq,
        ← mark?_eq_caret_iff, hm]
      rfl
    | literal l =>
      obtain ⟨c, cs, hsplit, hb, hm, -⟩ := l.exists_head
      rw [hsplit]
      exact iff_of_false nofun (hunmarked hb hm)
    | name n => exact iff_of_false nofun (hname n _)
    | raised n => exact iff_of_false nofun (hname n _)

namespace Alone

variable {front back : List Char} {n : Name} {ts us vs : List Terminal}

theorem parted (h : Alone front n back) (cs : List Char) : Parted front (n.chars ++ cs) := by
  obtain ⟨chars, nonempty, letters⟩ := n
  cases chars with
  | nil => exact absurd rfl nonempty
  | cons c chars => exact parted_of_letter (letters c List.mem_cons_self) h.before _

theorem stopsAt_decimal (h : Alone front n back) : StopsAt isDecimal back := by
  intro c hc
  cases hd : isDecimal c with
  | false => rfl
  | true =>
    -- a digit would be a literal
    let l : Literal := ⟨none, [c], nofun, List.cons_ne_nil _ _, fun d h => List.mem_singleton.1 h ▸ hd⟩
    obtain ⟨rest, rfl⟩ := List.head?_eq_some_iff.1 hc
    exact absurd (List.prefix_append [c] rest) (h.bare l)

/-- **A name on its own** is a terminal between those of the texts around it. -/
theorem reads (h : Alone front n back) (hr : Reads (front ++ (n.chars ++ back)) vs) :
    ∃ ts us, vs = ts ++ n.terminal :: us ∧ Reads front ts ∧ Reads back us := by
  obtain ⟨ts, vs, rfl, hts, hvs⟩ := hr.split (h.parted back)
  obtain ⟨us, rfl, hus⟩ := hvs.of_lexeme (.name n h.behind h.bare)
  exact ⟨ts, us, rfl, hts, hus⟩

theorem reads_shorthand (h : Alone front n back) (hts : Reads front ts) (hus : Reads back us) (l : Literal) :
    Reads (front ++ (n.chars ++ (l.chars ++ back))) (ts ++ n.terminal :: .caret :: l.terminal :: us) :=
  hts.join (.cons (.raised n l h.stopsAt_decimal) hus) (h.parted _)

theorem reads_power (hts : Reads front ts) (hus : Reads back us) (l : Literal) :
    Reads (front ++ '(' :: (n.chars ++ '^' :: (l.chars ++ ')' :: back)))
      (ts ++ .opening :: n.terminal :: .caret :: l.terminal :: .closing :: us) := by
  have hclosing : Apart (')' :: back) := apart_mark (t := .closing) rfl back
  have hl : Reads (l.chars ++ ')' :: back) (l.terminal :: .closing :: us) :=
    .cons (.literal l hclosing.stopsAt_decimal) (.mark rfl hus)
  have hcaret : Apart ('^' :: (l.chars ++ ')' :: back)) := apart_mark (t := .caret) rfl _
  have hbare : ∀ k : Literal, ¬ k.chars <+: '^' :: (l.chars ++ ')' :: back) := by
    intro k hk
    obtain ⟨c, cs, hsplit, -, hm, -⟩ := k.exists_head
    rw [hsplit, List.cons_prefix_cons] at hk
    rw [hk.1] at hm
    cases hm
  have hn : Reads (n.chars ++ '^' :: (l.chars ++ ')' :: back)) (n.terminal :: .caret :: l.terminal :: .closing :: us) :=
    .cons (.name n hcaret.stopsAt_letter hbare) (.mark rfl hl)
  exact hts.append (.mark rfl hn) (apart_mark (t := .opening) rfl _)

end Alone

/-! ## Names with digits behind them -/

section

variable {front back : List Char} {n : Name} {ts us : List Terminal} {level : Level} {outer : List Level}

/-- a name with an exponent, read where an operand is due -/
theorem run_shorthand {l : Literal} (hl : l.digits.length ≤ digitLimit) :
    (⟨level, outer, .operand⟩ : Machine).run ([n.terminal, .caret, l.terminal].map Terminal.token) =
      .ok ⟨level, outer, .power (.pow (.identifier (String.ofList n.chars)) l.numeral.value)⟩ := by
  refine Machine.run_cons_eq_ok.2 ⟨_, rfl, Machine.run_cons_eq_ok.2 ⟨_, rfl, Machine.run_cons_eq_ok.2 ⟨_, ?_, rfl⟩⟩⟩
  refine (Machine.step_exponent ..).trans (if_neg ?_)
  rw [l.digits_numeral]
  exact Nat.not_lt.2 hl

theorem run_group {l : Literal} (hl : l.digits.length ≤ digitLimit) :
    (⟨level, outer, .operand⟩ : Machine).run
        ([.opening, n.terminal, .caret, l.terminal, .closing].map Terminal.token) =
      .ok ⟨level, outer, .atom (.pow (.identifier (String.ofList n.chars)) l.numeral.value)⟩ := by
  refine Machine.run_cons_eq_ok.2 ⟨_, rfl, ?_⟩
  change Machine.run _ ([n.terminal, .caret, l.terminal].map Terminal.token ++ [Terminal.closing.token]) = _
  exact Machine.run_append_eq_ok.2 ⟨_, run_shorthand hl, rfl⟩

/-- what is refused behind a power is refused at the caret -/
def RefusedAtCaret (text : String) : Prop := ∃ token : Token, token.symbol = .caret ∧
  (parse text = .error (.format (.unexpectedToken token.text token.position (trimmed text))) ∨
    parse text = .error (.format (.expected .closing token.text token.position (trimmed text))))

/-- an expression with a name in it, read up to the name and behind it -/
theorem Alone.exists_run (h : Alone front n back) {t : UnitExpr} (hp : parse (nameBetween front n back) = .ok t) :
    ∃ ts us level outer, Reads front ts ∧ Reads back us ∧
      Machine.start.run (ts.map Terminal.token) = .ok ⟨level, outer, .operand⟩ ∧
      ∃ m, (⟨level, outer, .atom (.identifier (String.ofList n.chars))⟩ : Machine).run (us.map Terminal.token) = .ok m ∧
        m.finish? = some t := by
  obtain ⟨vs, hreads, -⟩ := exists_reads_of_parse hp
  obtain ⟨m, hrun, hfinish⟩ := (parse_eq_ok_iff_run hreads).1 hp
  have hwhole := hreads.of_trim
  rw [nameBetween, String.toList_ofList] at hwhole
  obtain ⟨ts, us, rfl, hts, hus⟩ := h.reads hwhole
  rw [List.map_append, List.map_cons] at hrun
  obtain ⟨⟨level, outer, phase⟩, hbefore, hrun⟩ := Machine.run_append_eq_ok.1 hrun
  obtain ⟨m', hname, hbehind⟩ := Machine.run_cons_eq_ok.1 hrun
  obtain ⟨hphase, rfl⟩ := Machine.step_name.1 hname
  obtain rfl : phase = .operand := hphase
  exact ⟨ts, us, level, outer, hts, hus, hbefore, m, hbehind, hfinish⟩

theorem Alone.reads_shorthandBetween (h : Alone front n back) (hts : Reads front ts) (hus : Reads back us)
    (l : Literal) :
    Reads (trim (shorthandBetween front n l back).toList) (ts ++ [n.terminal, .caret, l.terminal] ++ us) := by
  rw [shorthandBetween, String.toList_ofList, List.append_assoc]
  exact (h.reads_shorthand hts hus l).trim

theorem reads_powerBetween (hts : Reads front ts) (hus : Reads back us) (l : Literal) :
    Reads (trim (powerBetween front n l back).toList)
      (ts ++ [.opening, n.terminal, .caret, l.terminal, .closing] ++ us) := by
  rw [powerBetween, String.toList_ofList, List.append_assoc]
  exact (Alone.reads_power hts hus l).trim

/-- **The shorthand for powers.** Where a text is an expression with a name in it, it is one as well with a power of the
name in parentheses. With the exponent right behind the name it is parsed to the same tree, unless an exponent follows:
then it is refused at the caret. Exponents that are too long to be read are refused either way. -/
theorem shorthand_spec (h : Alone front n back) {t : UnitExpr} (hp : parse (nameBetween front n back) = .ok t)
    (l : Literal) :
    (l.digits.length ≤ digitLimit → ∃ t', parse (powerBetween front n l back) = .ok t' ∧
      (¬ RaisedBehind back → parse (shorthandBetween front n l back) = .ok t')) ∧
    (l.digits.length ≤ digitLimit → RaisedBehind back → RefusedAtCaret (shorthandBetween front n l back)) ∧
    (digitLimit < l.digits.length → parse (powerBetween front n l back) = .error (.badValue none) ∧
      parse (shorthandBetween front n l back) = .error (.badValue none)) := by
  obtain ⟨ts, us, level, outer, hts, hus, hbefore, m, hbehind, hfinish⟩ := h.exists_run hp
  have hshorthand := h.reads_shorthandBetween hts hus l
  have hpower := reads_powerBetween (n := n) hts hus l
  refine ⟨fun hl => ?_, fun hl hraised => ?_, fun hlong => ?_⟩
  · -- what follows the name follows its power as well
    have halike : Machine.Alike ⟨level, outer, .atom (.identifier (String.ofList n.chars))⟩
        ⟨level, outer, .atom (.pow (.identifier (String.ofList n.chars)) l.numeral.value)⟩ := ⟨rfl, trivial⟩
    obtain ⟨m', hbehind', halike'⟩ := halike.run hbehind
    obtain ⟨t', hfinish'⟩ := halike'.exists_finish? hfinish
    refine ⟨t', (parse_eq_ok_iff_run hpower).2 ⟨m', ?_, hfinish'⟩, fun hnot => ?_⟩
    · rw [List.map_append, List.map_append]
      exact Machine.run_append_eq_ok.2 ⟨_, Machine.run_append_eq_ok.2 ⟨_, hbefore, run_group hl⟩, hbehind'⟩
    · obtain ⟨k, hk, hfinish''⟩ := (Machine.run_power_iff fun hcaret => hnot (hus.head_caret_iff.1 hcaret)).2
        ⟨m', hbehind', hfinish'⟩
      refine (parse_eq_ok_iff_run hshorthand).2 ⟨k, ?_, hfinish''⟩
      rw [List.map_append, List.map_append]
      exact Machine.run_append_eq_ok.2 ⟨_, Machine.run_append_eq_ok.2 ⟨_, hbefore, run_shorthand hl⟩, hk⟩
  · obtain ⟨us, rfl⟩ := List.head?_eq_some_iff.1 (hus.head_caret_iff.2 hraised)
    obtain ⟨refusal, hstep, hrefusal⟩ := Machine.step_power_caret level outer
      (.pow (.identifier (String.ofList n.chars)) l.numeral.value)
    obtain ⟨token, htoken, hparse⟩ := parse_refused hshorthand
      (by rw [List.map_append]; exact Machine.run_append_eq_ok.2 ⟨_, hbefore, run_shorthand hl⟩) hstep
    refine ⟨token, htoken.1, ?_⟩
    rcases hrefusal with rfl | rfl
    · exact .inl hparse
    · exact .inr hparse
  · have hstep : ∀ level outer, (⟨level, outer, .exponent (.identifier (String.ofList n.chars))⟩ : Machine).step
        l.terminal.token = .error .tooManyDigits :=
      fun level outer => (Machine.step_exponent ..).trans (if_pos (by rwa [l.digits_numeral]))
    constructor
    · have hgroup : Reads (trim (powerBetween front n l back).toList)
          ((ts ++ [.opening, n.terminal, .caret]) ++ l.terminal :: .closing :: us) := by simpa using hpower
      obtain ⟨token, -, hparse⟩ := parse_refused hgroup
        (by rw [List.map_append]; exact Machine.run_append_eq_ok.2 ⟨_, hbefore, rfl⟩) (hstep _ _)
      exact hparse
    · have hplain : Reads (trim (shorthandBetween front n l back).toList)
          ((ts ++ [n.terminal, .caret]) ++ l.terminal :: us) := by simpa using hshorthand
      obtain ⟨token, -, hparse⟩ := parse_refused hplain
        (by rw [List.map_append]; exact Machine.run_append_eq_ok.2 ⟨_, hbefore, rfl⟩) (hstep _ _)
      exact hparse

/-- the name of the second -/
def secondName : Name := ⟨['s'], by simp, List.all_eq_true.1 (by decide)⟩

/-- the literal of two -/
def twoLiteral : Literal := ⟨none, ['2'], nofun, by simp, List.all_eq_true.1 (by decide)⟩

theorem alone_second {front back : List Char} (hf : StopsAt isNameChar front.reverse) (hb : Apart back) :
    Alone front secondName back := by
  refine ⟨hf, hb.stopsAt_letter, fun l hl => ?_⟩
  have hnil : l.chars <+: [] ++ back := hl
  have hempty : l.chars = [] := List.prefix_nil.1 (l.prefix_of_apart hb hnil)
  obtain ⟨c, cs, hsplit, -⟩ := l.exists_head
  rw [hsplit] at hempty
  cases hempty

/-- in `kg*m/s` the second can be squared either way -/
theorem shorthand_spec_second : Alone "kg*m/".toList secondName [] ∧
    parse (nameBetween "kg*m/".toList secondName []) =
      .ok (.div (.mul (.identifier "kg") (.identifier "m")) (.identifier "s")) ∧
    twoLiteral.digits.length ≤ digitLimit ∧ ¬ RaisedBehind [] ∧
    ∃ t, parse "kg*m/(s^2)" = .ok t ∧ parse "kg*m/s2" = .ok t := by
  have halone : Alone "kg*m/".toList secondName [] := alone_second (stopsAt_cons.2 (by decide)) nofun
  have hp : parse (nameBetween "kg*m/".toList secondName []) =
      .ok (.div (.mul (.identifier "kg") (.identifier "m")) (.identifier "s")) := by decide +kernel
  have hl : twoLiteral.digits.length ≤ digitLimit := by decide
  have hraised : ¬ RaisedBehind [] := nofun
  obtain ⟨t, hpower, hshorthand⟩ := (shorthand_spec halone hp twoLiteral).1 hl
  exact ⟨halone, hp, hl, hraised, t, hpower, hshorthand hraised⟩

/-- **A name with digits behind it is no atom.** The second cubed is an expression, and so is its square cubed, but the
shorthand for its square cannot be raised to a power. -/
theorem shorthand_no_atom : Alone [] secondName ['^', '3'] ∧
    parse (nameBetween [] secondName ['^', '3']) = .ok (.pow (.identifier "s") 3) ∧
    parse (powerBetween [] secondName twoLiteral ['^', '3']) = .ok (.pow (.pow (.identifier "s") 2) 3) ∧
    parse (shorthandBetween [] secondName twoLiteral ['^', '3']) = .error (.format (.unexpectedToken "^" 2 "s2^3")) :=
  ⟨alone_second (stopsAt_nil _) (apart_mark (t := .caret) rfl _), by decide +kernel, by decide +kernel,
    by decide +kernel⟩

end

end UnitAlgebra.Expression

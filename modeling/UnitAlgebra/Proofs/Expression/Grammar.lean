/-
The grammar of unit expressions as derivations, and the machine that reads them. A derivation has leaves, which are the
terminals of the text, and a tree. A stack of derivations follows the machine step by step: it always holds exactly
what has been read, so that a successful run is a derivation of the text, and every derivation is found by a run.

Results:
- `Stack.leaves_step`: a step adds its terminal to what a stack holds.
- `Stack.derive_iff`: reading terminals finds the derivation with these leaves, if there is one.
- `Derivation.leaves_injective`: a derivation is known by its leaves.
- `Stack.step_machine`, `Stack.run_machine`: the machine does what the stack of derivations does.
- `parse_eq_ok_iff`: a text is parsed to the tree of its derivation.
- `parse_grammar`: the parser accepts its grammar and nothing else, without ambiguity.
-/
import UnitAlgebra.Expression.Parser
import UnitAlgebra.Proofs.Expression.Reading

namespace UnitAlgebra.Expression

open Text

/-! ## Derivations -/

/-- the left sides of the rules -/
inductive Category where
  | expr | factor | power | atom
deriving DecidableEq, Repr

/-- the rules; quotients and products lean to the left -/
inductive Derivation : Category → Type where
  | name (text : String) : Derivation .atom
  | integer (value digits : Nat) : Derivation .atom
  | group (inner : Derivation .expr) : Derivation .atom
  | plain (base : Derivation .atom) : Derivation .power
  | raised (base : Derivation .atom) (exponent : Numeral) : Derivation .power
  | single (only : Derivation .power) : Derivation .factor
  | times (left : Derivation .factor) (right : Derivation .power) : Derivation .factor
  | whole (only : Derivation .factor) : Derivation .expr
  | per (left : Derivation .expr) (right : Derivation .factor) : Derivation .expr

namespace Derivation

/-- the terminals that a derivation derives -/
def leaves {k : Category} : Derivation k → List Terminal
  | name text => [.name text]
  | integer value digits => [.integer (.unsigned value digits)]
  | group inner => .opening :: inner.leaves ++ [.closing]
  | plain base => base.leaves
  | raised base exponent => base.leaves ++ [.caret, .integer exponent]
  | single only => only.leaves
  | times left right => left.leaves ++ .times :: right.leaves
  | whole only => only.leaves
  | per left right => left.leaves ++ .slash :: right.leaves

/-- the tree that a derivation stands for; parentheses leave no trace -/
def tree {k : Category} : Derivation k → UnitExpr
  | name text => .identifier text
  | integer value _ => .integer value
  | group inner => inner.tree
  | plain base => base.tree
  | raised base exponent => .pow base.tree exponent.value
  | single only => only.tree
  | times left right => .mul left.tree right.tree
  | whole only => only.tree
  | per left right => .div left.tree right.tree

end Derivation

/-! ## Stacks of derivations -/

/-- what stands left of the current operand, since the last open parenthesis -/
structure Shelf where
  quotient : Option (Derivation .expr)
  product : Option (Derivation .factor)

/-- what is read of the current operand -/
inductive Reached where
  | nothing
  | atom (a : Derivation .atom)
  | caret (base : Derivation .atom)
  | power (p : Derivation .power)

structure Stack where
  shelf : Shelf
  /-- the shelves around it, innermost first -/
  outer : List Shelf
  reached : Reached

namespace Shelf

/-- a further factor -/
def times (s : Shelf) (p : Derivation .power) : Derivation .factor :=
  match s.product with
  | some f => .times f p
  | none => .single p

/-- the shelf with its last operand -/
def close (s : Shelf) (p : Derivation .power) : Derivation .expr :=
  match s.quotient with
  | some e => .per e (s.times p)
  | none => .whole (s.times p)

def leaves (s : Shelf) : List Terminal :=
  (match s.quotient with
    | some e => e.leaves ++ [.slash]
    | none => []) ++
  (match s.product with
    | some f => f.leaves ++ [.times]
    | none => [])

def level (s : Shelf) : Level := ⟨s.quotient.map Derivation.tree, s.product.map Derivation.tree⟩

theorem leaves_close (s : Shelf) (p : Derivation .power) : (s.close p).leaves = s.leaves ++ p.leaves := by
  obtain ⟨quotient, product⟩ := s
  cases quotient <;> cases product <;> simp [close, times, leaves, Derivation.leaves]

theorem leaves_product (s : Shelf) (p : Derivation .power) :
    (⟨s.quotient, some (s.times p)⟩ : Shelf).leaves = s.leaves ++ p.leaves ++ [.times] := by
  obtain ⟨quotient, product⟩ := s
  cases product <;> simp [times, leaves, Derivation.leaves]

theorem leaves_quotient (s : Shelf) (p : Derivation .power) :
    (⟨some (s.close p), none⟩ : Shelf).leaves = s.leaves ++ p.leaves ++ [.slash] := by
  rw [← leaves_close]
  exact List.append_nil _

theorem level_times (s : Shelf) (p : Derivation .power) : s.level.times p.tree = (s.times p).tree := by
  obtain ⟨quotient, product⟩ := s
  cases product <;> rfl

theorem level_close (s : Shelf) (p : Derivation .power) : s.level.close p.tree = (s.close p).tree := by
  unfold Level.close close
  rw [level_times]
  obtain ⟨quotient, product⟩ := s
  cases quotient <;> rfl

end Shelf

namespace Reached

def leaves : Reached → List Terminal
  | nothing => []
  | atom a => a.leaves
  | caret base => base.leaves ++ [.caret]
  | power p => p.leaves

def phase : Reached → Phase
  | nothing => .operand
  | atom a => .atom a.tree
  | caret base => .exponent base.tree
  | power p => .power p.tree

/-- a whole power is read: one without an exponent may still take one -/
def done : Derivation .power → Reached
  | .plain a => atom a
  | .raised a n => power (.raised a n)

end Reached

namespace Stack

def start : Stack := ⟨⟨none, none⟩, [], .nothing⟩

/-- the machine that the stack stands for -/
def machine (s : Stack) : Machine := ⟨s.shelf.level, s.outer.map Shelf.level, s.reached.phase⟩

/-- what the open parentheses hold -/
def outerLeaves : List Shelf → List Terminal
  | [] => []
  | s :: outer => outerLeaves outer ++ s.leaves ++ [.opening]

/-- what has been read -/
def leaves (s : Stack) : List Terminal := outerLeaves s.outer ++ s.shelf.leaves ++ s.reached.leaves

/-- a terminal behind a whole power -/
def stepBehind (s : Stack) (p : Derivation .power) : Terminal → Option Stack
  | .times => some { s with shelf := ⟨s.shelf.quotient, some (s.shelf.times p)⟩, reached := .nothing }
  | .slash => some { s with shelf := ⟨some (s.shelf.close p), none⟩, reached := .nothing }
  | .closing =>
    match s.outer with
    | shelf :: outer => some ⟨shelf, outer, .atom (.group (s.shelf.close p))⟩
    | [] => none
  | _ => none

def step (s : Stack) (t : Terminal) : Option Stack :=
  match s.reached, t with
  | .nothing, .opening => some ⟨⟨none, none⟩, s.shelf :: s.outer, .nothing⟩
  | .nothing, .name text => some { s with reached := .atom (.name text) }
  | .nothing, .integer (.unsigned value digits) => some { s with reached := .atom (.integer value digits) }
  | .nothing, _ => none
  | .atom a, .caret => some { s with reached := .caret a }
  | .atom a, t => s.stepBehind (.plain a) t
  | .caret base, .integer n => some { s with reached := .power (.raised base n) }
  | .caret _, _ => none
  | .power p, t => s.stepBehind p t

def run (s : Stack) (ts : List Terminal) : Option Stack := ts.foldlM step s

/-- the derivation that is read, if nothing is missing -/
def finish? (s : Stack) : Option (Derivation .expr) :=
  match s.reached, s.outer with
  | .atom a, [] => some (s.shelf.close (.plain a))
  | .power p, [] => some (s.shelf.close p)
  | _, _ => none

/-- the derivation of a list of terminals -/
def derive (ts : List Terminal) : Option (Derivation .expr) := (start.run ts).bind finish?

/-! ## A stack holds what has been read -/

theorem leaves_stepBehind {s s' : Stack} {p : Derivation .power} {t : Terminal} (h : s.stepBehind p t = some s') :
    s'.leaves = outerLeaves s.outer ++ s.shelf.leaves ++ p.leaves ++ [t] := by
  cases t with
  | times =>
    cases h
    simp only [leaves, Reached.leaves, Shelf.leaves_product, List.append_nil, List.append_assoc]
  | slash =>
    cases h
    simp only [leaves, Reached.leaves, Shelf.leaves_quotient, List.append_nil, List.append_assoc]
  | closing =>
    obtain ⟨shelf, outer, reached⟩ := s
    cases outer with
    | nil => cases h
    | cons next outer =>
      cases h
      simp [leaves, outerLeaves, Reached.leaves, Derivation.leaves, Shelf.leaves_close]
  | _ => cases h

/-- A step adds its terminal to what a stack holds. -/
theorem leaves_step {s s' : Stack} {t : Terminal} (h : s.step t = some s') : s'.leaves = s.leaves ++ [t] := by
  obtain ⟨shelf, outer, reached⟩ := s
  cases reached with
  | nothing =>
    cases t with
    | opening =>
      cases h
      simp [leaves, outerLeaves, Reached.leaves, Shelf.leaves]
    | name text =>
      cases h
      simp [leaves, Reached.leaves, Derivation.leaves]
    | integer n =>
      cases n with
      | unsigned value digits =>
        cases h
        simp [leaves, Reached.leaves, Derivation.leaves]
      | signed value digits => cases h
    | _ => cases h
  | atom a =>
    cases t with
    | caret =>
      cases h
      simp [leaves, Reached.leaves]
    | _ => exact leaves_stepBehind (s := ⟨shelf, outer, .atom a⟩) (p := .plain a) h
  | caret base =>
    cases t with
    | integer n =>
      cases h
      simp [leaves, Reached.leaves, Derivation.leaves]
    | _ => cases h
  | power p => exact leaves_stepBehind h

theorem leaves_run {s s' : Stack} {ts : List Terminal} (h : s.run ts = some s') : s'.leaves = s.leaves ++ ts := by
  induction ts generalizing s with
  | nil =>
    cases h
    simp
  | cons t ts ih =>
    simp only [run, List.foldlM_cons, Option.bind_eq_bind, Option.bind_eq_some_iff] at h
    obtain ⟨next, hstep, hrun⟩ := h
    rw [ih hrun, leaves_step hstep, List.append_assoc, List.singleton_append]

theorem leaves_finish? {s : Stack} {d : Derivation .expr} (h : s.finish? = some d) : d.leaves = s.leaves := by
  obtain ⟨shelf, outer, reached⟩ := s
  cases reached <;> cases outer <;> cases h <;>
    simp [leaves, outerLeaves, Reached.leaves, Shelf.leaves_close, Derivation.leaves]

/-! ## Every derivation is found -/

theorem run_append (s : Stack) (ts us : List Terminal) : s.run (ts ++ us) = (s.run ts).bind fun s' => s'.run us := by
  simp only [run, List.foldlM_append, Option.bind_eq_bind]

theorem run_cons (s : Stack) (t : Terminal) (ts : List Terminal) :
    s.run (t :: ts) = (s.step t).bind fun s' => s'.run ts := rfl

/-- behind a whole power every terminal but a caret goes to the shelf -/
theorem step_done (shelf : Shelf) (outer : List Shelf) (p : Derivation .power) {t : Terminal} (h : t ≠ .caret) :
    (⟨shelf, outer, .done p⟩ : Stack).step t = (⟨shelf, outer, .done p⟩ : Stack).stepBehind p t := by
  cases p with
  | plain a => cases t <;> first | rfl | exact absurd rfl h
  | raised a n => rfl

theorem finish?_done (shelf : Shelf) (p : Derivation .power) :
    (⟨shelf, [], .done p⟩ : Stack).finish? = some (shelf.close p) := by
  cases p <;> rfl

/-- a run over the leaves of a derivation, begun where an operand is due, reads the derivation -/
def Found : (k : Category) → Derivation k → Prop
  | .atom, a => ∀ shelf outer, run ⟨shelf, outer, .nothing⟩ a.leaves = some ⟨shelf, outer, .atom a⟩
  | .power, p => ∀ shelf outer, run ⟨shelf, outer, .nothing⟩ p.leaves = some ⟨shelf, outer, .done p⟩
  | .factor, f => ∀ quotient outer, ∃ shelf p,
      run ⟨⟨quotient, none⟩, outer, .nothing⟩ f.leaves = some ⟨shelf, outer, .done p⟩ ∧
        shelf.quotient = quotient ∧ shelf.times p = f
  | .expr, e => ∀ outer, ∃ shelf p,
      run ⟨⟨none, none⟩, outer, .nothing⟩ e.leaves = some ⟨shelf, outer, .done p⟩ ∧ shelf.close p = e

theorem found {k : Category} (d : Derivation k) : Found k d := by
  induction d with
  | name text => exact fun _ _ => rfl
  | integer value digits => exact fun _ _ => rfl
  | group inner ih =>
    intro shelf outer
    obtain ⟨inside, p, hrun, hclose⟩ := ih (shelf :: outer)
    rw [Derivation.leaves, List.cons_append, run_cons]
    change (run ⟨⟨none, none⟩, shelf :: outer, .nothing⟩ (inner.leaves ++ [.closing])) = _
    rw [run_append, hrun]
    change ((⟨inside, shelf :: outer, .done p⟩ : Stack).step .closing).bind _ = _
    rw [step_done _ _ _ (by simp), stepBehind, hclose]
    rfl
  | plain base ih => exact ih
  | raised base n ih =>
    intro shelf outer
    rw [Derivation.leaves, run_append, ih shelf outer]
    rfl
  | single only ih =>
    intro quotient outer
    exact ⟨⟨quotient, none⟩, only, ih _ _, rfl, rfl⟩
  | times left right ihl ihr =>
    intro quotient outer
    obtain ⟨shelf, p, hrun, hquotient, htimes⟩ := ihl quotient outer
    refine ⟨⟨quotient, some left⟩, right, ?_, rfl, rfl⟩
    rw [Derivation.leaves, run_append, hrun, Option.bind_some, run_cons, step_done _ _ _ (by simp), stepBehind]
    rw [htimes, hquotient]
    exact ihr _ _
  | whole only ih =>
    intro outer
    obtain ⟨shelf, p, hrun, hquotient, htimes⟩ := ih none outer
    exact ⟨shelf, p, hrun, by rw [Shelf.close, hquotient, htimes]⟩
  | per left right ihl ihr =>
    intro outer
    obtain ⟨inside, p, hleft, hclose⟩ := ihl outer
    obtain ⟨shelf, q, hright, hquotient, htimes⟩ := ihr (some left) outer
    refine ⟨shelf, q, ?_, by rw [Shelf.close, hquotient, htimes]⟩
    rw [Derivation.leaves, run_append, hleft, Option.bind_some, run_cons, step_done _ _ _ (by simp), stepBehind]
    rw [hclose]
    exact hright

/-- **Reading is deriving.** The derivation found for a list of terminals is the one that has them as its leaves. -/
theorem derive_iff {ts : List Terminal} {d : Derivation .expr} : derive ts = some d ↔ d.leaves = ts := by
  constructor
  · intro h
    obtain ⟨s, hrun, hfinish⟩ := Option.bind_eq_some_iff.1 h
    rw [leaves_finish? hfinish, leaves_run hrun]
    rfl
  · rintro rfl
    obtain ⟨shelf, p, hrun, hclose⟩ := found d []
    rw [derive, start, hrun, Option.bind_some, finish?_done, hclose]

end Stack

/-- A derivation is known by its leaves: the grammar is unambiguous. -/
theorem Derivation.leaves_injective {d e : Derivation .expr} (h : d.leaves = e.leaves) : d = e := by
  have hd := Stack.derive_iff.2 (rfl : d.leaves = d.leaves)
  rw [h, Stack.derive_iff.2 rfl] at hd
  exact (Option.some.inj hd).symm

/-! ## The machine follows the stack -/

/-- the number of digits of a terminal is within the limit -/
def Terminal.Short (t : Terminal) : Prop := ∀ n, t = .integer n → n.digits ≤ digitLimit

/-- the machine does with a token what a stack does with its terminal, and refuses what the stack refuses -/
def Mirrors (s' : Option Stack) (m : Except Refusal Machine) : Prop :=
  match s' with
  | some next => m = .ok next.machine
  | none => ∃ refusal, m = .error refusal ∧ refusal ≠ .tooManyDigits

theorem mirrors_takeOperator (s : Stack) (p : Derivation .power) {token : Token} {t : Terminal}
    (h : token.symbol = t.symbol) :
    Mirrors (s.stepBehind p t) (s.machine.takeOperator p.tree token) := by
  obtain ⟨shelf, outer, reached⟩ := s
  unfold Machine.takeOperator
  rw [h]
  cases t with
  | times =>
    change Except.ok (⟨⟨shelf.level.quotient, some (shelf.level.times p.tree)⟩, _, .operand⟩ : Machine) = _
    rw [shelf.level_times]
    rfl
  | slash =>
    change Except.ok (⟨⟨some (shelf.level.close p.tree), none⟩, _, .operand⟩ : Machine) = _
    rw [shelf.level_close]
    rfl
  | closing =>
    cases outer with
    | nil => exact ⟨.unexpected, rfl, by simp⟩
    | cons next outer =>
      change Except.ok (⟨next.level, _, .atom (shelf.level.close p.tree)⟩ : Machine) = _
      rw [shelf.level_close]
      rfl
  | _ =>
    cases outer with
    | nil => exact ⟨.unexpected, rfl, by simp⟩
    | cons next outer => exact ⟨.expected .closing, rfl, by simp⟩

/-- One step of the machine is one step of the stack. -/
theorem mirrors_step (s : Stack) {token : Token} {t : Terminal} (h : token.Shows t) (hd : t.Short) :
    Mirrors (s.step t) (s.machine.step token) := by
  obtain ⟨hsymbol, htext⟩ := h
  obtain ⟨shelf, outer, reached⟩ := s
  cases reached with
  | nothing =>
    change Mirrors _ (Machine.takeOperand _ token)
    unfold Machine.takeOperand
    rw [hsymbol]
    cases t with
    | opening => rfl
    | name text =>
      change Except.ok (⟨_, _, .atom (.identifier token.text)⟩ : Machine) = _
      rw [htext text rfl]
      rfl
    | integer n =>
      cases n with
      | unsigned value digits =>
        have hdigits : ¬ digitLimit < digits := Nat.not_lt.2 (hd _ rfl)
        change (if digitLimit < digits then _ else Except.ok (⟨_, _, .atom (.integer _)⟩ : Machine)) = _
        rw [if_neg hdigits]
        rfl
      | signed value digits => exact ⟨.signed, rfl, by simp⟩
    | _ => exact ⟨.unexpected, rfl, by simp⟩
  | atom a =>
    change Mirrors _ (if token.symbol = .caret then _ else Machine.takeOperator _ a.tree token)
    by_cases hc : t = .caret
    · rw [hsymbol, hc, if_pos (show Terminal.caret.symbol = .caret from rfl)]
      rfl
    · have hs : token.symbol ≠ .caret := by
        rw [hsymbol]
        cases t <;> simp [Terminal.symbol] at hc ⊢
      rw [if_neg hs]
      have hbehind := mirrors_takeOperator ⟨shelf, outer, .atom a⟩ (.plain a) hsymbol
      cases t <;> first | exact hbehind | exact absurd rfl hc
  | caret base =>
    unfold Machine.step
    simp only [Stack.machine, Reached.phase, hsymbol]
    cases t with
    | integer n =>
      have hdigits : ¬ digitLimit < n.digits := Nat.not_lt.2 (hd _ rfl)
      change (if digitLimit < n.digits then _ else Except.ok (⟨_, _, .power (.pow base.tree n.value)⟩ : Machine)) = _
      rw [if_neg hdigits]
      rfl
    | _ => exact ⟨.expected .integer, rfl, by simp⟩
  | power p =>
    exact mirrors_takeOperator ⟨shelf, outer, .power p⟩ p hsymbol

/-- A run of the machine is a run of the stack. -/
theorem mirrors_run (s : Stack) {tokens : List Token} {ts : List Terminal} (h : List.Forall₂ Token.Shows tokens ts)
    (hd : ∀ t ∈ ts, t.Short) :
    match s.run ts with
    | some s' => s.machine.run tokens = .ok s'.machine
    | none => ∃ refusal token, s.machine.run tokens = .error (refusal, token) ∧ refusal ≠ .tooManyDigits := by
  induction h generalizing s with
  | nil => rfl
  | @cons token t tokens ts ht _ ih =>
    have hstep := mirrors_step s ht (hd t List.mem_cons_self)
    rw [Stack.run_cons]
    cases hs : s.step t with
    | none =>
      rw [hs] at hstep
      obtain ⟨refusal, hrefuse, hne⟩ := hstep
      refine ⟨refusal, token, ?_, hne⟩
      rw [Machine.run, hrefuse]
    | some next =>
      rw [hs] at hstep
      have hnext : s.machine.step token = .ok next.machine := hstep
      have := ih next fun u hu => hd u (List.mem_cons_of_mem t hu)
      rw [Option.bind_some, Machine.run, hnext]
      exact this

theorem finish?_machine (s : Stack) : s.machine.finish? = s.finish?.map Derivation.tree := by
  obtain ⟨shelf, outer, reached⟩ := s
  cases reached with
  | atom a =>
    cases outer with
    | nil => exact congrArg some (shelf.level_close (.plain a))
    | cons next outer => rfl
  | power p =>
    cases outer with
    | nil => exact congrArg some (shelf.level_close p)
    | cons next outer => rfl
  | _ => cases outer <;> rfl

theorem short_of_step {m m' : Machine} {token : Token} {t : Terminal} (h : token.Shows t)
    (hm : m.step token = .ok m') : t.Short := by
  rintro n rfl
  have hsymbol : token.symbol = .integer n.isSigned n.value n.digits := h.1
  obtain ⟨level, outer, phase⟩ := m
  refine Nat.not_lt.1 fun hlong => ?_
  cases phase with
  | operand =>
    simp only [Machine.step, Machine.takeOperand, hsymbol] at hm
    cases hs : n.isSigned <;> simp [hs, hlong] at hm
  | exponent base => simp [Machine.step, hsymbol, hlong] at hm
  | atom t => cases outer <;> simp [Machine.step, Machine.takeOperator, hsymbol] at hm
  | power t => cases outer <;> simp [Machine.step, Machine.takeOperator, hsymbol] at hm

theorem short_of_run {m m' : Machine} {tokens : List Token} {ts : List Terminal}
    (h : List.Forall₂ Token.Shows tokens ts) (hm : m.run tokens = .ok m') : ∀ t ∈ ts, t.Short := by
  induction h generalizing m with
  | nil => intro t ht; cases ht
  | @cons token t tokens ts ht _ ih =>
    rw [Machine.run] at hm
    cases hs : m.step token with
    | error refusal => rw [hs] at hm; cases hm
    | ok next =>
      rw [hs] at hm
      intro u hu
      rcases List.mem_cons.1 hu with rfl | hu
      · exact short_of_step ht hs
      · exact ih hm u hu

/-! ## The parser -/

theorem trim_trimmed (text : String) : trim (trimmed text).toList = trim text.toList := by
  rw [trimmed, String.toList_ofList, trim_trim]

theorem trimmed_trimmed (text : String) : trimmed (trimmed text) = trimmed text := by
  rw [trimmed, trim_trimmed]
  rfl

theorem parse_of_scan {text : String} {found : List Token} (h : scan 0 (trim text.toList) = .ok found) :
    parse text = if found.isEmpty then .error (.format .empty) else match Machine.start.run found with
      | .error refused => .error (refusalFault (trimmed text) refused)
      | .ok m =>
        match m.finish? with
        | some t => .ok t
        | none => .error (.format (.unexpectedEnd (trimmed text))) := by
  have htokens : tokens (trimmed text) = .ok found := by
    rw [tokens, trimmed, String.toList_ofList, h]
  unfold parse parseTrimmed
  rw [htokens]
  rfl

theorem exists_format_of_refusal (text : String) (token : Token) {refusal : Refusal} (h : refusal ≠ .tooManyDigits) :
    ∃ fault, refusalFault text (refusal, token) = .format fault := by
  cases refusal with
  | tooManyDigits => exact absurd rfl h
  | _ => exact ⟨_, rfl⟩

theorem parse_of_reads {text : String} {ts : List Terminal} (h : Reads (trim text.toList) ts)
    (hd : ∀ t ∈ ts, t.Short) :
    match Stack.derive ts with
    | some d => parse text = .ok d.tree
    | none => ∃ fault, parse text = .error (.format fault) := by
  obtain ⟨found, hscan, hshow⟩ := h.exists_scan 0
  have hrun := mirrors_run .start hshow hd
  rw [parse_of_scan hscan]
  cases found with
  | nil =>
    cases hshow
    exact ⟨.empty, rfl⟩
  | cons token rest =>
    rw [if_neg (by simp), Stack.derive]
    cases hs : Stack.start.run ts with
    | none =>
      rw [hs] at hrun
      obtain ⟨refusal, refused, hm, hne⟩ := hrun
      obtain ⟨fault, hfault⟩ := exists_format_of_refusal (trimmed text) refused hne
      exact ⟨fault, by rw [show Machine.start.run _ = _ from hm]; exact congrArg Except.error hfault⟩
    | some s =>
      rw [hs] at hrun
      rw [show Machine.start.run _ = _ from hrun, Option.bind_some]
      simp only [finish?_machine]
      cases hf : s.finish? with
      | none => exact ⟨_, rfl⟩
      | some d => rfl

theorem exists_reads_of_parse {text : String} {n : UnitExpr} (h : parse text = .ok n) :
    ∃ ts, Reads (trim text.toList) ts ∧ ∀ t ∈ ts, t.Short := by
  cases hscan : scan 0 (trim text.toList) with
  | error refused =>
    have htokens : ∃ fault, tokens (trimmed text) = .error fault := by
      rw [tokens, trimmed, String.toList_ofList, hscan]
      exact ⟨_, rfl⟩
    obtain ⟨fault, hfault⟩ := htokens
    rw [parse, parseTrimmed, hfault] at h
    cases h
  | ok found =>
    obtain ⟨ts, hreads, hshow⟩ := exists_reads_of_scan hscan
    refine ⟨ts, hreads, ?_⟩
    rw [parse_of_scan hscan] at h
    cases hrun : Machine.start.run found with
    | error refused =>
      rw [hrun] at h
      split at h <;> cases h
    | ok m => exact short_of_run hshow hrun

/-- **The parser finds derivations.** A text is parsed to a tree exactly when it is read as the leaves of a derivation
with this tree, none of its integers being longer than the limit. -/
theorem parse_eq_ok_iff {text : String} {n : UnitExpr} : parse text = .ok n ↔
    ∃ d : Derivation .expr, Reads (trim text.toList) d.leaves ∧ (∀ t ∈ d.leaves, t.Short) ∧ d.tree = n := by
  constructor
  · intro h
    obtain ⟨ts, hreads, hshort⟩ := exists_reads_of_parse h
    have hparse := parse_of_reads hreads hshort
    cases hd : Stack.derive ts with
    | none =>
      rw [hd] at hparse
      obtain ⟨fault, hfault⟩ := hparse
      rw [h] at hfault
      cases hfault
    | some d =>
      rw [hd] at hparse
      obtain rfl := Stack.derive_iff.1 hd
      exact ⟨d, hreads, hshort, Except.ok.inj (hparse.symm.trans h)⟩
  · rintro ⟨d, hreads, hshort, rfl⟩
    have hparse := parse_of_reads hreads hshort
    rw [Stack.derive_iff.2 rfl] at hparse
    exact hparse

/-- **The parser accepts its grammar.** When no run of digits in a text is longer than the limit, the text is parsed to
a tree exactly when, trimmed, it is read as the leaves of a derivation with this tree; it has at most one such
derivation; and without one it is refused as badly formed. -/
theorem parse_grammar (text : String) (h : DigitsBelow digitLimit text.toList) :
    (∀ n, parse text = .ok n ↔ ∃ d : Derivation .expr, Reads (trim text.toList) d.leaves ∧ d.tree = n) ∧
    (∀ d e : Derivation .expr, Reads (trim text.toList) d.leaves → Reads (trim text.toList) e.leaves → d = e) ∧
    ((¬ ∃ d : Derivation .expr, Reads (trim text.toList) d.leaves) → ∃ fault, parse text = .error (.format fault)) := by
  have hshort : ∀ {ts : List Terminal}, Reads (trim text.toList) ts → ∀ t ∈ ts, t.Short := by
    rintro ts hreads t ht n rfl
    exact hreads.digits_le (h.mono (isInfix_trim _)) n ht
  refine ⟨fun n => ?_, fun d e hd he => Derivation.leaves_injective (hd.unique he), fun hnone => ?_⟩
  · rw [parse_eq_ok_iff]
    constructor
    · rintro ⟨d, hreads, _, htree⟩
      exact ⟨d, hreads, htree⟩
    · rintro ⟨d, hreads, htree⟩
      exact ⟨d, hreads, hshort hreads, htree⟩
  · cases hscan : scan 0 (trim text.toList) with
    | error refused =>
      refine ⟨.unexpectedCharacter refused.1 refused.2 (trimmed text), ?_⟩
      rw [parse, parseTrimmed, tokens, trimmed, String.toList_ofList, hscan]
      rfl
    | ok found =>
      obtain ⟨ts, hreads, hshow⟩ := exists_reads_of_scan hscan
      have hparse := parse_of_reads hreads (hshort hreads)
      cases hd : Stack.derive ts with
      | none =>
        rw [hd] at hparse
        exact hparse
      | some d =>
        obtain rfl := Stack.derive_iff.1 hd
        exact absurd ⟨d, hreads⟩ hnone

/-- in `kg*m/s2` the quotient binds loosest, and the digits behind the second are its exponent -/
theorem parse_grammar_quotient : DigitsBelow digitLimit "kg*m/s2".toList ∧
    ∃ d : Derivation .expr, Reads (trim "kg*m/s2".toList) d.leaves ∧
      d.tree = .div (.mul (.identifier "kg") (.identifier "m")) (.pow (.identifier "s") 2) := by
  have h : DigitsBelow digitLimit "kg*m/s2".toList := fun run hr _ => hr.length_le.trans (by decide)
  exact ⟨h, ((parse_grammar "kg*m/s2" h).1 _).1 (by decide +kernel)⟩

end UnitAlgebra.Expression

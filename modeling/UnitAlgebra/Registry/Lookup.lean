/-
Lookup in a registry: units by symbol, by name and by an SI prefix before a prefixable unit; families by dimension and
by name; prefixes by symbol and name.

Results:
- `find?_symbol`: a symbol wins over a name.
- `splitBy_prefixable`: what is split off is a prefixable unit.
-/
import UnitAlgebra.Registry.Build

namespace UnitAlgebra.Registry

variable {κ : Type} [Numeric κ]

/-! ## Units and families -/

/-- all units with their families -/
def units (r : Registry κ) : List (Entry κ) := r.families.flatMap fun f => f.units.map fun u => ⟨u, f⟩

def findSymbol? (r : Registry κ) (text : String) : Option (Entry κ) := r.symbols.find? text

def findName? (r : Registry κ) (text : String) : Option (Entry κ) := r.names.find? (Spelling.unitName text)

/-- a unit by its symbol, or else by its name -/
def find? (r : Registry κ) (text : String) : Option (Entry κ) := r.findSymbol? text <|> r.findName? text

def familyOf? (r : Registry κ) (d : Dimension) : Option (UnitFamily κ) := r.dimensions.find? d

def findFamily? (r : Registry κ) (name : String) : Option (UnitFamily κ) :=
  r.familyNames.find? (Spelling.familyName name)

def findPrefix? (r : Registry κ) (text : String) : Option SiPrefix :=
  r.prefixes.find? fun p => p.symbols.contains text || p.name = text

/-- the unit is found by its first symbol, in a family where it takes prefixes -/
def isPrefixable (r : Registry κ) (u : UnitDef κ) : Bool :=
  match r.findSymbol? u.symbol with
  | some e => e.unit.symbols = u.symbols && e.family.isPrefixable u
  | none => false

omit [Numeric κ] in
/-- A symbol wins over a name. -/
theorem find?_symbol {r : Registry κ} {text : String} {e : Entry κ} (h : r.findSymbol? text = some e) :
    r.find? text = some e := by simp [find?, h]

/-! ## Prefixed units -/

/-- a prefixable unit -/
def prefixable? (e : Option (Entry κ)) : Option (Entry κ) := e.filter Entry.isPrefixable

/-- a prefix taken off: by its symbol before a unit symbol, or else by its name before a unit name -/
def splitBy (r : Registry κ) (text : List Char) (p : SiPrefix) : Outcome (Option (Entry κ)) :=
  match (p.stripSymbol text).bind fun s => prefixable? (r.findSymbol? (String.ofList s)) with
  | some e => .ok (some e)
  | none => do
    let remainder ← p.stripName text
    return remainder.bind fun s => prefixable? (r.findName? (String.ofList s))

/-- the first of the prefixes that can be taken off -/
def splitByFirst (r : Registry κ) (text : List Char) : List SiPrefix → Outcome (Option (SiPrefix × Entry κ))
  | [] => .ok none
  | p :: rest => do
    match ← r.splitBy text p with
    | some e => return some (p, e)
    | none => r.splitByFirst text rest

/-- a text as an SI prefix and a prefixable unit -/
def findPrefixed? (r : Registry κ) (text : String) : Outcome (Option (SiPrefix × Entry κ)) :=
  r.splitByFirst text.toList r.prefixes

/-- the prefix of a prefixed unit with what follows it -/
def stripAnyPrefix (r : Registry κ) (text : String) : Outcome (Option (SiPrefix × Option String)) := do
  match ← r.findPrefixed? text with
  | none => return none
  | some (p, _) =>
    match (p.stripSymbol text.toList).map String.ofList with
    | some s => if (r.findSymbol? s).isSome then return some (p, some s) else byName p
    | none => byName p
where
  byName (p : SiPrefix) : Outcome (Option (SiPrefix × Option String)) := do
    return some (p, (← p.stripName text.toList).map String.ofList)

/-- What is split off is a prefixable unit. -/
theorem splitBy_prefixable {r : Registry κ} {text : List Char} {p : SiPrefix} {e : Entry κ}
    (h : r.splitBy text p = .ok (some e)) : e.isPrefixable := by
  have hp : ∀ {o : Option (Entry κ)}, prefixable? o = some e → e.isPrefixable := fun ho =>
    (Option.filter_eq_some_iff.1 ho).2
  unfold splitBy at h
  split at h
  · next heq =>
    obtain ⟨s, _, hs⟩ := Option.bind_eq_some_iff.1 heq
    cases h
    exact hp hs
  · cases hn : p.stripName text with
    | error f => rw [hn] at h; cases h
    | ok remainder =>
      rw [hn] at h
      simp only [bind, Except.bind, pure, Except.pure, Except.ok.injEq] at h
      obtain ⟨s, _, hs⟩ := Option.bind_eq_some_iff.1 h
      exact hp hs

end UnitAlgebra.Registry

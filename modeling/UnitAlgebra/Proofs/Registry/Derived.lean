/-
Symbols that are derived from vectors. A family whose symbol is the text of its dimension can be looked up by that text;
since no two dimensions are written alike, not even as names are compared, the text of a dimension finds what the
dimension itself finds. Only a family with such a name, or an alias, could come in between, and the catalog has none.

Results:
- `agree_addFamily`, `agree_addAlias`: texts and dimensions go on finding the same, at every step of a draft.
- `findFamily?_text`: the text of a dimension finds its family, and no other.
- `Catalog.derived`: so it is in the built-in registry.
-/
import UnitAlgebra.Proofs.Registry.Names
import UnitAlgebra.Proofs.Unit.Displays

namespace UnitAlgebra.Registry

open Spelling Directory

variable {κ : Type}

/-- symbols that are the texts of dimensions, and names that are not compared as such a text -/
structure Derived (families : List (UnitFamily κ)) (aliases : List (String × String)) : Prop where
  symbols : ∀ f ∈ families, f.symbol = f.dimension.text
  names : ∀ f ∈ families, ∀ d : Dimension, familyName d.text ≠ familyName f.name
  bynames : ∀ a ∈ aliases, ∀ d : Dimension, familyName d.text ≠ familyName a.1

namespace Draft

variable {d : Draft κ}

/-- texts find what dimensions find -/
def Agree (d : Draft κ) : Prop :=
  ∀ v : Dimension, d.registry.familyNames.find? (familyName v.text) = d.registry.dimensions.find? v

theorem agree_addFamily (h : d.Agree) {f : UnitFamily κ} (hsymbol : f.symbol = f.dimension.text)
    (hname : ∀ v : Dimension, familyName v.text ≠ familyName f.name) : (d.addFamily f).Agree := by
  intro v
  have hdimensions : (d.addFamily f).registry.dimensions = d.registry.dimensions.enter (f.dimension, f) :=
    (holds_addFamily ⟨rfl, rfl, rfl, rfl⟩ f).dimensions
  -- the name goes under another key, so both directories take the family in under the same condition
  rw [familyNames_addFamily, hdimensions, enter, find?_addNew, find?_addNew, hsymbol, find?_put, find?_put,
    if_neg (hname _), if_neg (hname _), h, h]
  by_cases hv : v = f.dimension
  · simp [hv]
  · rw [if_neg hv, if_neg fun hkey => hv (Dimension.key_injective hkey)]

theorem agree_addFamilies (h : d.Agree) {fs : List (UnitFamily κ)} (hsymbols : ∀ f ∈ fs, f.symbol = f.dimension.text)
    (hnames : ∀ f ∈ fs, ∀ v : Dimension, familyName v.text ≠ familyName f.name) : (fs.foldl addFamily d).Agree := by
  induction fs generalizing d with
  | nil => exact h
  | cons f fs ih =>
    refine ih (agree_addFamily h (hsymbols f List.mem_cons_self) (hnames f List.mem_cons_self)) ?_ ?_
    · intro g hg
      exact hsymbols g (List.mem_cons_of_mem f hg)
    · intro g hg
      exact hnames g (List.mem_cons_of_mem f hg)

theorem agree_addAlias (h : d.Agree) {a : String × String}
    (hname : ∀ v : Dimension, familyName v.text ≠ familyName a.1) : (d.addAlias a).Agree := by
  intro v
  unfold addAlias
  split
  · exact h v
  · rw [find?_addNew, if_neg (hname v)]
    exact h v

theorem agree_addAliases (h : d.Agree) {aliases : List (String × String)}
    (hnames : ∀ a ∈ aliases, ∀ v : Dimension, familyName v.text ≠ familyName a.1) :
    (aliases.foldl addAlias d).Agree := by
  induction aliases generalizing d with
  | nil => exact h
  | cons a aliases ih =>
    refine ih (agree_addAlias h (hnames a List.mem_cons_self)) ?_
    intro b hb
    exact hnames b (List.mem_cons_of_mem a hb)

end Draft

/-- **The text of a dimension finds its family**, and no other one. -/
theorem findFamily?_text {families : List (UnitFamily κ)} {aliases : List (String × String)}
    (h : Derived families aliases) (prefixes : List SiPrefix) (allowed : List String) (d : Dimension) :
    (folded families prefixes allowed aliases).findFamily? d.text =
      (folded families prefixes allowed aliases).familyOf? d := by
  have hempty : Draft.Agree ⟨(empty prefixes allowed : Registry κ), []⟩ := fun _ => rfl
  exact Draft.agree_addAliases (Draft.agree_addFamilies hempty h.symbols h.names) h.bynames d

end UnitAlgebra.Registry

namespace UnitAlgebra.Catalog

/-- The built-in families and aliases are so. -/
theorem derived : Registry.Derived (families : List (UnitFamily Float)) aliases where
  symbols := by decide +kernel
  names := by
    have hall : ∀ f ∈ (families : List (UnitFamily Float)),
        f.name.toList.all Text.isSimple = true ∧ (f.name.toList.map Text.small).any Dimension.isForeign = true := by
      decide +kernel
    intro f hf d
    exact Dimension.key_ne (hall f hf).1 (hall f hf).2
  bynames := by
    have hall : ∀ a ∈ aliases,
        a.1.toList.all Text.isSimple = true ∧ (a.1.toList.map Text.small).any Dimension.isForeign = true := by
      decide +kernel
    intro a ha d
    exact Dimension.key_ne (hall a ha).1 (hall a ha).2

end UnitAlgebra.Catalog

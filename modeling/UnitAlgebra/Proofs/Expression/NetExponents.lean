/-
Evaluation depends on net exponents only. Every name and every integer of a tree has a net exponent, summed over the
places where it stands: products add, quotients subtract, powers multiply. The exponents of the unit that the tree
evaluates to are the sums of those of its names and integers, weighted by their net exponents. So it does not matter how
the factors are ordered, grouped, distributed over powers or cancelled, as long as nothing overflows on the way.

Results:
- `exponents_of_evaluate`: a tree has the exponents of its leaves, put together as the tree says.
- `total_eq_sum`: what a tree puts together is a sum weighted by its net exponents.
- `evaluate_eq_of_netExponent`: trees with the same net exponents have the same dimension and scale.
-/
import UnitAlgebra.Proofs.Expression.Strictness

namespace UnitAlgebra

namespace Expression

/-- what stands at the leaves of a tree -/
inductive Leaf where
  | name (text : String)
  | integer (value : Nat)
deriving DecidableEq, Repr

def Leaf.tree : Leaf → UnitExpr
  | name text => .identifier text
  | integer value => .integer value

end Expression

/-! ## Net exponents -/

namespace UnitExpr

open Expression (Leaf)

/-- the exponent of a leaf, summed over its places in the tree -/
def netExponent (x : Leaf) : UnitExpr → Int
  | identifier name => if x = .name name then 1 else 0
  | integer value => if x = .integer value then 1 else 0
  | mul left right => left.netExponent x + right.netExponent x
  | div left right => left.netExponent x - right.netExponent x
  | pow base n => n * base.netExponent x

def leaves : UnitExpr → Finset Leaf
  | identifier name => {.name name}
  | integer value => {.integer value}
  | mul left right | div left right => left.leaves ∪ right.leaves
  | pow base _ => base.leaves

/-- numbers at the leaves, put together as the tree says: products add, quotients subtract, powers multiply -/
def total (f : Leaf → Int) : UnitExpr → Int
  | identifier name => f (.name name)
  | integer value => f (.integer value)
  | mul left right => left.total f + right.total f
  | div left right => left.total f - right.total f
  | pow base n => n * base.total f

variable {t t' : UnitExpr}

/-- **What a tree puts together is a weighted sum.** Leaves that the tree does not have may be among the summands. -/
theorem total_eq_sum (f : Leaf → Int) {s : Finset Leaf} (hs : t.leaves ⊆ s) :
    t.total f = ∑ x ∈ s, t.netExponent x * f x := by
  induction t with
  | identifier name =>
    have hmem : Leaf.name name ∈ s := hs (Finset.mem_singleton_self _)
    simp [total, netExponent, ite_mul, Finset.sum_ite_eq', hmem]
  | integer value =>
    have hmem : Leaf.integer value ∈ s := hs (Finset.mem_singleton_self _)
    simp [total, netExponent, ite_mul, Finset.sum_ite_eq', hmem]
  | mul left right ihl ihr =>
    rw [total, ihl (Finset.union_subset_left hs), ihr (Finset.union_subset_right hs), ← Finset.sum_add_distrib]
    exact Finset.sum_congr rfl fun x _ => (add_mul ..).symm
  | div left right ihl ihr =>
    rw [total, ihl (Finset.union_subset_left hs), ihr (Finset.union_subset_right hs), ← Finset.sum_sub_distrib]
    exact Finset.sum_congr rfl fun x _ => (sub_mul ..).symm
  | pow base n ih =>
    rw [total, ih hs, Finset.mul_sum]
    exact Finset.sum_congr rfl fun x _ => (mul_assoc ..).symm

/-- trees with the same net exponents put the same together, whatever stands at the leaves -/
theorem total_congr (h : ∀ x, t.netExponent x = t'.netExponent x) (f : Leaf → Int) : t.total f = t'.total f := by
  have hright : t'.leaves ⊆ t.leaves ∪ t'.leaves := Finset.subset_union_right
  rw [total_eq_sum f Finset.subset_union_left, total_eq_sum f hright]
  exact Finset.sum_congr rfl fun x _ => by rw [h x]

end UnitExpr

namespace Expression

/-! ## Exponents of units -/

section

variable {κ : Type} [Numeric κ]

/-- the meaning of a leaf; one, where it has none -/
def Leaf.meaning (r : Registry κ) (x : Leaf) : UnitMeaning κ :=
  match evaluate r false x.tree with
  | .ok u => u
  | .error _ => .stored .one .one

variable {r : Registry κ} {t : UnitExpr} {u : UnitMeaning κ}

theorem Leaf.meaning_of_evaluate {x : Leaf} (h : evaluate r false x.tree = .ok u) : x.meaning r = u := by
  rw [meaning, h]

/-- **The exponents of a tree.** A unit has the exponents of its leaves, put together as its tree says. -/
theorem exponents_of_evaluate (h : evaluate r false t = .ok u) :
    (∀ a, (u.dimension.get a).val = t.total fun x => ((x.meaning r).dimension.get a).val) ∧
      ∀ b, (u.scale.get b).val = t.total fun x => ((x.meaning r).scale.get b).val := by
  induction t generalizing u with
  | identifier name =>
    have hu : (Leaf.name name).meaning r = u := Leaf.meaning_of_evaluate h
    simp [UnitExpr.total, hu]
  | integer value =>
    have hu : (Leaf.integer value).meaning r = u := Leaf.meaning_of_evaluate h
    simp [UnitExpr.total, hu]
  | mul left right ihl ihr =>
    obtain ⟨v, hv, h⟩ := Outcome.bind_eq_ok_iff.1 h
    obtain ⟨w, hw, h⟩ := Outcome.bind_eq_ok_iff.1 h
    obtain ⟨hdim, hscale⟩ := (UnitMeaning.follows_mul v w True).exponents u h
    exact ⟨fun a => by rw [hdim, (ihl hv).1, (ihr hw).1]; rfl, fun b => by rw [hscale, (ihl hv).2, (ihr hw).2]; rfl⟩
  | div left right ihl ihr =>
    obtain ⟨v, hv, h⟩ := Outcome.bind_eq_ok_iff.1 h
    obtain ⟨w, hw, h⟩ := Outcome.bind_eq_ok_iff.1 h
    obtain ⟨hdim, hscale⟩ := (UnitMeaning.follows_div v w).exponents u h
    exact ⟨fun a => by rw [hdim, (ihl hv).1, (ihr hw).1]; rfl, fun b => by rw [hscale, (ihl hv).2, (ihr hw).2]; rfl⟩
  | pow base n ih =>
    obtain ⟨v, hv, h⟩ := Outcome.bind_eq_ok_iff.1 h
    obtain ⟨hdim, hscale⟩ := (UnitMeaning.follows_pow v n).exponents u h
    exact ⟨fun a => by rw [hdim, (ih hv).1]; rfl, fun b => by rw [hscale, (ih hv).2]; rfl⟩

/-- **Evaluation depends on net exponents only.** Two trees in which every name and every integer has the same net
exponent have the same dimension and the same scale, if they have a meaning at all. One of them may be read strictly. -/
theorem evaluate_eq_of_netExponent (r : Registry κ) (strict strict' : Bool) (t t' : UnitExpr) (u v : UnitMeaning κ)
    (hnet : ∀ x, t.netExponent x = t'.netExponent x) (hu : evaluate r strict t = .ok u)
    (hv : evaluate r strict' t' = .ok v) : u.dimension = v.dimension ∧ u.scale = v.scale := by
  obtain ⟨hdim, hscale⟩ := exponents_of_evaluate (evaluate_of_strict hu)
  obtain ⟨hdim', hscale'⟩ := exponents_of_evaluate (evaluate_of_strict hv)
  refine ⟨Dimension.ext_get fun a => Exponent.ext ?_, Scale.ext_get fun b => Exponent.ext ?_⟩
  · rw [hdim, hdim', UnitExpr.total_congr hnet]
  · rw [hscale, hscale', UnitExpr.total_congr hnet]

end

/-- ten meters squared over ten, and ten meters times a meter -/
theorem evaluate_eq_of_netExponent_meter :
    let t : UnitExpr := .div (.pow (.mul (.integer 10) (.identifier "m")) 2) (.integer 10)
    let t' : UnitExpr := .mul (.identifier "m") (.mul (.integer 10) (.identifier "m"))
    (∀ x, t.netExponent x = t'.netExponent x) ∧ ∃ u v, evaluate meterOnly false t = .ok u ∧
      evaluate meterOnly true t' = .ok v ∧ u.dimension = v.dimension ∧ u.scale = v.scale := by
  intro t t'
  have hnet : ∀ x, t.netExponent x = t'.netExponent x := by
    intro x
    simp only [t, t', UnitExpr.netExponent]
    ring
  have hu : (evaluate meterOnly false t).isOk = true := by decide +kernel
  have hv : (evaluate meterOnly true t').isOk = true := by decide +kernel
  cases hu' : evaluate meterOnly false t with
  | error fault =>
    rw [hu'] at hu
    cases hu
  | ok u =>
    cases hv' : evaluate meterOnly true t' with
    | error fault =>
      rw [hv'] at hv
      cases hv
    | ok v => exact ⟨hnet, u, v, rfl, rfl, evaluate_eq_of_netExponent meterOnly false true t t' u v hnet hu' hv'⟩

end Expression

end UnitAlgebra

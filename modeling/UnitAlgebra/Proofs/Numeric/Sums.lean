/-
Sums of rows. Where one number changes nothing as a factor and another nothing as a summand, a short row has the sum
that adding from the left gives; where sums are exact, a row of any length has it.

Results:
- `rowSum_short`: up to seven numbers are added from the left.
- `rowSum_eq_sum`: the sum of a row of exact numbers is their sum.
- `add_rowSum`: so it makes no difference whether they are added one by one.
-/
import Mathlib
import UnitAlgebra.Numeric.Sum
import UnitAlgebra.Proofs.Numeric.Exact

namespace UnitAlgebra.Numeric

/-! ## Neutral numbers -/

/-- one changes nothing as a factor, negative zero nothing as a summand -/
class Neutral (κ : Type) [Numeric κ] : Prop where
  one_mul (x : κ) : mul one x = x
  negZero_add (x : κ) : add (neg zero) x = x

theorem rowSum_short {κ : Type} [Numeric κ] [Neutral κ] {x : κ} {xs : List κ} (h : xs.length < 7) :
    rowSum (x :: xs) = addAll x xs := by
  have hshort : (x :: xs).length < 8 := Nat.succ_lt_succ h
  rw [rowSum_of_lt hshort, addAll, List.foldl_cons, Neutral.negZero_add]
  rfl

/-! ## Exact sums -/

section Exact

variable [Numeric ℝ] [Exact]

instance : Neutral ℝ where
  one_mul x := by rw [Exact.mul, Exact.one, MulOneClass.one_mul]
  negZero_add x := by rw [Exact.add, Exact.neg, Exact.zero, neg_zero, zero_add]

theorem addAll_eq_sum (x : ℝ) (xs : List ℝ) : addAll x xs = x + xs.sum := by
  induction xs generalizing x with
  | nil => exact (add_zero x).symm
  | cons y ys ih =>
    calc addAll x (y :: ys) = addAll (add x y) ys := rfl
      _ = x + (y :: ys).sum := by rw [ih, Exact.add, List.sum_cons, add_assoc]

theorem sum_zipWith_add (xs ys : List ℝ) (h : xs.length = ys.length) :
    (List.zipWith add xs ys).sum = xs.sum + ys.sum := by
  induction xs generalizing ys with
  | nil =>
    obtain rfl := List.length_eq_zero_iff.1 h.symm
    exact (add_zero _).symm
  | cons x xs ih =>
    obtain ⟨y, ys, rfl⟩ := List.exists_cons_of_length_eq_add_one h.symm
    rw [List.zipWith_cons_cons, List.sum_cons, List.sum_cons, List.sum_cons, ih ys (Nat.succ.inj h), Exact.add]
    ring

/-- eight sums stay eight, and all that has been added is in them -/
theorem sum_inTurn {sums : List ℝ} (hsums : sums.length = 8) {n : Nat} {xs : List ℝ} (hxs : 8 * n ≤ xs.length) :
    (inTurn sums n xs).length = 8 ∧ (inTurn sums n xs).sum = sums.sum + (xs.take (8 * n)).sum := by
  induction n generalizing sums xs with
  | zero => exact ⟨hsums, (add_zero _).symm⟩
  | succ n ih =>
    have htake : (xs.take 8).length = 8 := by
      rw [List.length_take]
      omega
    have hnext : (List.zipWith add sums (xs.take 8)).length = 8 := by
      rw [List.length_zipWith, hsums, htake, Nat.min_self]
    have hrest : 8 * n ≤ (xs.drop 8).length := by
      rw [List.length_drop]
      omega
    obtain ⟨hlength, hsum⟩ := ih hnext hrest
    have hsplit : xs.take (8 * (n + 1)) = xs.take 8 ++ (xs.drop 8).take (8 * n) := by
      rw [Nat.mul_succ, Nat.add_comm, List.take_add]
    refine ⟨hlength, hsum.trans ?_⟩
    rw [sum_zipWith_add _ _ (hsums.trans htake.symm), hsplit, List.sum_append, add_assoc]

theorem sum_inPairs : ∀ xs : List ℝ, (inPairs xs).sum = xs.sum
  | [] => rfl
  | [_] => rfl
  | x :: y :: rest => by
    rw [inPairs, List.sum_cons, sum_inPairs rest, Exact.add, List.sum_cons, List.sum_cons, add_assoc]

omit [Exact] in
theorem length_inPairs : ∀ xs : List ℝ, (inPairs xs).length = (xs.length + 1) / 2
  | [] => rfl
  | [_] => by simp [inPairs]
  | x :: y :: rest => by
    rw [inPairs, List.length_cons, length_inPairs rest, List.length_cons, List.length_cons]
    omega

/-- **Exact numbers** have one sum, in whatever order they are added. -/
theorem rowSum_eq_sum (xs : List ℝ) : rowSum xs = xs.sum := by
  induction xs using rowSum.induct with
  | case1 xs n hshort => rw [rowSum_of_lt hshort, addAll_eq_sum, Exact.neg, Exact.zero, neg_zero, zero_add]
  | case2 xs n hlong hlow =>
    have height : 8 ≤ xs.length := Nat.le_of_not_lt hlong
    have htake : (xs.take 8).length = 8 := by
      rw [List.length_take]
      omega
    have hrest : 8 * (xs.length / 8 - 1) ≤ (xs.drop 8).length := by
      rw [List.length_drop]
      omega
    obtain ⟨hlength, hsum⟩ := sum_inTurn htake hrest
    have hsingle : (inPairs (inPairs (inPairs (inTurn (xs.take 8) (xs.length / 8 - 1) (xs.drop 8))))).length = 1 := by
      simp only [length_inPairs, hlength]
    obtain ⟨s, hs⟩ := List.length_eq_one_iff.1 hsingle
    have htotal : s = (xs.take 8).sum + ((xs.drop 8).take (8 * (xs.length / 8 - 1))).sum := by
      rw [← hsum, ← sum_inPairs, ← sum_inPairs, ← sum_inPairs, hs, List.sum_singleton]
    have hwhole : xs.take (xs.length / 8 * 8) = xs.take 8 ++ (xs.drop 8).take (8 * (xs.length / 8 - 1)) := by
      rw [← List.take_add]
      congr 1
      omega
    calc rowSum xs = s + (xs.drop (xs.length / 8 * 8)).sum := by
          rw [rowSum_of_le height hlow, hs, List.headD_cons, addAll_eq_sum]
      _ = (xs.take (xs.length / 8 * 8)).sum + (xs.drop (xs.length / 8 * 8)).sum := by
          rw [hwhole, List.sum_append, htotal]
      _ = xs.sum := by rw [← List.sum_append, List.take_append_drop]
  | case3 xs n hlong hhigh half ihfirst ihrest =>
    rw [rowSum, if_neg hlong, if_neg hhigh]
    calc add (rowSum (xs.take half)) (rowSum (xs.drop half)) = (xs.take half).sum + (xs.drop half).sum := by
          rw [Exact.add, ihfirst, ihrest]
      _ = xs.sum := by rw [← List.sum_append, List.take_append_drop]

theorem add_rowSum (x : ℝ) (xs : List ℝ) : add x (rowSum xs) = addAll x xs := by
  rw [Exact.add, rowSum_eq_sum, addAll_eq_sum]

end Exact

end UnitAlgebra.Numeric

/-
Sums of rows of numbers. Up to seven numbers are added one after the other; up to 128 go in turn to eight sums, which
are then added in pairs; a longer row is cut into two, which are summed apart. The order matters where numbers are
rounded: a long row does not have the sum that adding from the left gives.

Results:
- `rowSum_of_lt`, `rowSum_of_le`: short rows are summed without being cut.
- `rowSum_eight`: eight numbers are added in pairs.
-/
import UnitAlgebra.Numeric

namespace UnitAlgebra.Numeric

variable {κ : Type} [Numeric κ]

/-- numbers added to a number, one after the other -/
def addAll (x : κ) (xs : List κ) : κ := xs.foldl add x

/-- a row of numbers added to eight sums in turn, so many times over -/
def inTurn (sums : List κ) : Nat → List κ → List κ
  | 0, _ => sums
  | n + 1, xs => inTurn (List.zipWith add sums (xs.take 8)) n (xs.drop 8)

/-- neighbours added -/
def inPairs : List κ → List κ
  | x :: y :: rest => add x y :: inPairs rest
  | xs => xs

/-- the sum of a row of numbers -/
def rowSum (xs : List κ) : κ :=
  let n := xs.length
  if n < 8 then addAll (neg zero) xs
  else if n ≤ 128 then
    let sums := inTurn (xs.take 8) (n / 8 - 1) (xs.drop 8)
    addAll ((inPairs (inPairs (inPairs sums))).headD zero) (xs.drop (n / 8 * 8))
  else
    -- both parts but the last are made of whole eights
    let half := n / 2 / 8 * 8
    add (rowSum (xs.take half)) (rowSum (xs.drop half))
termination_by xs.length
decreasing_by
  · simp only [List.length_take]
    omega
  · simp only [List.length_drop]
    omega

theorem rowSum_of_lt {xs : List κ} (h : xs.length < 8) : rowSum xs = addAll (neg zero) xs := by
  rw [rowSum, if_pos h]

theorem rowSum_of_le {xs : List κ} (hlow : 8 ≤ xs.length) (hhigh : xs.length ≤ 128) :
    rowSum xs = addAll ((inPairs (inPairs (inPairs
      (inTurn (xs.take 8) (xs.length / 8 - 1) (xs.drop 8))))).headD zero) (xs.drop (xs.length / 8 * 8)) := by
  rw [rowSum, if_neg (Nat.not_lt.2 hlow), if_pos hhigh]

/-- Eight numbers are added in pairs. -/
theorem rowSum_eight (a b c d e f g h : κ) : rowSum [a, b, c, d, e, f, g, h] =
    add (add (add a b) (add c d)) (add (add e f) (add g h)) := by
  rw [rowSum_of_le (by simp) (by simp)]
  simp [inTurn, inPairs, addAll]

end UnitAlgebra.Numeric

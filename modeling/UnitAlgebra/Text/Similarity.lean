/-
How alike two texts are: the longest common block, then the longest ones to its left and to its right, and so on. The
likeness is twice the number of matched characters over the number of all characters.

In a text of 200 characters and more, characters that make up over one percent of it start no block.
Every match takes characters off the first text, which bounds the search.
-/

namespace UnitAlgebra.Text

/-- a common block: where it begins in either text, and its length -/
structure Block where
  left : Nat
  right : Nat
  size : Nat
deriving DecidableEq, Repr

/-- the lengths of the common blocks that end with `c` at each place of the second text; `before` holds those that
end one character earlier in the first -/
def blockEnds (popular : Char → Bool) (c : Char) (before : List Nat) (right : List Char) : List Nat :=
  (right.zip (0 :: before)).map fun (d, n) => if c = d && !popular d then n + 1 else 0

/-- the first longest block among those that end at a row -/
def longerBlock (row : Nat) (best : Block) (ends : List Nat) : Block :=
  (ends.zipIdx).foldl (fun b (n, j) => if b.size < n then ⟨row + 1 - n, j + 1 - n, n⟩ else b) best

/-- the longest block of characters that are not popular, row by row of the first text -/
def scanRows (popular : Char → Bool) (right : List Char) : Nat → List Nat → Block → List Char → Block
  | _, _, best, [] => best
  | row, before, best, c :: rest =>
    let ends := blockEnds popular c before right
    scanRows popular right (row + 1) ends (longerBlock row best ends) rest

/-- how long two texts agree -/
def agreement : List Char → List Char → Nat
  | a :: as, b :: bs => if a = b then agreement as bs + 1 else 0
  | _, _ => 0

/-- the longest block, with the popular characters on either side that belong to it too -/
def longestBlock (popular : Char → Bool) (left right : List Char) : Block :=
  let b := scanRows popular right 0 (right.map fun _ => 0) ⟨0, 0, 0⟩ left
  let back := agreement (left.take b.left).reverse (right.take b.right).reverse
  let ahead := agreement (left.drop (b.left + b.size)) (right.drop (b.right + b.size))
  ⟨b.left - back, b.right - back, b.size + back + ahead⟩

/-- the number of matched characters -/
def matched (popular : Char → Bool) (left right : List Char) : Nat :=
  match longestBlock popular left right with
  | ⟨i, j, size⟩ =>
    if _ : 0 < size ∧ i + size ≤ left.length then
      size + matched popular (left.take i) (right.take j) +
        matched popular (left.drop (i + size)) (right.drop (j + size))
    else 0
termination_by left.length
decreasing_by
  · simp only [List.length_take]; omega
  · simp only [List.length_drop]; omega

/-- characters that make up over one percent of a long text -/
def popularIn (text : List Char) (c : Char) : Bool :=
  200 ≤ text.length && text.length / 100 + 1 < text.count c

/-- the likeness of a candidate to a word, as a quotient -/
structure Likeness where
  matched : Nat
  total : Nat
deriving DecidableEq, Repr

def likeness (candidate word : List Char) : Likeness :=
  ⟨2 * matched (popularIn word) candidate word, candidate.length + word.length⟩

/-- at least three fifths; two empty texts are alike -/
def Likeness.isClose (l : Likeness) : Bool := l.total = 0 || 3 * l.total ≤ 5 * l.matched

/-- more alike, or equally alike and later in the order of texts -/
def Likeness.above (a b : Likeness × String) : Bool :=
  let left := a.1.matched * b.1.total
  let right := b.1.matched * a.1.total
  if left = right then b.2 < a.2 else right < left

/-- the candidates closest to a word, the closest first -/
def closest (limit : Nat) (word : String) (candidates : List String) : List String :=
  let scored := candidates.map fun c => (likeness c.toList word.toList, c)
  (((scored.filter fun s => s.1.isClose).mergeSort Likeness.above).take limit).map Prod.snd

end UnitAlgebra.Text

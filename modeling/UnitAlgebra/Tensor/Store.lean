/-
Shared memory. A view is a grid of places in a buffer: two views of one buffer see each other's writes, a copy has a
buffer of its own. Rearranging a view rearranges its places.

Results:
- `read_write_other`: a write leaves the views of other buffers as they are.
-/
import UnitAlgebra.Tensor.Elementwise

namespace UnitAlgebra

/-! ## Stores -/

/-- cells of one kind, which views share -/
structure Buffer (κ : Type) where
  kind : Kind
  cells : List (Cell κ)

/-- all buffers, oldest first -/
structure Store (κ : Type) where
  buffers : List (Buffer κ)

/-- places in a buffer -/
structure View where
  buffer : Nat
  places : Grid Nat
deriving DecidableEq, Repr

namespace Store

variable {κ : Type} [Numeric κ]

def empty : Store κ := ⟨[]⟩

def buffer? (s : Store κ) (n : Nat) : Option (Buffer κ) := s.buffers[n]?

/-- the kind of the cells of a view -/
def kind (s : Store κ) (v : View) : Kind :=
  match s.buffer? v.buffer with
  | some b => b.kind
  | none => .real

/-- what a view shows -/
def read (s : Store κ) (v : View) : Tensor κ :=
  match s.buffer? v.buffer with
  | some b => ⟨b.kind, v.places.map fun p => (b.cells[p]?).getD (.real Numeric.zero)⟩
  | none => ⟨.real, ⟨v.places.shape, []⟩⟩

/-- a buffer of its own for a tensor, and the view of all of it -/
def alloc (s : Store κ) (t : Tensor κ) : Store κ × View :=
  (⟨s.buffers ++ [⟨t.kind, t.grid.entries⟩]⟩,
    ⟨s.buffers.length, ⟨t.grid.shape, List.range t.grid.entries.length⟩⟩)

/-- cells written at places, the last write of a place counts -/
def writeCells (k : Kind) (cells : List (Cell κ)) (writes : List (Nat × Cell κ)) : List (Cell κ) :=
  writes.foldl (fun cs w => cs.set w.1 (w.2.cast k)) cells

/-- a tensor of the same box written through a view -/
def write (s : Store κ) (v : View) (t : Tensor κ) : Store κ :=
  match s.buffer? v.buffer with
  | some b => ⟨s.buffers.set v.buffer ⟨b.kind, writeCells b.kind b.cells (v.places.entries.zip t.grid.entries)⟩⟩
  | none => s

omit [Numeric κ] in
theorem buffer?_set_other {s : Store κ} {b : Buffer κ} {m n : Nat} (h : m ≠ n) :
    (⟨s.buffers.set m b⟩ : Store κ).buffer? n = s.buffer? n := by
  simp [buffer?, List.getElem?_set_ne h]

/-- A write leaves the views of other buffers as they are. -/
theorem read_write_other {s : Store κ} {v w : View} {t : Tensor κ} (h : v.buffer ≠ w.buffer) :
    (s.write v t).read w = s.read w := by
  unfold write
  split
  · simp only [read, buffer?_set_other h]
  · rfl

end Store

/-! ## Rearranged views -/

namespace View

def shape (v : View) : List Nat := v.places.shape

def rank (v : View) : Nat := v.places.rank

/-- the places follow one another -/
def isContiguous (v : View) : Bool :=
  match v.places.entries with
  | [] => true
  | p :: _ => v.places.entries = (List.range v.places.entries.length).map (p + ·)

/-- the places can be walked with a fixed step along every axis of a box of the same volume -/
def isStrided (v : View) (shape : List Nat) : Bool :=
  let g : Grid Nat := ⟨shape, v.places.entries⟩
  let origin : Int := (g.at? (shape.map fun _ => 0)).getD 0
  let step (a : Nat) : Int :=
    if shape.getD a 0 < 2 then 0
    else ((g.at? ((List.range shape.length).map fun b => if b = a then 1 else 0)).getD 0 : Nat) - origin
  (Grid.indices shape).all fun i =>
    ((g.at? i).getD 0 : Nat) = origin + (i.zipIdx).foldl (fun place (n, a) => place + n * step a) 0

end View

end UnitAlgebra

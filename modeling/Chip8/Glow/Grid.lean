import Chip8.Indexed
/-!
# Chip8.Glow.Grid

Tables of cells.

A screen is a table of its rows, and a picture is one of its columns, so a picture begins with
`Grid.transpose`. `Grid.kron` puts a copy of a second table in the place of every cell of a first
one, scaled by that cell; with a table of ones it repeats the cells.
-/

namespace Chip8

/-- A table of `rows` × `cols` cells. -/
abbrev Grid (α : Type) (rows cols : Nat) := Vector (Vector α cols) rows

namespace Grid

variable {α β : Type} {rows cols p q : Nat}

def transpose (g : Grid α rows cols) : Grid α cols rows :=
  Vector.ofFn fun c => Vector.ofFn fun r => g[r][c]

/-- Does something to every cell. -/
def each (g : Grid α rows cols) (f : α → β) : Grid β rows cols :=
  Vector.ofFn fun r => Vector.ofFn fun c => f g[r][c]

/-- A table with one value in every cell. -/
def filled (a : α) : Grid α rows cols := .replicate rows (.replicate cols a)

/-- The copy that a position is in, in a line of `n` copies of length `p`. -/
def copyOf {n : Nat} (i : Fin (p * n)) : Fin n := ⟨i / p, Nat.div_lt_of_lt_mul i.isLt⟩

/-- The position within the copy. -/
def withinCopy {n : Nat} (i : Fin (p * n)) : Fin p :=
  ⟨i % p, Nat.mod_lt _ (Nat.pos_of_mul_pos_right i.pos)⟩

/-- The Kronecker product of two tables. -/
def kron [Mul α] (g : Grid α rows cols) (h : Grid α p q) : Grid α (p * rows) (q * cols) :=
  Vector.ofFn fun r => Vector.ofFn fun c =>
    g[copyOf r][copyOf c] * h[withinCopy r][withinCopy c]

@[simp] theorem getElem_transpose (g : Grid α rows cols) (c : Fin cols) (r : Fin rows) :
    (transpose g)[c][r] = g[r][c] := by
  simp [transpose]

@[simp] theorem getElem_each (g : Grid α rows cols) (f : α → β) (r : Fin rows) (c : Fin cols) :
    (each g f)[r][c] = f g[r][c] := by
  simp [each]

@[simp] theorem getElem_filled (a : α) (r : Fin rows) (c : Fin cols) :
    (filled a : Grid α rows cols)[r][c] = a := by
  simp [filled]

@[simp] theorem getElem_kron [Mul α] (g : Grid α rows cols) (h : Grid α p q)
    (r : Fin (p * rows)) (c : Fin (q * cols)) :
    (kron g h)[r][c] = g[copyOf r][copyOf c] * h[withinCopy r][withinCopy c] := by
  simp [kron]

end Grid

end Chip8

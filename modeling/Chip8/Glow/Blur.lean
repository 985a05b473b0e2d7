import Chip8.Glow.Grid
import Chip8.Number.Pattern
/-!
# Chip8.Glow.Blur

The box blur that spreads a glow.

A pass replaces every cell by the mean of itself and its two neighbours along its row, and then
does the same along the columns of the result. Neighbours are cyclic: the first cell of a line is
next to the last, and in a line of one cell the cell is its own neighbour on both sides. So no
cell is special, and an edge is blurred like every other place.

The mean is a parameter (`Mean`), because all arithmetic is in the type of the cells and rounds as
that type does.
-/

namespace Chip8

/-- Types with a mean of three neighbouring cells, given in the order of their positions. -/
class Mean (α : Type) where
  /-- The mean of the cell before, the cell itself and the cell behind. -/
  mean : α → α → α → α

instance : Mean Float where
  mean before self behind := ((before + self) + behind) / 3.0

instance : Mean Float32 where
  mean before self behind := ((before + self) + behind) / 3.0

instance {α : Type} [PatternFormat α] [Add α] [Div α] [OfScientific α] : Mean (Pattern α) where
  mean before self behind :=
    ((before.combine (· + ·) self).combine (· + ·) behind).map (· / 3.0)

namespace Grid

variable {α : Type} {rows cols : Nat}

/-- The position before, around the end. -/
def before {n : Nat} (i : Fin n) : Fin n := ⟨(i + (n - 1)) % n, Nat.mod_lt _ i.pos⟩

/-- The position behind, around the end. -/
def behind {n : Nat} (i : Fin n) : Fin n := ⟨(i + 1) % n, Nat.mod_lt _ i.pos⟩

def blurLine [Mean α] {n : Nat} (cells : Vector α n) : Vector α n :=
  Vector.ofFn fun i => Mean.mean cells[before i] cells[i] cells[behind i]

def blurRows [Mean α] (g : Grid α rows cols) : Grid α rows cols :=
  Vector.ofFn fun r => blurLine g[r]

def blurColumns [Mean α] (g : Grid α rows cols) : Grid α rows cols :=
  Vector.ofFn fun r =>
    let above := g[before r]
    let here := g[r]
    let below := g[behind r]
    Vector.ofFn fun c => Mean.mean above[c] here[c] below[c]

/-- Blurs along the rows and then along the columns, `n` times. -/
def blurTimes [Mean α] (g : Grid α rows cols) : (n : Nat) → Grid α rows cols
  | 0 => g
  | n + 1 => blurTimes (blurColumns (blurRows g)) n

/-- The box blur with a number of passes; none if the number is negative. -/
def boxBlur [Mean α] (g : Grid α rows cols) (passes : Int) : Grid α rows cols :=
  blurTimes g passes.toNat

theorem blurTimes_add [Mean α] (g : Grid α rows cols) (m n : Nat) :
    blurTimes g (m + n) = blurTimes (blurTimes g m) n := by
  induction m generalizing g with
  | zero => simp [blurTimes]
  | succ m ih => rw [Nat.succ_add, blurTimes, ih, blurTimes]

@[simp] theorem getElem_blurRows [Mean α] (g : Grid α rows cols) (r : Fin rows) (c : Fin cols) :
    (blurRows g)[r][c] = Mean.mean g[r][before c] g[r][c] g[r][behind c] := by
  simp [blurRows, blurLine]

@[simp] theorem getElem_blurColumns [Mean α] (g : Grid α rows cols) (r : Fin rows) (c : Fin cols) :
    (blurColumns g)[r][c] = Mean.mean g[before r][c] g[r][c] g[behind r][c] := by
  simp [blurColumns]

end Grid

end Chip8

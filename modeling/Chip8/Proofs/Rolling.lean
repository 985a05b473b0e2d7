import Chip8.Glow.Blur

/-!
# Chip8.Proofs.Rolling

The blur has no special place.

A table is rolled by pushing its cells down and across, around the ends. Going to a neighbour is a
step of the same kind (`before_eq_moved`, `behind_eq_moved`), and steps along a cyclic line can be
taken in any order (`moved_moved`). So a cell of a rolled table finds the same neighbours on the
same sides as it did where it came from, and its mean is taken of the same three values in the same
order.

Nothing is used of the mean. What is said holds of numbers that round and of the patterns of bits
that stand for them, for which adding up in another order would come to something else.
-/

namespace Chip8.Grid

variable {α : Type} {rows cols n : Nat}

/-! ### Steps along a cyclic line -/

/-- The position some steps on, or back if the number is negative, around the ends. -/
def moved (i : Fin n) (steps : Int) : Fin n :=
  ⟨((i.val + steps) % n).toNat, by
    have hpos : (0 : Int) < n := Int.natCast_pos.mpr i.pos
    rw [Int.toNat_lt (Int.emod_nonneg _ (Int.ne_of_gt hpos))]
    exact Int.emod_lt_of_pos _ hpos⟩

theorem val_moved (i : Fin n) (steps : Int) :
    ((moved i steps).val : Int) = (i.val + steps) % n := by
  have hpos : (0 : Int) < n := Int.natCast_pos.mpr i.pos
  exact Int.toNat_of_nonneg (Int.emod_nonneg _ (Int.ne_of_gt hpos))

/-- A position is known by its number. -/
theorem eq_moved {i j : Fin n} {steps : Int} (h : (j.val : Int) = (i.val + steps) % n) :
    j = moved i steps := by
  apply Fin.ext
  apply Int.ofNat_inj.mp
  rw [h, val_moved]

theorem moved_moved (i : Fin n) (k l : Int) : moved (moved i k) l = moved i (k + l) := by
  apply eq_moved
  rw [val_moved, val_moved, Int.emod_add_emod, Int.add_assoc]

theorem before_eq_moved (i : Fin n) : before i = moved i (-1) := by
  apply eq_moved
  have hlast : ((i.val + (n - 1) : Nat) : Int) = i.val + -1 + n := by
    have := i.pos
    omega
  show (((i.val + (n - 1)) % n : Nat) : Int) = _
  rw [Int.natCast_emod, hlast, Int.add_emod_right]

theorem behind_eq_moved (i : Fin n) : behind i = moved i 1 := by
  apply eq_moved
  exact Int.natCast_emod (i.val + 1) n

theorem before_moved (i : Fin n) (k : Int) : before (moved i k) = moved (before i) k := by
  rw [before_eq_moved, before_eq_moved, moved_moved, moved_moved, Int.add_comm]

theorem behind_moved (i : Fin n) (k : Int) : behind (moved i k) = moved (behind i) k := by
  rw [behind_eq_moved, behind_eq_moved, moved_moved, moved_moved, Int.add_comm]

/-! ### Rolled tables -/

/-- The table with every cell pushed down and across, around the ends. A cell of it comes from as
many steps back. -/
def roll (g : Grid α rows cols) (down across : Int) : Grid α rows cols :=
  Vector.ofFn fun r => Vector.ofFn fun c => g[moved r (-down)][moved c (-across)]

@[simp] theorem getElem_roll (g : Grid α rows cols) (down across : Int) (r : Fin rows)
    (c : Fin cols) : (g.roll down across)[r][c] = g[moved r (-down)][moved c (-across)] := by
  simp [roll]

/-- Two tables are equal if they have the same cells. -/
theorem ext_cells {g h : Grid α rows cols}
    (heq : ∀ (r : Fin rows) (c : Fin cols), g[r][c] = h[r][c]) : g = h :=
  ext_entries fun r => ext_entries fun c => heq r c

variable [Mean α]

theorem blurRows_roll (g : Grid α rows cols) (down across : Int) :
    (g.roll down across).blurRows = g.blurRows.roll down across := by
  apply ext_cells
  intro r c
  simp only [getElem_blurRows, getElem_roll, before_moved, behind_moved]

theorem blurColumns_roll (g : Grid α rows cols) (down across : Int) :
    (g.roll down across).blurColumns = g.blurColumns.roll down across := by
  apply ext_cells
  intro r c
  simp only [getElem_blurColumns, getElem_roll, before_moved, behind_moved]

/-- What one pass does in both directions, several do. -/
theorem blurTimes_roll (g : Grid α rows cols) (down across : Int) (n : Nat) :
    (g.roll down across).blurTimes n = (g.blurTimes n).roll down across := by
  induction n generalizing g with
  | zero => rfl
  | succ n ih => rw [blurTimes, blurRows_roll, blurColumns_roll, ih, blurTimes]

/-- **The blur has no special place,** and its passes add up. Blurring a rolled table gives the
rolled blur of it, cell by cell the same pattern of bits, for any number of passes and any roll.
Passes after passes are as many together, and no passes or fewer leave a table as it is. -/
theorem blur_has_no_special_place (g : Grid α rows cols) :
    (∀ passes down across,
      (g.roll down across).boxBlur passes = (g.boxBlur passes).roll down across) ∧
    (∀ m n : Nat, (g.boxBlur m).boxBlur n = g.boxBlur (m + n)) ∧
    ∀ n : Nat, g.boxBlur (-n) = g := by
  refine ⟨fun passes down across => ?_, fun m n => ?_, fun n => ?_⟩
  · exact blurTimes_roll g down across passes.toNat
  · rw [← Int.natCast_add]
    exact (blurTimes_add g m n).symm
  · rw [boxBlur, Int.toNat_neg_natCast]
    rfl

end Chip8.Grid

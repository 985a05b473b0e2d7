import Chip8.Proofs.Pixels

/-!
# Chip8.Proofs.LitCount

How many pixels are lit.

A switch lights one pixel more or one less (`litCount_toggle`). Over a whole drawing the number of
lit pixels therefore grows by the number of set bits, less two for each switch that met a lit pixel
(`litCount_paint`), and the collision flag is up exactly if there was such a switch. A sprite with
more set bits than there are dark pixels has to collide, on whatever pixels they fall.
-/

namespace Chip8.Screen

-- Powers are the core library's, whatever other powers are in scope.
attribute [local instance (high)] instPowNat

/-- How many bits are set in the low bytes of a sprite. -/
def setBits : List Int → Nat
  | [] => 0
  | row :: sprite => (List.range 8).countP (fun k => row / 2 ^ k % 2 = 1) + setBits sprite

/-- How many switches of a list turn a lit pixel off. Each of them finds the screen that the ones
before it left. -/
def switchedOff (s : Screen) : List Cell → Nat
  | [] => 0
  | c :: cells => (s.isLit c).toNat + (s.toggle c).switchedOff cells

/-! ### Rows -/

/-- The lit pixels of all rows together. -/
theorem litCount_eq (s : Screen) :
    s.litCount = (s.rows.toList.map Vector.toList).flatten.count true := by
  rw [litCount, List.count_flatten, List.map_map, List.sum_eq_foldl, List.foldl_map]
  rfl

/-- There are not more lit pixels than pixels. -/
theorem litCount_le (s : Screen) : s.litCount ≤ s.width * s.height := by
  have hlengths : (s.rows.toList.map Vector.toList).map List.length =
      List.replicate s.height s.width := by
    simp [Function.comp_def, List.map_const']
  calc s.litCount = (s.rows.toList.map Vector.toList).flatten.count true := litCount_eq s
    _ ≤ (s.rows.toList.map Vector.toList).flatten.length := List.count_le_length
    _ = s.width * s.height := by
        rw [List.length_flatten, hlengths, List.sum_replicate_nat, Nat.mul_comm]

/-- Only the row that is replaced counts differently. -/
theorem count_flatten_set (rows : List (List Bool)) {k : Nat} (hk : k < rows.length)
    (row : List Bool) :
    (rows.set k row).flatten.count true + rows[k].count true =
      rows.flatten.count true + row.count true := by
  have hsplit : rows.flatten =
      (rows.take k).flatten ++ (rows[k] ++ (rows.drop (k + 1)).flatten) := by
    rw [← List.flatten_cons, ← List.flatten_append, ← List.drop_eq_getElem_cons hk,
      List.take_append_drop]
  rw [List.set_eq_take_append_cons_drop, if_pos hk, hsplit, List.flatten_append,
    List.flatten_cons]
  simp only [List.count_append]
  omega

/-- A row in which one pixel is switched. -/
theorem count_set_not (row : List Bool) {k : Nat} (hk : k < row.length) :
    (row.set k (!row[k])).count true + 2 * row[k].toNat = row.count true + 1 := by
  rw [List.count_set hk]
  cases hlit : row[k] with
  | false => simp
  | true =>
      have hpos : 0 < row.count true := List.count_pos_iff.mpr (hlit ▸ List.getElem_mem hk)
      simp
      omega

/-! ### Switches -/

/-- A switch lights one pixel, unless it turns one off. -/
theorem litCount_toggle {s : Screen} (hw : 0 < s.width) (hh : 0 < s.height) (c : Cell) :
    (s.toggle c).litCount + 2 * (s.isLit c).toNat = s.litCount + 1 := by
  obtain ⟨x, hx⟩ := exists_wrap? hw c.1
  obtain ⟨y, hy⟩ := exists_wrap? hh c.2
  have htoggle : s.toggle c =
      { s with rows := setAt s.rows y (setAt s.rows[y] x (!s.rows[y][x])) } := by
    simp only [toggle, locate?, hx, hy, Option.bind_some, Option.map_some]
  -- One row is replaced, and in that row one pixel.
  have hrow := count_set_not s.rows[y].toList (k := x.val) (by simp)
  have hrows := count_flatten_set (s.rows.toList.map Vector.toList) (k := y.val) (by simp)
    (setAt s.rows[y] x (!s.rows[y][x])).toList
  rw [isLit_of_wrap? hx hy, htoggle, litCount_eq, litCount_eq]
  simp only [setAt, Vector.toList_set, List.map_set, List.getElem_map, Vector.getElem_toList,
    getElem_val] at hrow hrows ⊢
  omega

/-- **What a drawing does to the number of lit pixels.** Every switch counts for one more, and one
that turns a pixel off for one less instead. -/
theorem litCount_paint {s : Screen} (hw : 0 < s.width) (hh : 0 < s.height) (cells : List Cell) :
    (s.paint cells).1.litCount + 2 * s.switchedOff cells = s.litCount + cells.length := by
  induction cells generalizing s with
  | nil => rfl
  | cons c cells ih =>
      have htoggle := litCount_toggle hw hh c
      have hrest := ih (s := s.toggle c) (by simpa using hw) (by simpa using hh)
      rw [paint_cons, switchedOff, List.length_cons]
      dsimp only
      omega

/-- The flag tells whether some switch turned a pixel off. -/
theorem snd_paint_eq (s : Screen) (cells : List Cell) :
    (s.paint cells).2 = decide (s.switchedOff cells ≠ 0) := by
  induction cells generalizing s with
  | nil => rfl
  | cons c cells ih =>
      rw [paint_cons, switchedOff, ih]
      cases s.isLit c <;> simp

/-! ### Sprites -/

/-- A row switches a cell for each of its set bits. The bits are numbered from the right, the
columns from the left. -/
theorem length_rowCells (x y row : Int) :
    (rowCells x y row).length = (List.range 8).countP fun k => row / 2 ^ k % 2 = 1 := by
  have hcolumns : ((List.range 8).map (7 - ·)).Perm (List.range 8) := by decide
  calc (rowCells x y row).length
      = (List.range 8).countP fun col => row / 2 ^ (7 - col) % 2 = 1 := by
        rw [rowCells, List.length_filterMap_eq_countP]
        refine List.countP_congr fun col _ => ?_
        by_cases h : row / 2 ^ (7 - col) % 2 = 1 <;> simp [bitField_one_eq_one_iff, h]
    _ = ((List.range 8).map (7 - ·)).countP fun k => row / 2 ^ k % 2 = 1 := by
        rw [List.countP_map]
        rfl
    _ = (List.range 8).countP fun k => row / 2 ^ k % 2 = 1 := hcolumns.countP_eq _

theorem length_spriteCells (x y : Int) (sprite : List Int) :
    (spriteCells x y sprite).length = setBits sprite := by
  induction sprite generalizing y with
  | nil => rfl
  | cons row sprite ih => rw [spriteCells, List.length_append, length_rowCells, ih, setBits]

/-- **A collision is a loss of lit pixels.** Drawing a sprite adds the number of its set bits to the
number of lit pixels, less two for each switch that turned a pixel off. The flag stays down exactly
if nothing is missing, and it is up if there would have to be more lit pixels than pixels. -/
theorem litCount_after_draw {s : Screen} (hw : 0 < s.width) (hh : 0 < s.height) (x y : Int)
    (sprite : List Int) :
    ∃ t hit, s.draw? x y sprite = some (t, hit) ∧
      (t.litCount : Int) =
        s.litCount + setBits sprite - 2 * s.switchedOff (spriteCells x y sprite) ∧
      (hit = false ↔ t.litCount = s.litCount + setBits sprite) ∧
      (s.width * s.height < s.litCount + setBits sprite → hit = true) := by
  have hcount := litCount_paint hw hh (spriteCells x y sprite)
  have hflag := snd_paint_eq s (spriteCells x y sprite)
  have hbound := litCount_le (s.paint (spriteCells x y sprite)).1
  rw [length_spriteCells] at hcount
  rw [width_paint, height_paint] at hbound
  refine ⟨_, _, draw?_of_pos hw hh x y sprite, by omega, ?_, ?_⟩
  · rw [hflag, decide_eq_false_iff_not]
    omega
  · intro hmany
    rw [hflag, decide_eq_true_iff]
    omega

/-- Eight set bits on six pixels, of which one is lit: four of the eight switches turn a pixel off,
and in the end there is one lit pixel again. -/
theorem litCount_after_draw_narrow :
    (0 < narrow.width ∧ 0 < narrow.height ∧
        narrow.width * narrow.height < narrow.litCount + setBits [0xFF]) ∧
      ∃ t, narrow.draw? (-1) 4 [0xFF] = some (t, true) ∧ t.litCount = 1 := by
  obtain ⟨t, hit, hdraw, hcount, -, hmany⟩ :=
    litCount_after_draw (s := narrow) (by decide) (by decide) (-1) 4 [0xFF]
  have htoo_many : narrow.width * narrow.height < narrow.litCount + setBits [0xFF] := by decide
  have hoff : narrow.switchedOff (spriteCells (-1) 4 [0xFF]) = 4 := by decide
  have hbefore : narrow.litCount = 1 ∧ setBits [0xFF] = 8 := by decide
  refine ⟨⟨by decide, by decide, htoo_many⟩, t, hmany htoo_many ▸ hdraw, ?_⟩
  rw [hoff] at hcount
  omega

end Chip8.Screen

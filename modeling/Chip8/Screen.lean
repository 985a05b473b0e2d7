import Chip8.Bitwise
import Chip8.Indexed
/-!
# Chip8.Screen

The monochrome screen and the one way programs draw on it: XOR of a sprite.

Design points:

* A sprite is a list of rows of eight pixels, the most significant bit on the left. `spriteCells`
  turns it into the list of cells that it toggles, and drawing is a fold over that list. A sprite
  that is wider or taller than the screen names a cell more than once; it then wraps onto itself,
  and the fold toggles and collides as it goes.
* Cells are pairs of integers, reduced modulo the size of the screen only when they are looked up,
  so coordinates may be negative or beyond any edge.
* A screen may have no pixels at all. Then there is nothing to reduce modulo, and drawing a sprite
  that needs a reduction has no answer (`draw?` is `none`).
-/

namespace Chip8

/-- A screen of `width` × `height` pixels. -/
structure Screen where
  width : Nat
  height : Nat
  /-- The pixels, row by row from the top; `true` is lit. -/
  rows : Vector (Vector Bool width) height

/-- Why there is no screen of a size. -/
inductive ScreenError
  | negative
  /-- A side needs more than 64 bits. -/
  | sideTooLong
  /-- The number of pixels needs more than 64 bits. -/
  | tooManyPixels
  deriving Repr, DecidableEq

def ScreenError.message : ScreenError → String
  | negative => "negative dimensions are not allowed"
  | sideTooLong => "Maximum allowed dimension exceeded"
  | tooManyPixels =>
    "array is too big; `arr.size * arr.dtype.itemsize` is larger than the maximum possible size."

/-- A pixel position, column first; any integers, wrapped around both edges on use. -/
abbrev Cell := Int × Int

/-- The cells of one sprite row whose left end is at `(x, y)`: one for each set bit of the low
byte. -/
def rowCells (x y row : Int) : List Cell :=
  (List.range 8).filterMap fun col =>
    if bitField (7 - col) 1 row = 1 then some (x + col, y) else none

/-- The cells that a sprite drawn at `(x, y)` toggles, top row first and left to right. -/
def spriteCells (x y : Int) : List Int → List Cell
  | [] => []
  | row :: sprite => rowCells x y row ++ spriteCells x (y + 1) sprite

/-- A coordinate reduced into `0 … size - 1`; there is no such number when `size` is zero. -/
def wrap? (size : Nat) (a : Int) : Option (Fin size) :=
  if h : 0 < size then
    some ⟨(a % size).toNat, by
      have := Int.emod_lt_of_pos a (b := size) (by omega)
      have := Int.emod_nonneg a (b := size) (by omega)
      omega⟩
  else none

theorem val_wrap? {size : Nat} {a : Int} {k : Fin size} (h : wrap? size a = some k) :
    (k : Int) = a % size := by
  unfold wrap? at h
  split at h
  · cases h
    have := Int.emod_nonneg a (b := size) (by omega)
    simp only
    omega
  · cases h

/-- There is a number to reduce to as soon as there is one to reduce modulo. -/
theorem exists_wrap? {size : Nat} (h : 0 < size) (a : Int) : ∃ k, wrap? size a = some k := by
  unfold wrap?
  rw [dif_pos h]
  exact ⟨_, rfl⟩

/-- Coordinates are reduced to one number when they are congruent. -/
theorem wrap?_inj {size : Nat} {a b : Int} {j k : Fin size} (hj : wrap? size a = some j)
    (hk : wrap? size b = some k) : j = k ↔ a % size = b % size := by
  rw [Fin.ext_iff, ← val_wrap? hj, ← val_wrap? hk]
  exact Int.ofNat_inj.symm

namespace Screen

def blank (width height : Nat) : Screen :=
  ⟨width, height, Vector.replicate height (Vector.replicate width false)⟩

/-- The dark screen of a size, if there is one. -/
def ofSize (width height : Int) : Except ScreenError Screen :=
  if width < -0x8000000000000000 ∨ 0x8000000000000000 ≤ width ∨
      height < -0x8000000000000000 ∨ 0x8000000000000000 ≤ height then .error .sideTooLong
  else if width < 0 ∨ height < 0 then .error .negative
  else if 0x8000000000000000 ≤ width * height then .error .tooManyPixels
  else .ok (blank width.toNat height.toNat)

/-- The screen of a machine that is not given another: 64 × 32. -/
def standard : Screen := blank 64 32

/-- The screen with these rows, dark where a row is too short. -/
def ofRows (width : Nat) (rows : Array (Array Bool)) : Screen where
  width := width
  height := rows.size
  rows := Vector.ofFn fun r => Vector.ofFn fun c => rows[r].getD c false

/-- The row and column of a cell. -/
def locate? (s : Screen) (c : Cell) : Option (Fin s.height × Fin s.width) :=
  (wrap? s.height c.2).bind fun row => (wrap? s.width c.1).map fun col => (row, col)

/-- Whether the pixel is lit; `none` on a screen without pixels. -/
def pixel? (s : Screen) (c : Cell) : Option Bool :=
  (s.locate? c).map fun (row, col) => s.rows[row][col]

/-- Whether a cell is lit; a screen without pixels has no lit cell. -/
def isLit (s : Screen) (c : Cell) : Bool := (s.pixel? c).getD false

def litCount (s : Screen) : Nat :=
  s.rows.toList.foldl (fun lit row => lit + row.toList.count true) 0

/-- All pixels dark, the size as before. -/
def clear (s : Screen) : Screen := blank s.width s.height

def toggle (s : Screen) (c : Cell) : Screen :=
  match s.locate? c with
  | some (row, col) =>
    { s with rows := setAt s.rows row (setAt s.rows[row] col (!s.rows[row][col])) }
  | none => s

/-- Switches cells one after the other. The second component tells whether some cell was lit when
its turn came, that is, whether a lit pixel was switched off. -/
def paint (s : Screen) : List Cell → Screen × Bool
  | [] => (s, false)
  | c :: cells =>
    let lit := s.isLit c
    let (s', hit) := (s.toggle c).paint cells
    (s', lit || hit)

/-- Draws a sprite with its top left corner at `(x, y)`, and tells whether it switched off a lit
pixel. Every row is first reduced modulo the height, every set bit then modulo the width; a screen
that is too small for the reduction has no answer. -/
def draw? (s : Screen) (x y : Int) (sprite : List Int) : Option (Screen × Bool) :=
  let cells := spriteCells x y sprite
  if (s.height = 0 ∧ sprite ≠ []) ∨ (s.width = 0 ∧ cells ≠ []) then none
  else some (s.paint cells)

/-! ### The size never changes -/

@[simp] theorem width_blank (w h : Nat) : (blank w h).width = w := rfl
@[simp] theorem height_blank (w h : Nat) : (blank w h).height = h := rfl
@[simp] theorem width_clear (s : Screen) : s.clear.width = s.width := rfl
@[simp] theorem height_clear (s : Screen) : s.clear.height = s.height := rfl

@[simp] theorem width_toggle (s : Screen) (c : Cell) : (s.toggle c).width = s.width := by
  unfold toggle; split <;> rfl

@[simp] theorem height_toggle (s : Screen) (c : Cell) : (s.toggle c).height = s.height := by
  unfold toggle; split <;> rfl

@[simp] theorem paint_nil (s : Screen) : s.paint [] = (s, false) := rfl

theorem paint_cons (s : Screen) (c : Cell) (cells : List Cell) :
    s.paint (c :: cells) =
      (((s.toggle c).paint cells).1, s.isLit c || ((s.toggle c).paint cells).2) := rfl

@[simp] theorem width_paint (s : Screen) (cells : List Cell) :
    (s.paint cells).1.width = s.width := by
  induction cells generalizing s with
  | nil => rfl
  | cons c cells ih => rw [paint_cons]; simp only [ih, width_toggle]

@[simp] theorem height_paint (s : Screen) (cells : List Cell) :
    (s.paint cells).1.height = s.height := by
  induction cells generalizing s with
  | nil => rfl
  | cons c cells ih => rw [paint_cons]; simp only [ih, height_toggle]

/-- Drawing one list of cells after another is drawing their concatenation. -/
theorem paint_append (s : Screen) (cells more : List Cell) :
    s.paint (cells ++ more) =
      (((s.paint cells).1.paint more).1,
        (s.paint cells).2 || ((s.paint cells).1.paint more).2) := by
  induction cells generalizing s with
  | nil => simp
  | cons c cells ih => simp only [List.cons_append, paint_cons, ih, Bool.or_assoc]

/-- On a screen with pixels every sprite can be drawn. -/
theorem draw?_of_pos {s : Screen} (hw : 0 < s.width) (hh : 0 < s.height) (x y : Int)
    (sprite : List Int) : s.draw? x y sprite = some (s.paint (spriteCells x y sprite)) := by
  unfold draw?
  rw [if_neg]
  omega

/-! ### What each operation does, pixel by pixel -/

theorem isLit_of_wrap? {s : Screen} {c : Cell} {x : Fin s.width} {y : Fin s.height}
    (hx : wrap? s.width c.1 = some x) (hy : wrap? s.height c.2 = some y) :
    s.isLit c = s.rows[y][x] := by
  simp only [isLit, pixel?, locate?, hx, hy, Option.bind_some, Option.map_some, Option.getD_some]

@[simp] theorem isLit_clear (s : Screen) (c : Cell) : s.clear.isLit c = false := by
  unfold isLit pixel?
  cases s.clear.locate? c with
  | none => rfl
  | some place =>
    obtain ⟨y, x⟩ := place
    have hdark (y : Fin s.height) (x : Fin s.width) :
        (Vector.replicate s.height (Vector.replicate s.width false))[y][x] = false := by
      rw [getElem_replicate, getElem_replicate]
    exact hdark y x

/-- Switching a cell switches its pixel, by whatever coordinates it is named, and no other. -/
theorem isLit_toggle {s : Screen} (hw : 0 < s.width) (hh : 0 < s.height) (c d : Cell) :
    (s.toggle c).isLit d =
      if c.1 % s.width = d.1 % s.width ∧ c.2 % s.height = d.2 % s.height then !s.isLit d
      else s.isLit d := by
  obtain ⟨cx, hcx⟩ := exists_wrap? hw c.1
  obtain ⟨cy, hcy⟩ := exists_wrap? hh c.2
  obtain ⟨dx, hdx⟩ := exists_wrap? hw d.1
  obtain ⟨dy, hdy⟩ := exists_wrap? hh d.2
  let rows := setAt s.rows cy (setAt s.rows[cy] cx (!s.rows[cy][cx]))
  have htoggle : s.toggle c = { s with rows } := by
    simp only [toggle, locate?, hcx, hcy, Option.bind_some, Option.map_some, rows]
  have hpixel : Screen.isLit { s with rows } d = rows[dy][dx] :=
    isLit_of_wrap? (s := { s with rows }) hdx hdy
  simp only [← wrap?_inj hcx hdx, ← wrap?_inj hcy hdy]
  rw [htoggle, hpixel, isLit_of_wrap? hdx hdy]
  simp only [rows, getElem_setAt]
  by_cases hy : cy = dy
  · by_cases hx : cx = dx <;> simp [hy, hx]
  · simp [hy]

end Screen

end Chip8

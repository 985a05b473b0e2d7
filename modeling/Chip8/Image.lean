import Chip8.Color
/-!
# Chip8.Image

Images: a size and a colour at every point of it.

An image is a function on its points, so an enlarged image costs nothing until it is looked at. Two
images of one size are equal exactly when they agree at every point.
-/

namespace Chip8

/-- An image of `width` × `height` points, counted from the top left corner. -/
structure Image where
  width : Nat
  height : Nat
  /-- The colour at a column and a row. -/
  colorAt : Fin width → Fin height → Rgb

namespace Image

/-- The colours of a row, from the left. -/
def row (i : Image) (y : Fin i.height) : List Rgb := (List.finRange i.width).map (i.colorAt · y)

/-- The rows, from the top, each as the hexadecimal digits of its colours. -/
def hexRows (i : Image) : List String :=
  (List.finRange i.height).map fun y => String.join ((i.row y).map Rgb.hex)

/-- Counts one more of a colour. -/
def count (c : Rgb) : List (Rgb × Nat) → List (Rgb × Nat)
  | [] => [(c, 1)]
  | (d, n) :: rest => if d = c then (d, n + 1) :: rest else (d, n) :: count c rest

/-- How often each colour occurs, in the order of the hexadecimal digits of the colours. -/
def histogram (i : Image) : List (Rgb × Nat) :=
  let counts := Fin.foldl i.height
    (fun acc y => Fin.foldl i.width (fun acc x => count (i.colorAt x y) acc) acc) []
  counts.mergeSort fun a b => a.1.hex ≤ b.1.hex

end Image

/-- The source position of a point when `size` positions are stretched over `wide` points. -/
def stretch {wide : Nat} (size : Nat) (x : Fin wide) (h : 0 < size) : Fin size :=
  ⟨x * size / wide, by
    rw [Nat.div_lt_iff_lt_mul x.pos, Nat.mul_comm]
    exact Nat.mul_lt_mul_of_pos_left x.isLt h⟩

/-- Stretching by a whole factor divides by it. -/
theorem val_stretch_mul {size factor : Nat} (x : Fin (size * factor)) (h : 0 < size) :
    (stretch size x h : Nat) = x / factor := by
  simp only [stretch]
  rw [Nat.mul_comm x.val size]
  exact Nat.mul_div_mul_left _ _ h

/-- An image in `width` × `height` points, each of which takes the colour of the point that it falls
into. -/
def Image.scaledTo (i : Image) (width height : Nat) : Image where
  width
  height
  colorAt x y :=
    if h : 0 < i.width ∧ 0 < i.height then
      i.colorAt (stretch i.width x h.1) (stretch i.height y h.2)
    else .black

end Chip8

import Chip8.Extent
/-!
# Chip8.Emulator.Desktop

The display of a desktop.

It works with sides of 32 bits (`Desktop.side?`): of a whole number it takes the low 32 bits, and a
floating-point number loses its fraction. Then it refuses negative sides, and sizes beyond its means
(`Desktop.holds`). A size of ordinary whole numbers is kept as it is (`desktop_whole`).
-/

namespace Chip8

open Json (Number)

namespace Desktop

/-- Whether there is room for a canvas with these sides. A window is limited in each direction, and
an image in the number of its points, of which each takes four bytes. -/
def holds (canvas : Canvas) (width height : Nat) : Bool :=
  match canvas with
  | .window => width ≤ 0x4000 && height ≤ 0x4000
  | .background | .picture => width * height < 0x20000000

/-- A number as a side of 32 bits. A whole number has to fit into 64 bits and gives the low half of
them. A floating-point number loses its fraction, and becomes the lowest side if it is out of range
then. -/
def side? : Number → Option Int
  | .int n =>
    if -0x8000000000000000 ≤ n ∧ n < 0x8000000000000000 then some (n.bmod 0x100000000) else none
  | .float f =>
    let n := Binary64.truncate f
    some (if Binary64.isFinite f ∧ -0x80000000 ≤ n ∧ n < 0x80000000 then n else -0x80000000)

/-- A whole number of 32 bits is a side as it is. -/
theorem side?_whole {n : Int} (lower : -0x80000000 ≤ n) (upper : n < 0x80000000) :
    side? (.int n) = some n := by
  rw [side?, if_pos (by omega), Int.bmod_eq_of_le_mul_two (by omega) (by omega)]

end Desktop

open Desktop (holds side?)

/-- The display of a desktop. -/
def Display.desktop : Display := fun canvas e =>
  match side? e.width, side? e.height with
  | some (.ofNat width), some (.ofNat height) =>
    if holds canvas width height then .ok (width, height) else .error (.tooLarge canvas)
  | some _, some _ => .error (.negative canvas)
  | _, _ => .error (.unfit canvas)

namespace Display

/-- Sides that are not negative are those of a canvas that has room for them. -/
theorem desktop_of_side? {e : Extent} {canvas : Canvas} {width height : Nat}
    (hw : side? e.width = some width) (hh : side? e.height = some height)
    (room : holds canvas width height) : desktop canvas e = .ok (width, height) := by
  rw [desktop, show side? e.width = some (.ofNat width) from hw,
    show side? e.height = some (.ofNat height) from hh]
  exact if_pos room

/-- Whole sides of 31 bits are kept where there is room for them. -/
theorem desktop_whole {width height : Nat} {canvas : Canvas} (room : holds canvas width height)
    (narrow : width < 0x80000000) (low : height < 0x80000000) :
    desktop canvas ⟨.int width, .int height⟩ = .ok (width, height) :=
  desktop_of_side? (Desktop.side?_whole (by omega) (by omega))
    (Desktop.side?_whole (by omega) (by omega)) room

end Display

end Chip8

import Chip8.Json.Arithmetic
/-!
# Chip8.Extent

Sizes of pictures and of the window.

A size is worked out from the scale, which may be any number, so its two sides may be any numbers
too. What comes of it is a matter of the display that a canvas is made on: it may round the sides,
and refuse some. `Display` is whatever answers that question. The words of a refusal depend on what
the size is for.
-/

namespace Chip8

open Json (Misuse Number)

/-- What a size is for. -/
inductive Canvas
  | window
  | background
  | picture
  deriving Repr, DecidableEq

inductive ExtentError
  /-- A side needs more bits than the display can take in. -/
  | unfit (canvas : Canvas)
  | negative (canvas : Canvas)
  | tooLarge (canvas : Canvas)
  deriving Repr, DecidableEq

def ExtentError.message : ExtentError → String
  | unfit .background => "size needs to be (number width, number height)"
  | unfit _ => "size must be two numbers"
  | negative .window => "Cannot set negative sized display mode"
  | negative .background => "Invalid resolution for Surface"
  | negative .picture => "Cannot scale to negative size"
  | tooLarge .window => "Window is too large."
  | tooLarge _ => "Out of memory"

structure Extent where
  width : Number
  height : Number

namespace Extent

/-- The size of a screen of `width` × `height` pixels that are drawn as squares of a scale. -/
def scaled (width height : Int) (scale : Number) : Except Misuse Extent := do
  let width ← (Number.int width).mul scale
  let height ← (Number.int height).mul scale
  return { width, height }

/-- A size with some rows more. -/
def withRows (e : Extent) (rows : Nat) : Extent := { e with height := e.height.plus rows }

end Extent

/-- What a display makes of a size: the sides of a canvas, or why there cannot be one. -/
abbrev Display := Canvas → Extent → Except ExtentError (Nat × Nat)

end Chip8

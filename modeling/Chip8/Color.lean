import Chip8.Json.Value
import Chip8.Text.Hex
/-!
# Chip8.Color

Colours: what the screen shows (`Rgb`) and what a setting says (`Color`).

A setting names a colour of the palette or lists three channels. A channel is a whole number from
0 to 255, and a truth value is accepted as the channel 0 or 1; it is remembered as the truth value
it was written as.
-/

namespace Chip8

structure Rgb where
  red : UInt8
  green : UInt8
  blue : UInt8
  deriving Repr, DecidableEq

/-- The absence of light. -/
def Rgb.black : Rgb := ⟨0, 0, 0⟩

/-- A colour as six hexadecimal digits. -/
def Rgb.hex (c : Rgb) : String := Hex.bytes [c.red, c.green, c.blue]

inductive Channel
  | level (n : UInt8)
  /-- A truth value, for 0 or 1. -/
  | flag (b : Bool)
  deriving Repr, DecidableEq

namespace Channel

/-- The brightness of a channel. -/
def brightness : Channel → UInt8
  | level n => n
  | flag b => if b then 1 else 0

/-- The channel that a value gives. -/
def ofValue? : Json.Value → Option Channel
  | .int n => if 0 ≤ n ∧ n ≤ 255 then some (level (UInt8.ofNat n.toNat)) else none
  | .bool b => some (flag b)
  | _ => none

/-- The value that a channel was given by. -/
def toValue : Channel → Json.Value
  | level n => .int n.toNat
  | flag b => .bool b

theorem ofValue?_toValue (c : Channel) : ofValue? c.toValue = some c := by
  cases c with
  | level n =>
    have := n.toNat_lt
    simp only [toValue, ofValue?]
    rw [if_pos (by omega)]
    simp
  | flag b => rfl

end Channel

structure Color where
  red : Channel
  green : Channel
  blue : Channel
  deriving Repr, DecidableEq

namespace Color

/-- The colour with three brightnesses. -/
def ofLevels (red green blue : UInt8) : Color := ⟨.level red, .level green, .level blue⟩

/-- What the screen shows. -/
def rgb (c : Color) : Rgb := ⟨c.red.brightness, c.green.brightness, c.blue.brightness⟩

/-- The colour as a list of channels. -/
def toValue (c : Color) : Json.Value := .array [c.red.toValue, c.green.toValue, c.blue.toValue]

def palette : List (String × Color) := [
  ("bg_dark", ofLevels 15 15 25),
  ("fg_green", ofLevels 0 255 128),
  ("fg_amber", ofLevels 255 176 0),
  ("fg_white", ofLevels 220 220 220),
  ("fg_blue", ofLevels 100 180 255),
  ("status_bg", ofLevels 20 20 35),
  ("text", ofLevels 200 200 200),
  ("text_dim", ofLevels 120 120 140)]

/-- The colour of the bar below the screen. -/
def statusBackground : Color := ofLevels 20 20 35

/-- The colour of the text in that bar. -/
def dimText : Color := ofLevels 120 120 140

/-- The colour that a value names or lists. -/
def ofValue? : Json.Value → Option Color
  | .string name => palette.lookup name
  | .array [r, g, b] => do
    let r ← Channel.ofValue? r
    let g ← Channel.ofValue? g
    let b ← Channel.ofValue? b
    return ⟨r, g, b⟩
  | _ => none

theorem ofValue?_toValue (c : Color) : ofValue? c.toValue = some c := by
  simp [toValue, ofValue?, Channel.ofValue?_toValue]

end Color

end Chip8

import Chip8.Indexed
/-!
# Chip8.Emulator.Keyboard

The keyboard, and what each of its keys is for.

Sixteen keys in a square of four by four stand for the hexadecimal keypad; `p`, `F1` and `ESCAPE`
control the emulator itself and are not among them.

| Keypad  | Keyboard |
|---------|----------|
| 1 2 3 C | 1 2 3 4  |
| 4 5 6 D | q w e r  |
| 7 8 9 E | a s d f  |
| A 0 B F | z x c v  |
-/

namespace Chip8

inductive Key
  /-- A key with a character on it. -/
  | char (c : Char)
  | escape
  | f1
  /-- Any other key, by its name. -/
  | named (name : String)
  deriving Repr, DecidableEq

namespace Key

/-- The key with a name: one character for a key that bears it. -/
def ofName (name : String) : Key :=
  match name.toList with
  | [c] => char c
  | _ =>
    if name = "ESCAPE" then escape else if name = "F1" then f1 else named name

/-- The keyboard keys that stand for keys of the keypad. -/
def padKeys : List (Char × Fin 16) := [
  ('1', 0x1), ('2', 0x2), ('3', 0x3), ('4', 0xC),
  ('q', 0x4), ('w', 0x5), ('e', 0x6), ('r', 0xD),
  ('a', 0x7), ('s', 0x8), ('d', 0x9), ('f', 0xE),
  ('z', 0xA), ('x', 0x0), ('c', 0xB), ('v', 0xF)]

/-- The key of the keypad that a keyboard key stands for. -/
def padKey? : Key → Option (Fin 16)
  | char c => padKeys.lookup c
  | _ => none

/-- The table of pad keys in the order of their characters. -/
def sortedPadKeys : List (Char × Fin 16) := padKeys.mergeSort fun a b => a.1 ≤ b.1

end Key

/-- What the window system reports. -/
inductive Event
  | quit
  | keyDown (key : Key)
  | keyUp (key : Key)
  /-- Something the emulator has no use for. -/
  | other
  deriving Repr, DecidableEq

end Chip8

/-!
# Chip8.Text.Hex

Hexadecimal text, in the two forms the emulator writes.

Addresses and opcodes are upper-case and padded with zeros to a least width. The width counts the
sign, so a negative number loses a digit of padding to its `-`: at width four, `-1` is `-001`.
Raw bytes are lower-case, two digits each.
-/

namespace Chip8.Hex

/-- The upper-case digits of `n`, most significant first. -/
def digits (n : Nat) : List Char := (Nat.toDigits 16 n).map Char.toUpper

/-- The digits of `n` with leading zeros up to `width` characters. -/
def padded (width n : Nat) : List Char :=
  List.replicate (width - (digits n).length) '0' ++ digits n

/-- The text of `n`, at least `width` characters long with its sign. -/
def text (width : Nat) (n : Int) : String :=
  match n with
  | .ofNat m => String.ofList (padded width m)
  | .negSucc m => String.ofList ('-' :: padded (width - 1) (m + 1))

/-- One lower-case digit. -/
def lowerDigit (n : Nat) : Char := Nat.digitChar (n % 16)

/-- A byte as two lower-case digits. -/
def byte (b : UInt8) : List Char := [lowerDigit (b.toNat / 16), lowerDigit b.toNat]

/-- A run of bytes, two lower-case digits each. -/
def bytes (bs : List UInt8) : String := String.ofList (bs.flatMap byte)

end Chip8.Hex

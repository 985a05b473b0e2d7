import Chip8.Text.Hex
import Chip8.Text.Printable
/-!
# Chip8.Text.Quoted

Text in quotes, as it is shown inside a message.

The quotes are single, unless the text holds a single quote and no double one. A backslash and the
quote in use are escaped, so are the line feed, the carriage return and the tab by their letters,
and every other character that is not printable by its code point in two, four or eight digits.
-/

namespace Chip8.Quoted

/-- The quote that surrounds a text. -/
def quoteFor (text : List Char) : Char :=
  if '\'' ∈ text ∧ '"' ∉ text then '"' else '\''

/-- `n` in lower-case hexadecimal, with leading zeros up to `width` digits. -/
def lowerHex (width n : Nat) : List Char :=
  let digits := Nat.toDigits 16 n
  List.replicate (width - digits.length) '0' ++ digits

/-- The code point of a character behind a backslash, with the letter that tells its width. -/
def codeEscape (c : Char) : List Char :=
  let n := c.toNat
  if n < 0x100 then '\\' :: 'x' :: lowerHex 2 n
  else if n < 0x10000 then '\\' :: 'u' :: lowerHex 4 n
  else '\\' :: 'U' :: lowerHex 8 n

/-- One character between quotes. -/
def encodeChar (quote c : Char) : List Char :=
  if c = quote ∨ c = '\\' then ['\\', c]
  else if c = '\n' then ['\\', 'n']
  else if c = '\r' then ['\\', 'r']
  else if c = '\t' then ['\\', 't']
  else if Printable.isPrintable c then [c]
  else codeEscape c

/-- A text with its quotes. -/
def quote (text : String) : String :=
  let chars := text.toList
  let q := quoteFor chars
  String.ofList (q :: chars.flatMap (encodeChar q) ++ [q])

end Chip8.Quoted

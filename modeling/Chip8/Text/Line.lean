/-!
# Chip8.Text.Line

Lines of a text: line ends made uniform, and the line and column of a position.

A line may end in a line feed, a carriage return or both; `uniform` makes each of them one line
feed. Positions count characters. Lines and columns are counted from one.
-/

namespace Chip8.Line

/-- Turns every line end into a single line feed. -/
def uniform (text : List Char) : List Char := go [] text
where
  /-- The text read so far is in `done`, latest first. -/
  go (done : List Char) : List Char → List Char
    | '\r' :: '\n' :: rest => go ('\n' :: done) rest
    | '\r' :: rest => go ('\n' :: done) rest
    | c :: rest => go (c :: done) rest
    | [] => done.reverse

/-- The line that a position is on. -/
def lineAt (text : List Char) (pos : Nat) : Nat := (text.take pos).count '\n' + 1

/-- The column of a position: its distance from the line feed before it, or from the start. -/
def columnAt (text : List Char) (pos : Nat) : Nat :=
  ((text.take pos).reverse.takeWhile (· != '\n')).length + 1

end Chip8.Line

/-!
# Chip8.Random.Source

Where the machine's random bytes come from.

The machine does not care how random numbers are made: it carries a source in its state, draws one
number for each random-load instruction and masks it. `RandomSource` is that interface. The
numbers are integers without bounds, since masking alone makes them bytes; so everything that is
proved about the machine holds whatever a source yields.
-/

namespace Chip8

/-- A state from which numbers can be drawn one after the other. -/
class RandomSource (ρ : Type) where
  /-- The next number, and the state behind it. -/
  draw : ρ → Int × ρ

/-- A fixed list of numbers, drawn in turn and from the start again when it is used up. -/
structure CyclicNumbers where
  all : List Int
  /-- What is left of the current round. -/
  rest : List Int := all
  deriving Repr, DecidableEq

/-- The next number of the list; zero if it is empty. -/
def CyclicNumbers.draw (s : CyclicNumbers) : Int × CyclicNumbers :=
  match s.rest, s.all with
  | n :: rest, _ => (n, { s with rest })
  | [], n :: rest => (n, { s with rest })
  | [], [] => (0, s)

instance : RandomSource CyclicNumbers where
  draw := CyclicNumbers.draw

end Chip8

/-!
# Chip8.Number.Pattern

Floating-point numbers by their patterns of bits.

The floating-point types have one NaN, but in memory there are many. A pattern keeps them apart, and
`Pattern.combine` says what becomes of them: a NaN passes through every operation, the first of two
before the second, and comes out quiet; an operation that has no result for its numbers answers
with the NaN `PatternFormat.invalid`. On everything else a pattern behaves as its number.
-/

namespace Chip8

/-- Types of floating-point numbers, with the patterns that stand for them in memory. -/
class PatternFormat (α : Type) where
  Bits : Type
  ofBits : Bits → α
  toBits : α → Bits
  isNaN : Bits → Bool
  /-- The quiet NaN with the payload of a NaN. -/
  quiet : Bits → Bits
  /-- The NaN for an operation without a result. -/
  invalid : Bits

instance : PatternFormat Float where
  Bits := UInt64
  ofBits := Float.ofBits
  toBits := Float.toBits
  isNaN b := 0x7FF0000000000000 < b &&& 0x7FFFFFFFFFFFFFFF
  quiet b := b ||| 0x0008000000000000
  invalid := 0xFFF8000000000000

instance : PatternFormat Float32 where
  Bits := UInt32
  ofBits := Float32.ofBits
  toBits := Float32.toBits
  isNaN b := 0x7F800000 < b &&& 0x7FFFFFFF
  quiet b := b ||| 0x00400000
  invalid := 0xFFC00000

/-- A floating-point number by its pattern. -/
structure Pattern (α : Type) [PatternFormat α] where
  bits : PatternFormat.Bits α

namespace Pattern

variable {α : Type} [PatternFormat α]

def isNaN (p : Pattern α) : Bool := PatternFormat.isNaN p.bits

/-- The quiet NaN with the payload of a NaN. -/
def quiet (p : Pattern α) : Pattern α := ⟨PatternFormat.quiet p.bits⟩

def value (p : Pattern α) : α := PatternFormat.ofBits p.bits

/-- The pattern of the result of an operation on numbers. -/
def ofResult (x : α) : Pattern α :=
  let p : Pattern α := ⟨PatternFormat.toBits x⟩
  if p.isNaN then ⟨PatternFormat.invalid⟩ else p

/-- An operation on one pattern. -/
def map (f : α → α) (p : Pattern α) : Pattern α := if p.isNaN then p.quiet else ofResult (f p.value)

/-- An operation on two patterns. -/
def combine (f : α → α → α) (p q : Pattern α) : Pattern α :=
  if p.isNaN then p.quiet else if q.isNaN then q.quiet else ofResult (f p.value q.value)

end Pattern

end Chip8

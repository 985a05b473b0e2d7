/-!
# Chip8.Text.Utf8

Reading UTF-8, with the place and the reason of the first fault.

A lead byte says how many continuation bytes it owes and, for some leads, narrows the range of the
first of them: that is how overlong forms, surrogates and code points past the last one are kept
out. The reader is a machine that takes one byte at a time. A byte that cannot continue a
character is not blamed itself; the fault is laid on the bytes of the character so far, and its
length counts them.
-/

namespace Chip8.Utf8

/-- What is wrong with a run of bytes. -/
inductive Flaw
  /-- No character starts with this byte. -/
  | badStart
  /-- The byte behind the run does not continue the character. -/
  | badContinuation
  /-- The text ends inside the character. -/
  | truncated
  deriving Repr, DecidableEq

/-- The first run of bytes that is not a character. -/
structure Invalid where
  lead : UInt8
  /-- The position of that byte. -/
  start : Nat
  /-- The number of bytes in the run. -/
  length : Nat
  flaw : Flaw
  deriving Repr, DecidableEq

/-- A character that has begun and is not complete. -/
structure Pending where
  lead : UInt8
  /-- The bytes taken so far. -/
  taken : Nat
  /-- The continuation bytes still owed. -/
  owed : Nat
  /-- The least value of the next byte. -/
  least : Nat
  /-- The greatest value of the next byte. -/
  greatest : Nat
  /-- The bits collected so far. -/
  bits : Nat

/-- The character that a lead byte begins; `none` for a byte that begins no character of several
bytes. -/
def begin? (b : UInt8) : Option Pending :=
  let n := b.toNat
  if n < 0xC2 ∨ 0xF4 < n then none
  else if n < 0xE0 then some ⟨b, 1, 1, 0x80, 0xBF, n % 32⟩
  else if n < 0xF0 then
    some ⟨b, 1, 2, if n = 0xE0 then 0xA0 else 0x80, if n = 0xED then 0x9F else 0xBF, n % 16⟩
  else
    some ⟨b, 1, 3, if n = 0xF0 then 0x90 else 0x80, if n = 0xF4 then 0x8F else 0xBF, n % 8⟩

/-- Reads bytes from position `pos` on, inside the character `pending?` if there is one. The
characters read so far are in `done`, latest first. -/
def read (pos : Nat) (pending? : Option Pending) (done : List Char) :
    List UInt8 → Except Invalid (List Char)
  | [] =>
    match pending? with
    | none => .ok done.reverse
    | some p => .error ⟨p.lead, pos - p.taken, p.taken, .truncated⟩
  | b :: rest =>
    match pending? with
    | none =>
      if b.toNat < 0x80 then read (pos + 1) none (Char.ofNat b.toNat :: done) rest
      else
        match begin? b with
        | none => .error ⟨b, pos, 1, .badStart⟩
        | some p => read (pos + 1) (some p) done rest
    | some p =>
      if p.least ≤ b.toNat ∧ b.toNat ≤ p.greatest then
        let bits := p.bits * 64 + b.toNat % 64
        if p.owed ≤ 1 then read (pos + 1) none (Char.ofNat bits :: done) rest
        else read (pos + 1) (some ⟨p.lead, p.taken + 1, p.owed - 1, 0x80, 0xBF, bits⟩) done rest
      else .error ⟨p.lead, pos - p.taken, p.taken, .badContinuation⟩

/-- The characters of a UTF-8 text. -/
def decode (bytes : List UInt8) : Except Invalid (List Char) := read 0 none [] bytes

end Chip8.Utf8

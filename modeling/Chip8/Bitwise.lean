/-!
# Chip8.Bitwise

Bits of integers of any sign, in two's complement.

The machine's registers are integers: nothing in the register file itself forces a value into a
byte, and the instructions that do are the ones that mask. So the bit operations here are defined on
all of `Int`. A negative integer has infinitely many leading ones, `Int.negSucc n` being the
complement of `n`, and each operation reduces to one on natural numbers by De Morgan's rules.

`bitField` cuts a run of bits out of an integer; operands of an opcode, the low byte of a value and
the pixels of a sprite row are all read that way.
-/

namespace Chip8

-- Powers are the core library's, whatever other powers are in scope.
attribute [local instance (high)] instPowNat

/-- The number formed by the bits `low`, `low + 1`, …, `low + width - 1` of `n`. -/
def bitField (low width : Nat) (n : Int) : Nat := (n / 2 ^ low % 2 ^ width).toNat

theorem bitField_lt (low width : Nat) (n : Int) : bitField low width n < 2 ^ width := by
  have hpos : (0 : Int) < 2 ^ width := Int.pow_pos (by decide)
  have h := Int.emod_lt_of_pos (n / 2 ^ low) hpos
  have hcast : ((2 ^ width : Nat) : Int) = (2 : Int) ^ width := by simp
  unfold bitField
  omega

/-- The four bits of an integer from a position on. -/
def fourBits (low : Nat) (n : Int) : Fin 16 := ⟨bitField low 4 n, bitField_lt low 4 n⟩

/-- The byte that a memory cell keeps of an integer. -/
def lowByte (n : Int) : UInt8 := UInt8.ofNat (bitField 0 8 n)

namespace Bitwise

/-- The bits set in `m` and not in `n`. -/
private def without (m n : Nat) : Nat := m ^^^ (m &&& n)

/-- Conjunction, bit by bit. -/
def and : Int → Int → Int
  | .ofNat m, .ofNat n => .ofNat (m &&& n)
  | .ofNat m, .negSucc n => .ofNat (without m n)
  | .negSucc m, .ofNat n => .ofNat (without n m)
  | .negSucc m, .negSucc n => .negSucc (m ||| n)

/-- Inclusive disjunction, bit by bit. -/
def or : Int → Int → Int
  | .ofNat m, .ofNat n => .ofNat (m ||| n)
  | .ofNat m, .negSucc n => .negSucc (without n m)
  | .negSucc m, .ofNat n => .negSucc (without m n)
  | .negSucc m, .negSucc n => .negSucc (m &&& n)

/-- Exclusive disjunction, bit by bit. -/
def xor : Int → Int → Int
  | .ofNat m, .ofNat n => .ofNat (m ^^^ n)
  | .ofNat m, .negSucc n => .negSucc (m ^^^ n)
  | .negSucc m, .ofNat n => .negSucc (m ^^^ n)
  | .negSucc m, .negSucc n => .ofNat (m ^^^ n)

@[simp] theorem and_natCast (m n : Nat) : and m n = ((m &&& n : Nat) : Int) := rfl
@[simp] theorem or_natCast (m n : Nat) : or m n = ((m ||| n : Nat) : Int) := rfl
@[simp] theorem xor_natCast (m n : Nat) : xor m n = ((m ^^^ n : Nat) : Int) := rfl

/-- Masking with a natural number leaves a natural number, at most the mask. -/
theorem and_natCast_right_mem (a : Int) (mask : Nat) : ∃ k : Nat, and a mask = k ∧ k ≤ mask := by
  cases a with
  | ofNat m => exact ⟨m &&& mask, rfl, Nat.and_le_right⟩
  | negSucc m =>
    refine ⟨without mask m, rfl, ?_⟩
    -- The bits of the difference are among the bits of `mask`.
    have h : without mask m &&& mask = without mask m := by
      apply Nat.eq_of_testBit_eq
      intro i
      simp only [without, Nat.testBit_and, Nat.testBit_xor]
      cases mask.testBit i <;> cases m.testBit i <;> rfl
    rw [← h]
    exact Nat.and_le_right

end Bitwise

end Chip8

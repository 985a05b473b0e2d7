import Chip8.Text.Hex
/-!
# Chip8.Instruction.Basic

The instruction set, and how an instruction is written.

An `Instruction` holds exactly the operands that matter to it, each in the range its bits allow:
register numbers and short counts are `Fin 16`, bytes `Fin 256` and addresses `Fin 4096`. The two
shifts take one register, because the second register field of their opcode has no meaning. What an
instruction does to a machine is in `Chip8.Machine.Perform`.
-/

namespace Chip8

inductive Instruction
  | clear
  | ret
  | jump (target : Fin 4096)
  /-- Goes on at an address and remembers where it came from. -/
  | call (target : Fin 4096)
  | skipEqByte (x : Fin 16) (byte : Fin 256)
  | skipNeByte (x : Fin 16) (byte : Fin 256)
  | skipEq (x y : Fin 16)
  | loadByte (x : Fin 16) (byte : Fin 256)
  /-- Adds a byte; no flag. -/
  | addByte (x : Fin 16) (byte : Fin 256)
  | copy (x y : Fin 16)
  | or (x y : Fin 16)
  | and (x y : Fin 16)
  | xor (x y : Fin 16)
  /-- Sum of two registers, with carry. -/
  | add (x y : Fin 16)
  /-- Difference of two registers, with the complement of the borrow. -/
  | sub (x y : Fin 16)
  /-- Halves a register; the flag is the bit that falls out. -/
  | shiftRight (x : Fin 16)
  /-- Difference taken the other way round, with the complement of the borrow. -/
  | subFrom (x y : Fin 16)
  /-- Doubles a register; the flag is bit seven, left in its place. -/
  | shiftLeft (x : Fin 16)
  | skipNe (x y : Fin 16)
  | loadIndex (address : Fin 4096)
  /-- Goes on at an address offset by register zero. -/
  | jumpOffset (base : Fin 4096)
  /-- Loads a random byte under a mask. -/
  | random (x : Fin 16) (mask : Fin 256)
  /-- Draws a sprite of `rows` rows; the flag tells of a collision. -/
  | draw (x y rows : Fin 16)
  | skipPressed (x : Fin 16)
  | skipReleased (x : Fin 16)
  | readDelay (x : Fin 16)
  | awaitKey (x : Fin 16)
  | setDelay (x : Fin 16)
  | setSound (x : Fin 16)
  /-- Advances the index register; the flag tells whether it has left the address space. -/
  | addIndex (x : Fin 16)
  /-- Points the index register at the glyph of a digit. -/
  | glyph (x : Fin 16)
  | storeDecimal (x : Fin 16)
  /-- Stores the registers up to one. -/
  | storeRegisters (x : Fin 16)
  /-- Loads the registers up to one. -/
  | loadRegisters (x : Fin 16)
  deriving Repr, DecidableEq

namespace Instruction

def register (x : Fin 16) : String := "V" ++ Hex.text 1 x.val

def byteOperand (byte : Fin 256) : String := "$" ++ Hex.text 2 byte.val

def addressOperand (address : Fin 4096) : String := "$" ++ Hex.text 3 address.val

/-- The written form: a word for the operation and its operands, the destination first. -/
def mnemonic : Instruction → String
  | clear => "CLS"
  | ret => "RET"
  | jump target => "JP " ++ addressOperand target
  | call target => "CALL " ++ addressOperand target
  | skipEqByte x byte => "SE " ++ register x ++ ", " ++ byteOperand byte
  | skipNeByte x byte => "SNE " ++ register x ++ ", " ++ byteOperand byte
  | skipEq x y => "SE " ++ register x ++ ", " ++ register y
  | loadByte x byte => "LD " ++ register x ++ ", " ++ byteOperand byte
  | addByte x byte => "ADD " ++ register x ++ ", " ++ byteOperand byte
  | copy x y => "LD " ++ register x ++ ", " ++ register y
  | or x y => "OR " ++ register x ++ ", " ++ register y
  | and x y => "AND " ++ register x ++ ", " ++ register y
  | xor x y => "XOR " ++ register x ++ ", " ++ register y
  | add x y => "ADD " ++ register x ++ ", " ++ register y
  | sub x y => "SUB " ++ register x ++ ", " ++ register y
  | shiftRight x => "SHR " ++ register x
  | subFrom x y => "SUBN " ++ register x ++ ", " ++ register y
  | shiftLeft x => "SHL " ++ register x
  | skipNe x y => "SNE " ++ register x ++ ", " ++ register y
  | loadIndex address => "LD I, " ++ addressOperand address
  | jumpOffset base => "JP V0, " ++ addressOperand base
  | random x mask => "RND " ++ register x ++ ", " ++ byteOperand mask
  | draw x y rows => "DRW " ++ register x ++ ", " ++ register y ++ ", " ++ toString rows.val
  | skipPressed x => "SKP " ++ register x
  | skipReleased x => "SKNP " ++ register x
  | readDelay x => "LD " ++ register x ++ ", DT"
  | awaitKey x => "LD " ++ register x ++ ", K"
  | setDelay x => "LD DT, " ++ register x
  | setSound x => "LD ST, " ++ register x
  | addIndex x => "ADD I, " ++ register x
  | glyph x => "LD F, " ++ register x
  | storeDecimal x => "LD B, " ++ register x
  | storeRegisters x => "LD [I], " ++ register x
  | loadRegisters x => "LD " ++ register x ++ ", [I]"

end Instruction

end Chip8

import Chip8.Bitwise
import Chip8.Instruction.Basic
/-!
# Chip8.Instruction.Decode

From opcodes to instructions.

An opcode is any integer. Its operand fields are cut from its two's complement, but its *group*, all
that stands above the low twelve bits, is not masked: an opcode that is negative or wider than
sixteen bits has a group outside `0 … 15`. So decoding has three outcomes (`Decoded`): the opcode is
an instruction, its group exists but nothing is assigned to it there, or it has no group at all.
Words read from memory always have a group.
-/

namespace Chip8

structure Fields where
  opcode : Int
  /-- The first register field, bits 8 to 11. -/
  x : Fin 16
  /-- The second register field, bits 4 to 7. -/
  y : Fin 16
  /-- The low four bits. -/
  n : Fin 16
  /-- The low byte. -/
  nn : Fin 256
  /-- The low twelve bits. -/
  nnn : Fin 4096

namespace Fields

/-- Cuts an opcode into its fields. -/
def ofOpcode (opcode : Int) : Fields where
  opcode := opcode
  x := fourBits 8 opcode
  y := fourBits 4 opcode
  n := fourBits 0 opcode
  nn := ⟨bitField 0 8 opcode, bitField_lt 0 8 opcode⟩
  nnn := ⟨bitField 0 12 opcode, bitField_lt 0 12 opcode⟩

/-- All that stands above the low twelve bits. -/
def group (f : Fields) : Int := f.opcode / 4096

/-- The group, and what tells the instructions of the group apart: the whole opcode in group 0, the
low four bits in groups 5, 8 and 9, the low byte in groups E and F. Every other group holds a single
instruction, told apart by zero. -/
def selector (f : Fields) : Int × Int :=
  if f.group = 0x0 then (f.group, f.opcode)
  else if f.group = 0x5 ∨ f.group = 0x8 ∨ f.group = 0x9 then (f.group, f.n.val)
  else if f.group = 0xE ∨ f.group = 0xF then (f.group, f.nn.val)
  else (f.group, 0)

end Fields

inductive Decoded
  /-- An instruction with its operands. -/
  | instruction (i : Instruction)
  /-- A group that exists, but no instruction. -/
  | unassigned
  /-- A group outside `0 … 15`. -/
  | noGroup (group : Int)
  deriving Repr, DecidableEq

/-- A table of instructions: the number that selects each of them, and how the fields of an opcode
fill in its operands. -/
abbrev Table := List (Int × (Fields → Instruction))

/-- The groups that hold a single instruction, by group. -/
def mainTable : Table := [
  (0x1, fun f => .jump f.nnn),
  (0x2, fun f => .call f.nnn),
  (0x3, fun f => .skipEqByte f.x f.nn),
  (0x4, fun f => .skipNeByte f.x f.nn),
  (0x5, fun f => .skipEq f.x f.y),
  (0x6, fun f => .loadByte f.x f.nn),
  (0x7, fun f => .addByte f.x f.nn),
  (0x9, fun f => .skipNe f.x f.y),
  (0xA, fun f => .loadIndex f.nnn),
  (0xB, fun f => .jumpOffset f.nnn),
  (0xC, fun f => .random f.x f.nn),
  (0xD, fun f => .draw f.x f.y f.n)]

/-- Group 0, by the whole opcode. -/
def systemTable : Table := [
  (0x00E0, fun _ => .clear),
  (0x00EE, fun _ => .ret)]

/-- Group 8, by the low four bits. -/
def arithmeticTable : Table := [
  (0x0, fun f => .copy f.x f.y),
  (0x1, fun f => .or f.x f.y),
  (0x2, fun f => .and f.x f.y),
  (0x3, fun f => .xor f.x f.y),
  (0x4, fun f => .add f.x f.y),
  (0x5, fun f => .sub f.x f.y),
  (0x6, fun f => .shiftRight f.x),
  (0x7, fun f => .subFrom f.x f.y),
  (0xE, fun f => .shiftLeft f.x)]

/-- Group E, by the low byte. -/
def keyTable : Table := [
  (0x9E, fun f => .skipPressed f.x),
  (0xA1, fun f => .skipReleased f.x)]

/-- Group F, by the low byte. -/
def miscellaneousTable : Table := [
  (0x07, fun f => .readDelay f.x),
  (0x0A, fun f => .awaitKey f.x),
  (0x15, fun f => .setDelay f.x),
  (0x18, fun f => .setSound f.x),
  (0x1E, fun f => .addIndex f.x),
  (0x29, fun f => .glyph f.x),
  (0x33, fun f => .storeDecimal f.x),
  (0x55, fun f => .storeRegisters f.x),
  (0x65, fun f => .loadRegisters f.x)]

/-- The groups that have a table of their own. -/
def groupTables : List (Int × Table) := [
  (0x0, systemTable),
  (0x8, arithmeticTable),
  (0xE, keyTable),
  (0xF, miscellaneousTable)]

/-- Looks an opcode up: in the table of its group, or else among the groups that hold a single
instruction. -/
def Fields.resolve (f : Fields) : Decoded :=
  match groupTables.lookup f.selector.1 with
  | some table =>
    match table.lookup f.selector.2 with
    | some instruction => .instruction (instruction f)
    | none => .unassigned
  | none =>
    if f.selector.2 = 0 then
      match mainTable.lookup f.selector.1 with
      | some instruction => .instruction (instruction f)
      | none => .noGroup f.selector.1
    else .unassigned

/-- Decodes any integer as an opcode. -/
def decode (opcode : Int) : Decoded := (Fields.ofOpcode opcode).resolve

end Chip8

import Chip8.Instruction.Decode
/-!
# Chip8.Instruction.Forms

The written forms of opcodes, and listings of programs.

Writing an opcode down does not decode it. `forms` is a table of its own, laid out by the same
selectors as the tables of the decoder, and a form is a list of parts in which the operand fields of
the opcode are put. Like decoding it has three outcomes: a form, a group without a form for the
opcode, which is then shown as a number, and no group at all.
-/

namespace Chip8

/-- A part of a written form: text as it stands, or an operand. -/
inductive Part
  | text (s : String)
  /-- The register in the first register field. -/
  | x
  /-- The register in the second register field. -/
  | y
  /-- The low four bits, in decimal. -/
  | n
  /-- The low byte. -/
  | nn
  /-- The low twelve bits. -/
  | nnn

def Part.fill (f : Fields) : Part → String
  | text s => s
  | x => Instruction.register f.x
  | y => Instruction.register f.y
  | n => toString f.n.val
  | nn => Instruction.byteOperand f.nn
  | nnn => Instruction.addressOperand f.nnn

/-- How an opcode is written, with places for its operands. -/
abbrev Form := List Part

/-- The form with the operands of an opcode in their places. -/
def Form.fill (f : Fields) : Form → String
  | [] => ""
  | part :: form => part.fill f ++ Form.fill f form

/-- Forms by what selects them within a group. -/
abbrev FormTable := List (Int × Form)

/-- Group 0, by the whole opcode. -/
def systemForms : FormTable := [
  (0x00E0, [.text "CLS"]),
  (0x00EE, [.text "RET"])]

/-- Group 8, by the low four bits. -/
def arithmeticForms : FormTable := [
  (0x0, [.text "LD ", .x, .text ", ", .y]),
  (0x1, [.text "OR ", .x, .text ", ", .y]),
  (0x2, [.text "AND ", .x, .text ", ", .y]),
  (0x3, [.text "XOR ", .x, .text ", ", .y]),
  (0x4, [.text "ADD ", .x, .text ", ", .y]),
  (0x5, [.text "SUB ", .x, .text ", ", .y]),
  (0x6, [.text "SHR ", .x]),
  (0x7, [.text "SUBN ", .x, .text ", ", .y]),
  (0xE, [.text "SHL ", .x])]

/-- Group E, by the low byte. -/
def keyForms : FormTable := [
  (0x9E, [.text "SKP ", .x]),
  (0xA1, [.text "SKNP ", .x])]

/-- Group F, by the low byte. -/
def miscellaneousForms : FormTable := [
  (0x07, [.text "LD ", .x, .text ", DT"]),
  (0x0A, [.text "LD ", .x, .text ", K"]),
  (0x15, [.text "LD DT, ", .x]),
  (0x18, [.text "LD ST, ", .x]),
  (0x1E, [.text "ADD I, ", .x]),
  (0x29, [.text "LD F, ", .x]),
  (0x33, [.text "LD B, ", .x]),
  (0x55, [.text "LD [I], ", .x]),
  (0x65, [.text "LD ", .x, .text ", [I]"])]

/-- The forms by group. Groups 5 and 9 have one for a last digit of zero only. -/
def forms : List (Int × FormTable) := [
  (0x0, systemForms),
  (0x1, [(0, [.text "JP ", .nnn])]),
  (0x2, [(0, [.text "CALL ", .nnn])]),
  (0x3, [(0, [.text "SE ", .x, .text ", ", .nn])]),
  (0x4, [(0, [.text "SNE ", .x, .text ", ", .nn])]),
  (0x5, [(0, [.text "SE ", .x, .text ", ", .y])]),
  (0x6, [(0, [.text "LD ", .x, .text ", ", .nn])]),
  (0x7, [(0, [.text "ADD ", .x, .text ", ", .nn])]),
  (0x8, arithmeticForms),
  (0x9, [(0, [.text "SNE ", .x, .text ", ", .y])]),
  (0xA, [(0, [.text "LD I, ", .nnn])]),
  (0xB, [(0, [.text "JP V0, ", .nnn])]),
  (0xC, [(0, [.text "RND ", .x, .text ", ", .nn])]),
  (0xD, [(0, [.text "DRW ", .x, .text ", ", .y, .text ", ", .n])]),
  (0xE, keyForms),
  (0xF, miscellaneousForms)]

/-- How an opcode is shown that is no instruction. -/
def numberText (opcode : Int) : String := "??? $" ++ Hex.text 4 opcode

/-- The written form of an opcode, or the group that does not exist. -/
def disassemble (opcode : Int) : Except Int String :=
  let f := Fields.ofOpcode opcode
  match forms.lookup f.selector.1 with
  | none => .error f.selector.1
  | some table =>
    match table.lookup f.selector.2 with
    | none => .ok (numberText opcode)
    | some form => .ok (form.fill f)

/-- The text of an opcode in a trace, which is a number if there is no form. -/
def opcodeText (opcode : Int) : String :=
  match disassemble opcode with
  | .ok text => text
  | .error _ => numberText opcode

/-- The opcode in two consecutive bytes, the high byte first. -/
def wordOf (high low : UInt8) : Int := high.toNat * 256 + low.toNat

/-- The lines of a listing that starts at an address: two bytes to a line, and a last odd byte as
data. A word without a group would end it. -/
def listing (address : Int) : List UInt8 → Except Int (List String)
  | high :: low :: rest =>
    match disassemble (wordOf high low) with
    | .error group => .error group
    | .ok text =>
      match listing (address + 2) rest with
      | .error group => .error group
      | .ok lines => .ok ((Hex.text 4 address ++ ":  " ++ text) :: lines)
  | [last] => .ok [Hex.text 4 address ++ ":  .byte $" ++ Hex.text 2 last.toNat]
  | [] => .ok []

theorem wordOf_nonneg (high low : UInt8) : 0 ≤ wordOf high low := by
  unfold wordOf
  omega

theorem wordOf_lt (high low : UInt8) : wordOf high low < 65536 := by
  have := high.toNat_lt
  have := low.toNat_lt
  unfold wordOf
  omega

end Chip8

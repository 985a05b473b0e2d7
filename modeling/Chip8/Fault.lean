import Chip8.Error.Kind
import Chip8.Text.Hex
/-!
# Chip8.Fault

Why an instruction could not be carried out.

Three of the causes are part of the machine's design: a call with a full stack, a return with an
empty one, and an access outside memory. The others belong to states that no program reaches (a
stack pointer far outside the stack, an opcode wider than sixteen bits) or to a screen without
pixels, and are there because the state may be set from outside.
-/

namespace Chip8

/-- The cause for which an instruction stopped. -/
inductive Fault
  /-- A return with an empty stack, at this address. -/
  | returnWithoutCall (pc : Int)
  /-- A call to `target` with a full stack, at this address. -/
  | callTooDeep (target : Fin 4096) (pc : Int)
  /-- The first address outside memory that the instruction touched. -/
  | outOfMemory (address : Int)
  | noSlotToRead
  | noSlotToWrite
  /-- The stack pointer is too large for the number of a slot. -/
  | slotNumberTooLarge
  | noGroup (group : Int)
  | emptyScreen
  deriving Repr, DecidableEq

/-- How an address outside memory is reported. -/
def outOfMemoryText (address : Int) : String :=
  "Memory access out of range: $" ++ Hex.text 1 address

/-- How an opcode that is no instruction is reported. -/
def unknownOpcodeText (opcode address : Int) : String :=
  "Unknown opcode $" ++ Hex.text 4 opcode ++ " at $" ++ Hex.text 3 address

def Fault.message : Fault → String
  | returnWithoutCall pc => "RET with empty stack at $" ++ Hex.text 3 pc
  | callTooDeep target pc =>
    "CALL $" ++ Hex.text 3 target.val ++ " with full stack at $" ++ Hex.text 3 pc
  | outOfMemory address => outOfMemoryText address
  | noSlotToRead => "list index out of range"
  | noSlotToWrite => "list assignment index out of range"
  | slotNumberTooLarge => "cannot fit 'int' into an index-sized integer"
  | noGroup group => toString group
  | emptyScreen => "integer modulo by zero"

/-- The kind of a fault that programs run into; the others have none. -/
def Fault.kind? : Fault → Option ErrorKind
  | returnWithoutCall _ | callTooDeep _ _ => some .stackFault
  | outOfMemory _ => some .memoryFault
  | noSlotToRead | noSlotToWrite | slotNumberTooLarge | noGroup _ | emptyScreen => none

end Chip8

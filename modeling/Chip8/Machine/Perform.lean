import Chip8.Instruction.Basic
import Chip8.Machine.Basic
/-!
# Chip8.Machine.Perform

What each instruction does.

`Machine.perform` is one equation for each instruction. Operands are read from the state before
the instruction, and where an instruction leaves a flag the flag is written last, so that register
F ends up holding the flag even if it is also the destination.

Four instructions touch memory at the index register and can fault in the middle. A sprite is read
in full before anything is drawn, so a faulting draw changes nothing. The stores and the register
load go cell by cell and keep what they did up to the first address that does not exist.
-/

namespace Chip8.Machine

variable {ρ : Type}

def bit (c : Bool) : Int := if c then 1 else 0

/-- Writes bytes at the index register, then goes on; stops at the first address outside memory. -/
def store (m : Machine ρ) (bytes : List UInt8) : Outcome (Machine ρ) :=
  match m.memory.writeBlock m.i bytes with
  | (memory, none) => .done { m with memory }.next
  | (memory, some address) => .stopped (.outOfMemory address) { m with memory }

/-- Loads registers, in the order listed, from the cells at the index register on; stops at the
first address outside memory. -/
def fill (m : Machine ρ) : List (Fin 16) → Outcome (Machine ρ)
  | [] => .done m
  | x :: xs =>
    match m.memory.read? (m.i + x.val) with
    | none => .stopped (.outOfMemory (m.i + x.val)) m
    | some b => (m.setV x b.toNat).fill xs

/-- The registers from zero up to one. -/
def registersTo (x : Fin 16) : List (Fin 16) := (List.finRange 16).take (x.val + 1)

/-- The three decimal digits of a number, the highest first. -/
def decimalDigits (value : Int) : List Int := [value / 100, value / 10 % 10, value % 10]

def perform [RandomSource ρ] (m : Machine ρ) : Instruction → Outcome (Machine ρ)
  | .clear => .done { m with screen := m.screen.clear, drawFlag := true }.next
  | .ret =>
    if m.sp = 0 then .stopped (.returnWithoutCall m.pc) m
    else
      let m := { m with sp := m.sp - 1 }
      match slot? m.sp with
      | some k => .done (m.goto (m.stack[k] + 2))
      | none => .stopped (slotFault m.sp .noSlotToRead) m
  | .jump target => .done (m.goto target.val)
  | .call target =>
    if 16 ≤ m.sp then .stopped (.callTooDeep target m.pc) m
    else
      match slot? m.sp with
      | some k => .done ({ m with stack := setAt m.stack k m.pc, sp := m.sp + 1 }.goto target.val)
      | none => .stopped (slotFault m.sp .noSlotToWrite) m
  | .skipEqByte x byte => .done (m.skipIf (m.v[x] = byte.val))
  | .skipNeByte x byte => .done (m.skipIf (m.v[x] ≠ byte.val))
  | .skipEq x y => .done (m.skipIf (m.v[x] = m.v[y]))
  | .loadByte x byte => .done (m.setV x byte.val).next
  | .addByte x byte => .done (m.setV x ((m.v[x] + byte.val) % 256)).next
  | .copy x y => .done (m.setV x m.v[y]).next
  | .or x y => .done (m.setV x (Bitwise.or m.v[x] m.v[y])).next
  | .and x y => .done (m.setV x (Bitwise.and m.v[x] m.v[y])).next
  | .xor x y => .done (m.setV x (Bitwise.xor m.v[x] m.v[y])).next
  | .add x y =>
    let sum := m.v[x] + m.v[y]
    .done ((m.setV x (sum % 256)).setFlag (bit (255 < sum))).next
  | .sub x y =>
    let a := m.v[x]
    let b := m.v[y]
    .done ((m.setV x ((a - b) % 256)).setFlag (bit (b ≤ a))).next
  | .shiftRight x =>
    let a := m.v[x]
    .done ((m.setV x (a / 2)).setFlag (a % 2)).next
  | .subFrom x y =>
    let a := m.v[x]
    let b := m.v[y]
    .done ((m.setV x ((b - a) % 256)).setFlag (bit (a ≤ b))).next
  | .shiftLeft x =>
    let a := m.v[x]
    .done ((m.setV x (2 * a % 256)).setFlag (a / 128 % 2 * 128)).next
  | .skipNe x y => .done (m.skipIf (m.v[x] ≠ m.v[y]))
  | .loadIndex address => .done { m with i := address.val }.next
  | .jumpOffset base => .done (m.goto (base.val + m.v[(0 : Fin 16)]))
  | .random x mask =>
    let (n, source) := RandomSource.draw m.source
    .done ({ m with source }.setV x (Bitwise.and n mask.val)).next
  | .draw x y rows =>
    match m.memory.readBlock m.i rows.val with
    | .error address => .stopped (.outOfMemory address) m
    | .ok sprite =>
      match m.screen.draw? m.v[x] m.v[y] (sprite.map fun b => (b.toNat : Int)) with
      | none => .stopped .emptyScreen m
      | some (screen, hit) => .done ({ m with screen, drawFlag := true }.setFlag (bit hit)).next
  | .skipPressed x => .done (m.skipIf (m.keypad.isPressed m.v[x]))
  | .skipReleased x => .done (m.skipIf (!m.keypad.isPressed m.v[x]))
  | .readDelay x => .done (m.setV x m.delay).next
  | .awaitKey x =>
    .done { m with mode := .awaitingKey, keyRegister := x, keysAtWait := m.keypad.held }.next
  | .setDelay x => .done { m with delay := m.v[x] }.next
  | .setSound x => .done { m with sound := m.v[x] }.next
  | .addIndex x =>
    let i := (m.i + m.v[x]) % 65536
    .done ({ m with i }.setFlag (bit (4095 < i))).next
  | .glyph x => .done { m with i := m.v[x] * glyphSize }.next
  | .storeDecimal x => m.store ((decimalDigits m.v[x]).map lowByte)
  | .storeRegisters x => m.store ((registersTo x).map fun k => lowByte m.v[k])
  | .loadRegisters x => (m.fill (registersTo x)).andThen next

end Chip8.Machine

import Chip8.Instruction.Decode
import Chip8.Machine.Perform
/-!
# Chip8.Machine.Cycle

The cycle of the machine: one instruction, or one look at the keypad, and then a tick of both
timers.

* An opcode that is no instruction is noted and nothing else happens. The program counter does not
  move, so the machine meets the same opcode again in the next cycle, and the timers run on.
* A wait for a key ends when a key is down that was up at some moment since the wait began. The keys
  that were held at its start are remembered, each until a cycle finds it released.
* A cycle that faults does not tick the timers.
-/

namespace Chip8.Machine

variable {ρ : Type}

/-- Carries out an opcode as if it stood at the program counter. -/
def execute [RandomSource ρ] (m : Machine ρ) (opcode : Int) : Outcome (Machine ρ) :=
  match decode opcode with
  | .instruction i => m.perform i
  | .unassigned => .done { m with lastUnknown := some ⟨opcode, m.pc⟩ }
  | .noGroup group => .stopped (.noGroup group) m

/-- The lowest key that is held and was not among the keys held when the wait began. -/
def freshKey? (m : Machine ρ) : Option (Fin 16) :=
  (List.finRange 16).find? fun k => m.keypad.held[k] && !m.keysAtWait[k]

/-- Visits keys of the pad in order. The first one that is held and is not remembered from the
beginning of the wait ends the wait. A released key on the way is no longer remembered. -/
def scan (m : Machine ρ) : List (Fin 16) → Machine ρ
  | [] => m
  | k :: ks =>
    if m.keypad.held[k] && !m.keysAtWait[k] then
      { m with v := setAt m.v m.keyRegister k.val, mode := .running }
    else if m.keypad.held[k] then m.scan ks
    else { m with keysAtWait := setAt m.keysAtWait k false }.scan ks

/-- One look at the keypad. -/
def poll (m : Machine ρ) : Machine ρ := m.scan (List.finRange 16)

/-- What a cycle does before the timers tick. -/
def act [RandomSource ρ] (m : Machine ρ) : Outcome (Machine ρ) :=
  match m.mode with
  | .awaitingKey => .done m.poll
  | .running =>
    match m.fetch with
    | .error address => .stopped (.outOfMemory address) m
    | .ok opcode => m.execute opcode

/-- Whether the next tick runs the sound timer out. -/
def cueDue (m : Machine ρ) : Bool := m.sound = 1

/-- Counts both timers down to zero, and raises the cue flag when the sound timer gets there. -/
def tick (m : Machine ρ) : Machine ρ :=
  { m with
    delay := if 0 < m.delay then m.delay - 1 else m.delay
    sound := if 0 < m.sound then m.sound - 1 else m.sound
    cueFlag := m.cueFlag || m.cueDue }

def cycle [RandomSource ρ] (m : Machine ρ) : Outcome (Machine ρ) := m.act.andThen tick

/-- Whether the cue sounds in the next cycle. -/
def cues [RandomSource ρ] (m : Machine ρ) : Bool :=
  match m.act with
  | .done m => m.cueDue
  | .stopped _ _ => false

end Chip8.Machine

import Chip8.Machine.Notice
import Chip8.Program
/-!
# Chip8.Machine.Load

Loading a program into a machine.

Loading changes memory from `programStart` on and nothing else: registers, timers and the program
counter stay as they are. It answers with why the program was refused, if it was, and with the
machine that is there afterwards.
-/

namespace Chip8.Machine

variable {ρ : Type}

def load (m : Machine ρ) (program : Array UInt8) : Option LoadFailure × Machine ρ :=
  if maxProgramSize < program.size then (some (.tooLarge program.size), m)
  else (none, { m with memory := m.memory.overlay programStart program })

/-- Reads a program file and copies it into memory. The notices tell how far it came. -/
def loadFile (m : Machine ρ) (files : FileReader) (path : String) :
    List Notice × Option LoadFailure × Machine ρ :=
  match ProgramFile.read files path with
  | .error failure => ([], some failure, m)
  | .ok file =>
    let wasRead := Notice.programRead file.name file.bytes.size
    match m.load file.bytes with
    | (some failure, m) => ([wasRead], some failure, m)
    | (none, m) => ([wasRead, .programLoaded file.bytes.size], none, m)

end Chip8.Machine

import Chip8.Instruction.Forms
import Chip8.Machine.Cycle
/-!
# Chip8.Machine.Notice

What the machine reports while it works, and runs of several cycles.

A `Notice` says what happened, with the numbers that belong to it; its level, the part of the
program that speaks and its wording are functions of it, so a notice that nobody reads costs no
text. Notices are computed beside a cycle and never feed back into it: `observe` returns the
outcome of `cycle` unchanged (`outcome_observe`).
-/

namespace Chip8

/-- How much a notice matters. -/
inductive Level
  /-- Of use when following a program step by step. -/
  | debug
  | info
  /-- Something is odd, but the emulator goes on. -/
  | warning
  /-- The emulator stops. -/
  | error
  deriving Repr, DecidableEq

namespace Level

/-- The place of a level in the order of urgency. -/
def rank : Level → Nat
  | debug => 10
  | info => 20
  | warning => 30
  | error => 40

def name : Level → String
  | debug => "DEBUG"
  | info => "INFO"
  | warning => "WARNING"
  | error => "ERROR"

end Level

/-- Something that happened. -/
inductive Notice
  /-- A program of this many bytes was copied into memory. -/
  | programLoaded (size : Nat)
  /-- A program file with this name and size was read. -/
  | programRead (name : String) (size : Nat)
  /-- An instruction is about to be carried out. -/
  | executing (address opcode : Int)
  | unknownOpcode (opcode address : Int)
  | awaitingKey (register : Fin 16)
  | keyTaken (key : Fin 16)
  /-- The sound timer ran out. The numbers are the program counter, the two timers and the cue flag
  at that moment, which is all that a listener to the cue could ask about. -/
  | cue (pc delay sound : Int) (flag : Bool)
  /-- The emulator gave up on a fault. -/
  | emulationStopped (fault : Fault)
  deriving Repr, DecidableEq

namespace Notice

def level : Notice → Level
  | programLoaded _ | programRead _ _ | cue .. => .info
  | executing _ _ | awaitingKey _ | keyTaken _ => .debug
  | unknownOpcode _ _ => .warning
  | emulationStopped _ => .error

/-- The part of the program that speaks. -/
def speaker : Notice → String
  | programRead _ _ => "meowchip.loader"
  | emulationStopped _ => "meowchip.app"
  | _ => "meowchip.cpu"

def text : Notice → String
  | programLoaded size =>
    "Loaded " ++ toString size ++ " bytes at $" ++ Hex.text 3 programStart
  | programRead name size => "Read " ++ name ++ " (" ++ toString size ++ " bytes)"
  | executing address opcode =>
    "$" ++ Hex.text 3 address ++ "  " ++ Hex.text 4 opcode ++ "  " ++ opcodeText opcode
  | unknownOpcode opcode address => unknownOpcodeText opcode address
  | awaitingKey register => "Waiting for key into V" ++ Hex.text 1 register.val
  | keyTaken key => "Key " ++ Hex.text 1 key.val ++ " pressed, resuming"
  | cue .. => "*** BEEP ***"
  | emulationStopped fault => "Emulation stopped: " ++ fault.message

end Notice

namespace Machine

variable {ρ : Type}

/-- Carries out an opcode with the trace on. The line of the trace is made before the instruction
runs, so an opcode without a written form would stop there. -/
def executeTraced [RandomSource ρ] (m : Machine ρ) (opcode : Int) : Outcome (Machine ρ) :=
  match decode opcode with
  | .instruction i =>
    match disassemble opcode with
    | .ok _ => m.perform i
    | .error group => .stopped (.noGroup group) m
  | .unassigned => .done { m with lastUnknown := some ⟨opcode, m.pc⟩ }
  | .noGroup group => .stopped (.noGroup group) m

/-- The notices of executing an opcode, known before it is carried out. -/
def executeNotices (m : Machine ρ) (opcode : Int) : List Notice :=
  match decode opcode with
  | .instruction (.awaitKey x) => [.executing m.pc opcode, .awaitingKey x]
  | .instruction _ => [.executing m.pc opcode]
  | .unassigned => [.unknownOpcode opcode m.pc]
  | .noGroup _ => []

/-- The notices of a cycle up to the timers, known before it begins. -/
def actNotices (m : Machine ρ) : List Notice :=
  match m.mode with
  | .awaitingKey => (m.freshKey?.map Notice.keyTaken).toList
  | .running =>
    match m.fetch with
    | .error _ => []
    | .ok opcode => m.executeNotices opcode

/-- The notice of a tick: the cue, with what it finds once the timers have moved. -/
def tickNotices (m : Machine ρ) : List Notice :=
  if m.cueDue then
    let m := m.tick
    [.cue m.pc m.delay m.sound m.cueFlag]
  else []

/-- One cycle together with its notices. -/
def observe [RandomSource ρ] (m : Machine ρ) : List Notice × Outcome (Machine ρ) :=
  let before := m.actNotices
  match m.act with
  | .done m => (before ++ m.tickNotices, .done m.tick)
  | .stopped fault m => (before, .stopped fault m)

theorem outcome_observe [RandomSource ρ] (m : Machine ρ) : m.observe.2 = m.cycle := by
  unfold observe cycle
  cases m.act <;> rfl

/-- A run of several cycles. -/
structure Run (ρ : Type) where
  machine : Machine ρ
  /-- The program counter after each completed cycle. -/
  counters : Array Int := #[]
  notices : Array Notice := #[]
  fault? : Option Fault := none

/-- Goes on for up to `n` more cycles, fewer if one faults. -/
def Run.extend [RandomSource ρ] (r : Run ρ) : (n : Nat) → Run ρ
  | 0 => r
  | n + 1 =>
    match r.machine.observe with
    | (notices, .stopped fault machine) =>
      { machine, counters := r.counters, notices := r.notices ++ notices, fault? := some fault }
    | (notices, .done machine) =>
      Run.extend
        { machine, counters := r.counters.push machine.pc, notices := r.notices ++ notices } n

/-- Up to `n` cycles, fewer if one faults. -/
def run [RandomSource ρ] (m : Machine ρ) (n : Nat) : Run ρ := Run.extend { machine := m } n

end Machine

end Chip8

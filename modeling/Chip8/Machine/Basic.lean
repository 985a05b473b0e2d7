import Chip8.Fault
import Chip8.Keypad
import Chip8.Memory
import Chip8.Random.Source
import Chip8.Screen
/-!
# Chip8.Machine.Basic

The state of the machine, and how a piece of work on it can end.

Design points:

* Registers, timers, pointers and stack slots are integers. That they stay within a byte, an address
  or the depth of the stack is a property of the runs of a new machine, not of the type, because a
  state may also be set from outside and then has to behave as its numbers say.
* The source of random numbers is a parameter `ρ`; nothing but the random-load instruction uses it.
* An `Outcome` keeps the state even when the work stopped with a fault: what an instruction did
  before its fault stays done.
-/

namespace Chip8

/-- What the next cycle does. -/
inductive Mode
  /-- It runs the instruction at the program counter. -/
  | running
  /-- It looks for a key that has gone down. -/
  | awaitingKey
  deriving Repr, DecidableEq

/-- An opcode that was no instruction, and where it was met. -/
structure UnknownOpcode where
  opcode : Int
  /-- The program counter at the time. -/
  address : Int
  deriving Repr, DecidableEq

/-- The state of the machine. -/
structure Machine (ρ : Type) where
  memory : Memory := .initial
  /-- The sixteen registers. The last one is the flag. -/
  v : Vector Int 16 := Vector.replicate 16 0
  i : Int := 0
  pc : Int := programStart
  /-- The number of calls that have not returned. -/
  sp : Int := 0
  /-- The addresses of those calls, oldest first. -/
  stack : Vector Int 16 := Vector.replicate 16 0
  delay : Int := 0
  sound : Int := 0
  /-- What the next cycle does. -/
  mode : Mode := .running
  /-- The register that waits for a key. -/
  keyRegister : Fin 16 := 0
  /-- The keys that were held when the wait began and have not been seen released since. -/
  keysAtWait : Vector Bool 16 := Vector.replicate 16 false
  keypad : Keypad := .released
  screen : Screen := .standard
  source : ρ
  /-- Whether the screen was drawn on since the flag was last cleared. -/
  drawFlag : Bool := false
  /-- Whether the sound timer ran out since the flag was last cleared. -/
  cueFlag : Bool := false
  /-- The last opcode that was no instruction. -/
  lastUnknown : Option UnknownOpcode := none

/-- How a piece of work ended, with the state it left. -/
inductive Outcome (σ : Type)
  | done (state : σ)
  | stopped (fault : Fault) (state : σ)

namespace Outcome

variable {σ τ : Type}

def state : Outcome σ → σ
  | done s => s
  | stopped _ s => s

def fault? : Outcome σ → Option Fault
  | done _ => none
  | stopped f _ => some f

/-- Work that cannot fail, after work that may have: it is not done after a fault. -/
def andThen (o : Outcome σ) (f : σ → σ) : Outcome σ :=
  match o with
  | done s => done (f s)
  | stopped e s => stopped e s

@[simp] theorem state_done (s : σ) : (done s).state = s := rfl
@[simp] theorem state_stopped (f : Fault) (s : σ) : (stopped f s).state = s := rfl
@[simp] theorem fault?_done (s : σ) : (done s).fault? = none := rfl
@[simp] theorem fault?_stopped (f : Fault) (s : σ) : (stopped f s).fault? = some f := rfl
@[simp] theorem andThen_done (s : σ) (f : σ → σ) : (done s).andThen f = done (f s) := rfl
@[simp] theorem andThen_stopped (e : Fault) (s : σ) (f : σ → σ) :
    (stopped e s).andThen f = stopped e s := rfl

end Outcome

namespace Machine

variable {ρ : Type}

def setV (m : Machine ρ) (x : Fin 16) (value : Int) : Machine ρ :=
  { m with v := setAt m.v x value }

def setFlag (m : Machine ρ) (value : Int) : Machine ρ := m.setV 15 value

def goto (m : Machine ρ) (pc : Int) : Machine ρ := { m with pc }

def next (m : Machine ρ) : Machine ρ := m.goto (m.pc + 2)

/-- Goes on behind the instruction, or behind the one after it. -/
def skipIf (m : Machine ρ) (c : Bool) : Machine ρ := if c then m.goto (m.pc + 4) else m.next

/-- The stack slot with an index. Negative indices count from the end. -/
def slot? (index : Int) : Option (Fin 16) :=
  if -16 ≤ index ∧ index < 16 then some ⟨(index % 16).toNat, by omega⟩ else none

/-- The fault for a slot that does not exist. The numbers of slots are looked at only within 64
bits. -/
def slotFault (index : Int) (missing : Fault) : Fault :=
  if -0x8000000000000000 ≤ index ∧ index < 0x8000000000000000 then missing
  else .slotNumberTooLarge

/-- The opcode at the program counter, or the first of its two addresses that does not exist. -/
def fetch (m : Machine ρ) : Except Int Int :=
  match m.memory.read? m.pc, m.memory.read? (m.pc + 1) with
  | none, _ => .error m.pc
  | some _, none => .error (m.pc + 1)
  | some high, some low => .ok (high.toNat * 256 + low.toNat)

def keyDown (m : Machine ρ) (key : Int) : Machine ρ := { m with keypad := m.keypad.press key }

def keyUp (m : Machine ρ) (key : Int) : Machine ρ := { m with keypad := m.keypad.release key }

def isWaiting (m : Machine ρ) : Bool := m.mode = .awaitingKey

end Machine

end Chip8

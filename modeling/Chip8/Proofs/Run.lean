import Chip8.Machine.Load

/-!
# Chip8.Proofs.Run

The runs of a machine.

Between the cycles of a machine its owner may hand over programs, press and release keys and clear
the two flags, in any order. A run is a list of such operations. A cycle that faults is one too: the
owner may go on with whatever the fault left.

What happened in a run is told by the machines that its cycles set out from: `starts` has all of
them, `history` those whose cycles completed. An entry of a history tells everything about its
cycle, since a cycle is a function of the machine.
-/

namespace Chip8.Machine

variable {ρ : Type}

/-- A machine that has just been built around a source of numbers, a keypad and a screen. -/
def new (source : ρ) (keypad : Keypad) (screen : Screen) : Machine ρ := { source, keypad, screen }

/-- What is done to a machine from outside. -/
inductive Operation
  /-- A program is handed over; one that is too long is refused. -/
  | load (program : Array UInt8)
  | keyDown (key : Int)
  | keyUp (key : Int)
  /-- A cycle runs, to its end or to its fault. -/
  | cycle
  /-- The screen has been shown. -/
  | clearDrawFlag
  /-- The cue has been heard. -/
  | clearCueFlag

def operate [RandomSource ρ] (m : Machine ρ) : Operation → Machine ρ
  | .load program => (m.load program).2
  | .keyDown key => m.keyDown key
  | .keyUp key => m.keyUp key
  | .cycle => m.cycle.state
  | .clearDrawFlag => { m with drawFlag := false }
  | .clearCueFlag => { m with cueFlag := false }

/-- Handing over a program copies it, or does nothing if it is too long. -/
theorem operate_load [RandomSource ρ] (m : Machine ρ) (program : Array UInt8) :
    m.operate (.load program) =
      if maxProgramSize < program.size then m
      else { m with memory := m.memory.overlay programStart program } := by
  by_cases h : maxProgramSize < program.size
  · simp only [operate, load, if_pos h]
  · simp only [operate, load, if_neg h]

def after [RandomSource ρ] (m : Machine ρ) (run : List Operation) : Machine ρ :=
  run.foldl operate m

/-- The machines that come up: those after some run of a new machine with a screen that has
pixels. -/
def Reachable [RandomSource ρ] (m : Machine ρ) : Prop :=
  ∃ source keypad screen run, 0 < screen.width ∧ 0 < screen.height ∧
    m = (new source keypad screen).after run

@[simp] theorem after_nil [RandomSource ρ] (m : Machine ρ) : m.after [] = m := rfl

@[simp] theorem after_cons [RandomSource ρ] (m : Machine ρ) (op : Operation)
    (run : List Operation) : m.after (op :: run) = (m.operate op).after run := rfl

theorem after_append [RandomSource ρ] (m : Machine ρ) (run more : List Operation) :
    m.after (run ++ more) = (m.after run).after more :=
  List.foldl_append

theorem Reachable.after [RandomSource ρ] {m : Machine ρ} (h : m.Reachable)
    (more : List Operation) : (m.after more).Reachable := by
  obtain ⟨source, keypad, screen, run, hw, hh, rfl⟩ := h
  exact ⟨source, keypad, screen, run ++ more, hw, hh, (after_append _ run more).symm⟩

/-- A program that fits can be handed to a new machine. -/
theorem reachable_of_program [RandomSource ρ] {program : Array UInt8} {screen : Screen}
    (hsize : program.size ≤ maxProgramSize) (source : ρ) (keypad : Keypad)
    (hw : 0 < screen.width) (hh : 0 < screen.height) :
    Reachable
      { source, keypad, screen, memory := Memory.initial.overlay programStart program } := by
  refine ⟨source, keypad, screen, [.load program], hw, hh, ?_⟩
  rw [after_cons, after_nil, operate_load, if_neg (Nat.not_lt.mpr hsize)]
  rfl

/-- A completed cycle leads on. -/
theorem Reachable.of_cycle [RandomSource ρ] {m m' : Machine ρ} (h : m.Reachable)
    (hcycle : m.cycle = .done m') : m'.Reachable := by
  have hafter := h.after [.cycle]
  rwa [after_cons, after_nil, operate, hcycle] at hafter

/-! ### Histories -/

variable [RandomSource ρ] {m m' : Machine ρ}

/-- The machines that the cycles of a run set out from, in order. -/
def starts (m : Machine ρ) : List Operation → List (Machine ρ)
  | [] => []
  | .cycle :: run => m :: (m.operate .cycle).starts run
  | op :: run => (m.operate op).starts run

/-- The number of cycles in a run. -/
def cycles (run : List Operation) : Nat :=
  run.countP fun
    | .cycle => true
    | _ => false

/-- Whether the next cycle completes. -/
def completes (m : Machine ρ) : Bool := m.cycle.fault?.isNone

/-- The machines that the completed cycles of a run set out from, in order. -/
def history (m : Machine ρ) (run : List Operation) : List (Machine ρ) :=
  (m.starts run).filter completes

theorem starts_cons_of_ne (m : Machine ρ) {op : Operation} (hop : op ≠ .cycle)
    (run : List Operation) : m.starts (op :: run) = (m.operate op).starts run := by
  cases op with
  | cycle => exact absurd rfl hop
  | _ => rfl

theorem cycles_cons_cycle (run : List Operation) : cycles (.cycle :: run) = cycles run + 1 := by
  rw [cycles, List.countP_cons_of_pos rfl, cycles]

theorem cycles_cons_of_ne {op : Operation} (hop : op ≠ .cycle) (run : List Operation) :
    cycles (op :: run) = cycles run := by
  cases op with
  | cycle => exact absurd rfl hop
  | _ => rfl

/-- A cycle sets out from what the part of the run before it has left. -/
theorem exists_getElem?_starts (m : Machine ρ) {run : List Operation} {k : Nat}
    (hk : k < cycles run) :
    ∃ front later, run = front ++ .cycle :: later ∧ cycles front = k ∧
      (m.starts run)[k]? = some (m.after front) := by
  induction run generalizing m k with
  | nil => cases hk
  | cons op run ih =>
      by_cases hop : op = .cycle
      · subst hop
        rw [cycles_cons_cycle] at hk
        cases k with
        | zero => exact ⟨[], run, rfl, rfl, rfl⟩
        | succ k =>
            obtain ⟨front, later, rfl, rfl, hstart⟩ :=
              ih (m.operate .cycle) (Nat.lt_of_succ_lt_succ hk)
            exact ⟨.cycle :: front, later, rfl, cycles_cons_cycle front, hstart⟩
      · rw [cycles_cons_of_ne hop] at hk
        obtain ⟨front, later, rfl, rfl, hstart⟩ := ih (m.operate op) hk
        refine ⟨op :: front, later, rfl, cycles_cons_of_ne hop front, ?_⟩
        rw [starts_cons_of_ne m hop]
        exact hstart

@[simp] theorem history_nil (m : Machine ρ) : m.history [] = [] := rfl

theorem history_cons_of_ne (m : Machine ρ) {op : Operation} (hop : op ≠ .cycle)
    (run : List Operation) : m.history (op :: run) = (m.operate op).history run := by
  rw [history, starts_cons_of_ne m hop]
  rfl

theorem history_cons_of_done (h : m.cycle = .done m') (run : List Operation) :
    m.history (.cycle :: run) = m :: m'.history run := by
  have hcompletes : m.completes = true := by simp only [completes, h, Outcome.fault?_done]; rfl
  rw [history, starts, List.filter_cons_of_pos hcompletes, operate, h]
  rfl

theorem history_cons_of_stopped {fault : Fault} (h : m.cycle = .stopped fault m')
    (run : List Operation) : m.history (.cycle :: run) = m'.history run := by
  have hfaults : ¬m.completes = true := by simp [completes, h]
  rw [history, starts, List.filter_cons_of_neg hfaults, operate, h]
  rfl

end Chip8.Machine

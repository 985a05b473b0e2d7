import Chip8.Emulator.Basic
/-!
# Chip8.Emulator.Loop

The main loop: frame after frame until the emulator is told to stop.

Each frame takes the events that arrived since the last one, runs its cycles and is shown. A frame
that is told to stop is still run and shown to its end. A failure ends the loop in the middle of
its frame.
-/

namespace Chip8

open Json (Value)

/-- What a finished frame showed. -/
structure FrameReport where
  /-- The rate at which frames follow each other. -/
  rate : Value
  texts : List Caption

/-- A run of the main loop. -/
structure LoopRun (ρ : Type) where
  emulator : Emulator ρ
  frames : Array FrameReport := #[]
  notices : Array Notice := #[]
  failure? : Option FrameFailure := none

namespace LoopRun

variable {ρ : Type}

/-- One more frame, with the events that have arrived. -/
def nextFrame [RandomSource ρ] (r : LoopRun ρ) (events : List Event) : LoopRun ρ :=
  let (notices, failure?, emulator) := (r.emulator.handleAll events).update
  let r := { r with emulator, notices := r.notices ++ notices }
  match failure? with
  | some failure => { r with failure? := some failure }
  | none =>
    match r.emulator.render with
    | (.error failure, emulator) => { r with emulator, failure? := some failure }
    | (.ok rendering, emulator) =>
      { r with emulator, frames := r.frames.push ⟨emulator.settings.frameHz, rendering.texts⟩ }

def goesOn (r : LoopRun ρ) : Bool := r.emulator.running && r.failure?.isNone

/-- Runs frames while there are events for them and the loop goes on. -/
def through [RandomSource ρ] (r : LoopRun ρ) : List (List Event) → LoopRun ρ
  | [] => r
  | events :: more => if r.goesOn then (r.nextFrame events).through more else r

end LoopRun

/-- Runs the main loop with the events of each frame; when they are used up the window is closed. -/
def Emulator.loop {ρ : Type} [RandomSource ρ] (a : Emulator ρ) (frames : List (List Event)) :
    LoopRun ρ :=
  LoopRun.through { emulator := a } (frames ++ [[.quit]])

end Chip8

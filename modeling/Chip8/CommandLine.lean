import Chip8.Emulator.Loop
import Chip8.Settings.File
import Chip8.Machine.Load
import Chip8.Random.Twister
/-!
# Chip8.CommandLine

The command line: a program file, and a settings file if one is named.

`CommandLine.run` is the whole program as a function. It is given a display, a way to read files,
the arguments, the events of each frame and a number to seed the random bytes with where the
settings name no whole number; it answers with all that was printed, how the program ended and what
the window showed.

The settings are read first, then the random source is made, then the program is loaded. A failure
that has a kind is reported and ends the program with status one, and so does a fault of the machine
that has one. Everything else that can go wrong escapes as an `Escape`.
-/

namespace Chip8

open Json (Value)

/-- How the program ends when something goes wrong that it does not expect. -/
inductive Escape
  | settings (cause : SettingsFileError)
  | load (cause : LoadFailure)
  /-- The seed is a value that no random source can be made from. -/
  | badSeed
  | start (cause : StartError)
  | frame (cause : FrameFailure)

def Escape.message : Escape → String
  | settings cause => cause.message
  | load cause => cause.message
  | badSeed => "The only supported seed types are: None,\nint, float, str, bytes, and bytearray."
  | start cause => cause.message
  | frame cause => cause.message

/-- All that a run of the program shows. -/
structure Session where
  output : String
  reports : String := ""
  /-- The exit status, or what escaped. -/
  ending : Except Escape Nat
  frames : Array FrameReport := #[]
  /-- The window, if the emulator started, and the machine at the end. -/
  window? : Option (Window × Machine NumberSource) := none

namespace CommandLine

/-- Printed when no program is named. -/
def usage : String := "Usage: meowchip <rom.ch8> [config.json]\n"

/-- Printed when the program starts. -/
def banner : String :=
  "🐱 meowchip - CHIP-8 interpreter\n" ++
  "  CHIP-8 Keypad: 1234 / QWER / ASDF / ZXCV\n" ++
  "  P = Pause/Resume   F1 = Debug   ESC = Exit\n\n"

/-- A notice as a line of the report. -/
def reportLine (n : Notice) : String :=
  "[" ++ n.level.name ++ "] " ++ n.speaker ++ ": " ++ n.text ++ "\n"

/-- The notices that are reported: all but those for following a program step by step. -/
def report (notices : List Notice) : String :=
  String.join ((notices.filter fun n => Level.info.rank ≤ n.level.rank).map reportLine)

/-- A failure as a line of the report. -/
def errorLine (message : String) : String := "Error: " ++ message ++ "\n"

/-- The random source for a seed. Null, texts and floating-point numbers leave the choice to
`entropy`; lists and objects cannot be seeds. -/
def sourceFor (entropy : Nat) (seed : Value) : Except Escape NumberSource :=
  match seed with
  | .array _ | .object _ => .error .badSeed
  | _ => .ok (.seeded (Twister.ofSeed (seed.int?.getD entropy)))

/-- The settings for an optional path. -/
def settingsFor (files : FileReader) : Option String → Except SettingsFileError Settings
  | none => .ok {}
  | some path => Settings.ofFile files path

/-- The session of an emulator that has been started. -/
def runEmulator (loaded : List Notice) (emulator : Emulator NumberSource)
    (frames : List (List Event)) : Session :=
  let run := emulator.loop frames
  let session (notices : List Notice) (ending : Except Escape Nat) : Session := {
    output := banner
    reports := report (loaded ++ run.notices.toList ++ notices)
    ending
    frames := run.frames
    window? := some (emulator.window, run.emulator.machine) }
  match run.failure? with
  | none => session [] (.ok 0)
  | some (.fault fault) =>
    if fault.kind?.isSome then session [.emulationStopped fault] (.ok 1)
    else session [] (.error (.frame (.fault fault)))
  | some failure => session [] (.error (.frame failure))

/-- A session that ends before the window opens. -/
def failed (reports : String) (ending : Except Escape Nat) : Session :=
  { output := banner, reports, ending }

def run (display : Display) (files : FileReader) (entropy : Nat) (arguments : List String)
    (frames : List (List Event)) : Session :=
  match arguments with
  | [] => { output := usage, ending := .ok 2 }
  | path :: more =>
    match settingsFor files more.head? with
    | .error e =>
      if e.kind?.isSome then failed (errorLine e.message) (.ok 1)
      else failed "" (.error (.settings e))
    | .ok settings =>
      match sourceFor entropy settings.seed with
      | .error e => failed "" (.error e)
      | .ok source =>
        let machine : Machine NumberSource := { source }
        match machine.loadFile files path with
        | (notices, some e, _) =>
          if e.kind?.isSome then failed (report notices ++ errorLine e.message) (.ok 1)
          else failed (report notices) (.error (.load e))
        | (notices, none, machine) =>
          match Emulator.start display machine settings path with
          | .error e => failed (report notices) (.error (.start e))
          | .ok emulator => runEmulator notices emulator frames

end CommandLine

end Chip8

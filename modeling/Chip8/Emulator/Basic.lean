import Chip8.Emulator.Keyboard
import Chip8.Glow.Renderer
import Chip8.Machine.Notice
/-!
# Chip8.Emulator.Basic

The emulator around a machine: input, pacing and what the window shows.

A frame of the emulator has three parts. `handleAll` takes the events that have arrived, `update`
runs as many cycles as a frame lasts, and `render` makes the pictures and the texts. The emulator
adds nothing to the machine: events press and release keys of the keypad, updates run cycles, and
of all the machine's state only the two flags that are there to be cleared are cleared.

The pictures are kept from frame to frame (`Emulator.frame`) and made anew when the machine has
drawn on its screen since. The notice of a beep stays for a quarter of a second's frames.

Starting an emulator opens its window and makes the background, and either may fail: the display
(`Display`) may have no room for them.
-/

namespace Chip8

open Json (Value Misuse Number)

/-- What the status line says when nothing else is to be said. -/
inductive Status
  /-- The keys that control the emulator. -/
  | help
  | paused
  | resumed
  deriving Repr, DecidableEq

def Status.text : Status → String
  | help => "P = Pause | F1 = Debug | ESC = Exit"
  | paused => "Paused"
  | resumed => "Running"

def cueText : String := "*** BEEP ***"

/-- The height of the status line below the screen. -/
def statusHeight : Nat := 25

structure Window where
  title : String
  width : Nat
  height : Nat
  deriving Repr, DecidableEq

/-- The title of the window for a name. -/
def windowTitle (name : String) : String := "🐱 " ++ name

structure Emulator (ρ : Type) where
  machine : Machine ρ
  settings : Settings
  /-- Where pictures are shown. -/
  display : Display
  window : Window
  /-- What pictures are made with. -/
  renderer : Renderer
  background : Image
  /-- The pictures that were made last. -/
  frame : Option Frame := none
  /-- Whether there will be another frame. -/
  running : Bool := true
  /-- Whether updates do nothing. -/
  paused : Bool := false
  /-- Whether the machine's state is shown over the screen. -/
  showDebug : Value
  /-- What the status line says. -/
  status : Status := .help
  /-- For how many more frames the notice of a beep is shown. -/
  cueFrames : Number := .int 0

inductive StartError
  /-- The name for the window holds the character with code point zero. -/
  | nullInTitle
  /-- The window cannot have the size, or the background cannot be made. -/
  | picture (cause : PictureError)
  deriving Repr, DecidableEq

def StartError.message : StartError → String
  | nullInTitle => "embedded null character"
  | picture cause => cause.message

/-- Why a part of a frame was not carried out. -/
inductive FrameFailure
  | fault (cause : Fault)
  | misuse (cause : Misuse)
  | picture (cause : PictureError)
  deriving Repr, DecidableEq

def FrameFailure.message : FrameFailure → String
  | fault cause => cause.message
  | misuse cause => cause.message
  | picture cause => cause.message

/-- A text in the window, with its colour. -/
structure Caption where
  text : String
  color : Color
  deriving Repr, DecidableEq

/-- What a rendering did. -/
structure Rendering where
  /-- Whether the pictures were made anew. -/
  redrawn : Bool
  /-- The texts, in the order they were written. -/
  texts : List Caption

namespace Emulator

variable {ρ : Type}

/-- The emulator for a machine, before its first frame, in a window with the title for a name. The
pictures are for a standard screen, and the window has the status line below them. -/
def start (display : Display) (machine : Machine ρ) (settings : Settings) (name : String) :
    Except StartError (Emulator ρ) :=
  if '\x00' ∈ name.toList then .error .nullInTitle
  else
    match Renderer.ofSettings settings Screen.standard.width Screen.standard.height with
    | .error e => .error (.picture (.misuse e))
    | .ok renderer =>
      match display .window (renderer.size.withRows statusHeight) with
      | .error e => .error (.picture (.extent e))
      | .ok (width, height) =>
        match renderer.backgroundImage display with
        | .error e => .error (.picture e)
        | .ok background =>
          .ok {
            machine, settings, display, renderer, background
            window := ⟨windowTitle name, width, height⟩
            showDebug := settings.showDebug }

/-! ### Input -/

def keyDown (a : Emulator ρ) (key : Key) : Emulator ρ :=
  if key = .escape then { a with running := false }
  else if key = .char 'p' then
    { a with paused := !a.paused, status := if a.paused then .resumed else .paused }
  else if key = .f1 then { a with showDebug := .bool !a.showDebug.isTruthy }
  else
    match key.padKey? with
    | some k => { a with machine := a.machine.keyDown k.val }
    | none => a

def keyUp (a : Emulator ρ) (key : Key) : Emulator ρ :=
  match key.padKey? with
  | some k => { a with machine := a.machine.keyUp k.val }
  | none => a

def handle (a : Emulator ρ) : Event → Emulator ρ
  | .quit => { a with running := false }
  | .keyDown key => a.keyDown key
  | .keyUp key => a.keyUp key
  | .other => a

/-- Takes the events that have arrived, in order. -/
def handleAll (a : Emulator ρ) (events : List Event) : Emulator ρ := events.foldl handle a

/-! ### Cycles -/

/-- For how many frames the notice of a beep is shown: a quarter of a second. -/
def cueLength (settings : Settings) : Except Misuse Number := settings.frameHz.floorDiv (.int 4)

/-- Takes notice of a cue that has sounded. -/
def takeCue (a : Emulator ρ) : Except Misuse (Emulator ρ) :=
  if a.machine.cueFlag then
    match cueLength a.settings with
    | .error e => .error e
    | .ok cueFrames => .ok { a with machine := { a.machine with cueFlag := false }, cueFrames }
  else .ok a

/-- How many cycles an update runs. -/
def cycleCount (settings : Settings) : Except Misuse Nat :=
  match settings.cyclesPerFrame with
  | .error e => .error e
  | .ok n => n.toCount

/-- Runs the cycles of a frame, unless the emulator is paused. A fault ends it at once, and the
machine stays as the fault left it. -/
def update [RandomSource ρ] (a : Emulator ρ) : Array Notice × Option FrameFailure × Emulator ρ :=
  if a.paused then (#[], none, a)
  else
    match cycleCount a.settings with
    | .error e => (#[], some (.misuse e), a)
    | .ok n =>
      let run := a.machine.run n
      let a := { a with machine := run.machine }
      match run.fault? with
      | some fault => (run.notices, some (.fault fault), a)
      | none =>
        match a.takeCue with
        | .error e => (run.notices, some (.misuse e), a)
        | .ok a => (run.notices, none, a)

/-! ### Pictures and texts -/

/-- Makes the pictures anew if there are none, or if the machine has drawn since. The first
component tells whether they were made. -/
def refresh (a : Emulator ρ) : Except PictureError (Bool × Emulator ρ) :=
  if a.machine.drawFlag || a.frame.isNone then
    match a.renderer.render a.display a.machine.screen with
    | .error e => .error e
    | .ok frame =>
      .ok (true, { a with frame := some frame, machine := { a.machine with drawFlag := false } })
  else .ok (false, a)

/-- Registers as they are shown, two digits each. -/
def registersText (registers : List Int) : String := " ".intercalate (registers.map (Hex.text 2))

/-- The lines that show the state of the machine. The last one shows the next opcode; it is left out
where the program counter has run past the last opcode in memory. -/
def debugLines (m : Machine ρ) : Except Fault (List String) :=
  let state := [
    "PC: $" ++ Hex.text 3 m.pc ++ "  I: $" ++ Hex.text 3 m.i,
    "SP: " ++ toString m.sp ++ "  DT: " ++ Hex.text 2 m.delay ++ "  ST: " ++ Hex.text 2 m.sound,
    "V0-V7: " ++ registersText (m.v.toList.take 8),
    "V8-VF: " ++ registersText (m.v.toList.drop 8)]
  if m.pc < memorySize - 1 then
    match m.fetch with
    | .error address => .error (.outOfMemory address)
    | .ok opcode =>
      match disassemble opcode with
      | .error group => .error (.noGroup group)
      | .ok text => .ok (state ++ ["OP: $" ++ Hex.text 4 opcode ++ " " ++ text])
  else .ok state

/-- The status line, and the emulator with one frame less of a beep's notice to show. -/
def statusLine (a : Emulator ρ) : Caption × Emulator ρ :=
  let (text, a) :=
    if a.cueFrames.isPositive then (cueText, { a with cueFrames := a.cueFrames.pred })
    else (a.status.text, a)
  let text := if a.machine.isWaiting then text ++ " | waiting for key" else text
  (⟨text, Color.dimText⟩, a)

def debugTexts (a : Emulator ρ) : Except Fault (List Caption) :=
  if a.showDebug.isTruthy then
    match debugLines a.machine with
    | .error fault => .error fault
    | .ok lines => .ok (lines.map (⟨·, a.settings.fgColor⟩))
  else .ok []

def render (a : Emulator ρ) : Except FrameFailure Rendering × Emulator ρ :=
  match a.refresh with
  | .error e => (.error (.picture e), a)
  | .ok (redrawn, a) =>
    match a.debugTexts with
    | .error fault => (.error (.fault fault), a)
    | .ok texts =>
      let (line, a) := a.statusLine
      (.ok ⟨redrawn, texts ++ [line]⟩, a)

end Emulator

end Chip8

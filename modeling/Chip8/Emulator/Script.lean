import Chip8.CommandLine
/-!
# Chip8.Emulator.Script

The emulator on a terminal: frames of input as lines of words, and what was shown as text.

A line is a frame. In it `+w` is the key `w` going down, `-w` the same key coming up, and `quit` the
window being closed; words are separated by blanks, and any other word is an event of no use.
-/

namespace Chip8

def Event.ofWord (word : String) : Event :=
  match word.toList with
  | '+' :: name => .keyDown (Key.ofName (String.ofList name))
  | '-' :: name => .keyUp (Key.ofName (String.ofList name))
  | _ => if word = "quit" then .quit else .other

def Event.ofLine (line : String) : List Event :=
  ((line.splitOn " ").filter (· ≠ "")).map Event.ofWord

/-- The screen as lines of text, a mark for each lit pixel. -/
def Screen.lines (s : Screen) : List String :=
  s.rows.toList.map fun row => String.ofList (row.toList.map fun lit => if lit then '#' else '.')

/-- What a session showed in its window: its title, the texts of each frame and the last screen. -/
def Session.transcript (s : Session) : List String :=
  match s.window? with
  | none => []
  | some (window, machine) =>
    let title := window.title ++ " " ++ toString window.width ++ "x" ++ toString window.height
    let texts := s.frames.toList.flatMap fun frame => frame.texts.map (·.text)
    title :: texts ++ machine.screen.lines

/-- The exit status for the operating system, and what escaped in words. -/
def Session.status (s : Session) : Nat × String :=
  match s.ending with
  | .ok code => (code, "")
  | .error escape => (1, escape.message ++ "\n")

end Chip8

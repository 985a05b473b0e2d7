import Chip8.Emulator.Desktop
import Chip8.Emulator.Script
/-!
# Chip8.Main

The program on a terminal. It reads the files that the arguments name and the frames of input from
the standard input, runs `CommandLine.run` on them, and prints what came of it.
-/

namespace Chip8.Main

/-- Why the system did not open a file, from what it reported. -/
def problemOf : IO.Error → FileProblem
  | .noFileOrDirectory .. => .notFound
  | .inappropriateType _ code _ =>
    if code = 20 then .notDirectory else .isDirectory
  | .permissionDenied _ code details => .other code.toNat details
  | e => .other 5 (toString e)

/-- Reads a file, if there is one to read. -/
def readFile (path : String) : IO (Except FileError (Array UInt8)) := do
  try
    let bytes ← IO.FS.readBinFile path
    return .ok bytes.data
  catch e => return .error (.refused (problemOf e) path)

/-- Reads the files under some paths. -/
def readFiles (paths : List String) : IO (List (String × Except FileError (Array UInt8))) :=
  paths.mapM fun path => return (path, ← readFile path)

/-- Reads lines up to the end of the input. -/
partial def readLines (input : IO.FS.Stream) (lines : Array String) : IO (Array String) := do
  let line ← input.getLine
  if line.isEmpty then return lines
  readLines input (lines.push (line.trimAsciiEnd.toString))

/-- Runs the emulator for some arguments. -/
def run (arguments : List String) : IO UInt32 := do
  let contents ← readFiles (arguments.take 2 ++ (arguments.take 1).map tidyPath)
  let files : FileReader := fun path =>
    match contents.lookup path with
    | some content => content
    | none => .error (.refused .notFound path)
  let lines ← if arguments.isEmpty then pure #[] else readLines (← IO.getStdin) #[]
  let entropy ← IO.monoNanosNow
  let frames := lines.toList.map Event.ofLine
  let session := CommandLine.run .desktop files entropy arguments frames
  IO.print session.output
  session.transcript.forM IO.println
  let (code, escaped) := session.status
  IO.eprint (session.reports ++ escaped)
  return UInt32.ofNat code

end Chip8.Main

/-- Runs the emulator for the arguments of the command line. -/
def main (arguments : List String) : IO UInt32 := Chip8.Main.run arguments

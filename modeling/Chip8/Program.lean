import Chip8.Error.Kind
import Chip8.Files
import Chip8.Memory
/-!
# Chip8.Program

Program files: raw bytes, without a header, that have to fit between `programStart` and the end of
memory.

The size is looked at when a file is read, and again when bytes are copied into memory; the two
failures are worded differently, because only the first knows the path.
-/

namespace Chip8

inductive LoadFailure
  | unreadable (path : String) (problem : FileError)
  | fileTooLarge (path : String) (size : Nat)
  | tooLarge (size : Nat)
  | nulInPath
  deriving Repr, DecidableEq

def LoadFailure.message : LoadFailure → String
  | unreadable path problem => "Failed to load ROM " ++ path ++ ": " ++ problem.message
  | fileTooLarge path size =>
    "ROM " ++ path ++ " is " ++ toString size ++ " bytes, limit is " ++ toString maxProgramSize
  | tooLarge size => "ROM is " ++ toString size ++ " bytes, limit is " ++ toString maxProgramSize
  | nulInPath => FileError.nulInPath.message

/-- The kind of a failure. A path that names nothing at all is not a failure to load. -/
def LoadFailure.kind? : LoadFailure → Option ErrorKind
  | nulInPath => none
  | _ => some .loadFailure

/-- A program file that was read. -/
structure ProgramFile where
  /-- The last name in its path. -/
  name : String
  bytes : Array UInt8
  deriving Repr, DecidableEq

/-- Reads a program file. The path is tidied first, and messages show the tidied path. -/
def ProgramFile.read (files : FileReader) (path : String) : Except LoadFailure ProgramFile :=
  let path := tidyPath path
  match files path with
  | .error .nulInPath => .error .nulInPath
  | .error problem => .error (.unreadable path problem)
  | .ok bytes =>
    if maxProgramSize < bytes.size then .error (.fileTooLarge path bytes.size)
    else .ok ⟨lastName path, bytes⟩

end Chip8

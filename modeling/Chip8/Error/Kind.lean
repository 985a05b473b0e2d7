/-!
# Chip8.Error.Kind

The kinds of error that the emulator knows how to report.

Every kind but the first is a special case of the first (`ErrorKind.lineage`). A failure that has a
kind is one that is expected to happen: a program that is missing or wrong, settings that are wrong.
Failures without a kind come from a state or a value that nothing should have let in.
-/

namespace Chip8

inductive ErrorKind
  | general
  | loadFailure
  | unknownOpcode
  /-- A call with a full stack or a return with an empty one. -/
  | stackFault
  /-- An access outside memory. -/
  | memoryFault
  | badSettings
  deriving Repr, DecidableEq

namespace ErrorKind

def name : ErrorKind → String
  | general => "Chip8Error"
  | loadFailure => "LoadFailure"
  | unknownOpcode => "UnrecognizedOpcode"
  | stackFault => "StackFault"
  | memoryFault => "MemoryFault"
  | badSettings => "ConfigError"

def all : List ErrorKind :=
  [general, loadFailure, unknownOpcode, stackFault, memoryFault, badSettings]

def ofName? (name : String) : Option ErrorKind := all.find? fun kind => kind.name = name

/-- A kind and the kinds it is a special case of, the most special first. -/
def lineage : ErrorKind → List ErrorKind
  | general => [general]
  | kind => [kind, general]

end ErrorKind

end Chip8

import Chip8.Fault
import Chip8.Json.Value
/-!
# Chip8.Error.Basic

Errors as a reader of messages sees them: a kind, a text and sometimes a few numbers.

Four of the kinds take any values and say nothing but them. An unknown opcode and an access outside
memory have a wording of their own, and take as many values as it has numbers. A truth value counts
as a number there, and stays a truth value where the error is asked for its numbers
(`EmulatorError.attributes`).
-/

namespace Chip8

open Json (Value)

/-- Why values make no error of a kind. -/
inductive Misfit
  /-- The kind takes more numbers, which have these names. -/
  | missing (kind : ErrorKind) (names : List String)
  /-- The kind takes fewer numbers than were given. -/
  | surplus (kind : ErrorKind) (wanted given : Nat)
  /-- A value of this type has digits or characters, but none that can stand for a number. -/
  | noDigits (type : String)
  /-- A value of this type is never part of a wording. -/
  | noWording (type : String)
  deriving Repr, DecidableEq

def Misfit.message : Misfit → String
  | missing kind names =>
    let wanted := if names.length = 1 then "argument" else "arguments"
    kind.name ++ ".__init__() missing " ++ toString names.length ++ " required positional " ++
      wanted ++ ": " ++ " and ".intercalate (names.map Quoted.quote)
  | surplus kind wanted given =>
    kind.name ++ ".__init__() takes " ++ toString (wanted + 1) ++ " positional arguments but " ++
      toString (given + 1) ++ " were given"
  | noDigits type => "Unknown format code 'X' for object of type '" ++ type ++ "'"
  | noWording type => "unsupported format string passed to " ++ type ++ ".__format__"

/-- A number in an error, as it was given. -/
inductive Operand
  | int (n : Int)
  /-- A truth value, for 0 or 1. -/
  | flag (b : Bool)
  deriving Repr, DecidableEq

namespace Operand

def toInt : Operand → Int
  | int n => n
  | flag b => if b then 1 else 0

/-- The value that it was given as. -/
def toValue : Operand → Value
  | int n => .int n
  | flag b => .bool b

/-- The number that a value is. -/
def ofValue : Value → Except Misfit Operand
  | .int n => .ok (int n)
  | .bool b => .ok (flag b)
  | .float f => .error (.noDigits (Value.float f).kind)
  | .string s => .error (.noDigits (Value.string s).kind)
  | v => .error (.noWording v.kind)

end Operand

inductive EmulatorError
  /-- An error of one of the kinds without a wording of their own. -/
  | plain (kind : ErrorKind) (values : List Value)
  /-- An opcode that is no instruction, and where it was met. -/
  | unknownOpcode (opcode address : Operand)
  | memoryFault (address : Operand)

namespace EmulatorError

/-- The misfit of values that are not as many as the names of a kind's numbers. -/
def miscounted (kind : ErrorKind) (names : List String) (values : List Value) : Misfit :=
  if values.length < names.length then .missing kind (names.drop values.length)
  else .surplus kind names.length values.length

/-- The error of a kind with some values. -/
def ofValues : ErrorKind → List Value → Except Misfit EmulatorError
  | .unknownOpcode, [opcode, address] => do
    let opcode ← Operand.ofValue opcode
    let address ← Operand.ofValue address
    return unknownOpcode opcode address
  | .unknownOpcode, values => .error (miscounted .unknownOpcode ["opcode", "address"] values)
  | .memoryFault, [address] => do
    let address ← Operand.ofValue address
    return memoryFault address
  | .memoryFault, values => .error (miscounted .memoryFault ["address"] values)
  | kind, values => .ok (plain kind values)

def kind : EmulatorError → ErrorKind
  | plain kind _ => kind
  | unknownOpcode _ _ => .unknownOpcode
  | memoryFault _ => .memoryFault

/-- What an error says. Of several values it says all, in parentheses; a single text it says as it
is. -/
def text : EmulatorError → String
  | plain _ [] => ""
  | plain _ [.string s] => s
  | plain _ [v] => v.literal
  | plain _ values => "(" ++ ", ".intercalate (Value.literals values) ++ ")"
  | unknownOpcode opcode address => unknownOpcodeText opcode.toInt address.toInt
  | memoryFault address => outOfMemoryText address.toInt

/-- The numbers of an error, by name. -/
def attributes : EmulatorError → List (String × Value)
  | plain _ _ => []
  | unknownOpcode opcode address => [("opcode", opcode.toValue), ("address", address.toValue)]
  | memoryFault address => [("address", address.toValue)]

end EmulatorError

end Chip8

import Chip8.Number.Shortest
import Chip8.Text.Quoted
/-!
# Chip8.Json.Value

JSON values, and how they are spoken of.

Whole numbers and floating-point numbers are different values: a number is whole when it is
written without a point and without an exponent, and then it has any size. An object keeps its
members in the order of their first appearance, each key once.

`Value.literal` is the form a value takes inside a message, and `Value.kind` the word for its type
there. Truth values count as the whole numbers zero and one wherever a number is asked for
(`Value.number?`).
-/

namespace Chip8.Json

inductive Value
  | null
  | bool (b : Bool)
  /-- A number written without a point and without an exponent. -/
  | int (n : Int)
  /-- Any other number. -/
  | float (f : Float)
  | string (s : String)
  | array (items : List Value)
  | object (members : List (String × Value))

instance : Inhabited Value := ⟨.null⟩

abbrev Members := List (String × Value)

/-- Adds a member, or replaces its value where the key stands already. -/
def Members.insert (key : String) (value : Value) : Members → Members
  | [] => [(key, value)]
  | (k, v) :: rest =>
    if k = key then (k, value) :: rest else (k, v) :: Members.insert key value rest

/-- The value under a key. -/
def Members.find? (members : Members) (key : String) : Option Value := members.lookup key

def Members.keys (members : Members) : List String := members.map (·.1)

/-- A whole or a floating-point number. -/
inductive Number
  | int (n : Int)
  | float (f : Float)

namespace Value

/-- The word for the type of a value. -/
def kind : Value → String
  | null => "NoneType"
  | bool _ => "bool"
  | int _ => "int"
  | float _ => "float"
  | string _ => "str"
  | array _ => "list"
  | object _ => "dict"

/-- The number that a value is, truth values included. -/
def number? : Value → Option Number
  | bool b => some (.int (if b then 1 else 0))
  | int n => some (.int n)
  | float f => some (.float f)
  | _ => none

/-- The whole number that a value is, truth values included. -/
def int? : Value → Option Int
  | bool b => some (if b then 1 else 0)
  | int n => some n
  | _ => none

/-- Whether a value counts as true: all but null, false, zero and what is empty. -/
def isTruthy : Value → Bool
  | null => false
  | bool b => b
  | int n => n != 0
  | float f => f != 0.0
  | string s => s != ""
  | array items => !items.isEmpty
  | object members => !members.isEmpty

mutual

/-- A value as it is shown inside a message. -/
def literal : Value → String
  | null => "None"
  | bool true => "True"
  | bool false => "False"
  | int n => toString n
  | float f => Shortest.messageLayout.text f
  | string s => Quoted.quote s
  | array items => "[" ++ ", ".intercalate (literals items) ++ "]"
  | object members => "\x7b" ++ ", ".intercalate (memberLiterals members) ++ "\x7d"

/-- Several values, each as it is shown inside a message. -/
def literals : List Value → List String
  | [] => []
  | v :: vs => v.literal :: literals vs

/-- Members, each as it is shown inside a message. -/
def memberLiterals : List (String × Value) → List String
  | [] => []
  | (k, v) :: rest => (Quoted.quote k ++ ": " ++ v.literal) :: memberLiterals rest

end

end Value

def Number.toValue : Number → Value
  | int n => .int n
  | float f => .float f

end Chip8.Json

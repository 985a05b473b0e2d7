import Chip8.Json.Value
/-!
# Chip8.Json.Arithmetic

Comparing, multiplying and dividing JSON values.

A setting may hold any JSON value, and what it is good for shows only when it is compared, added or
counted with. These operations say what happens then. Whole numbers are exact. A whole number and a
floating-point number are compared by value, and multiplied or divided after the whole number was
rounded to a floating-point number. Values that are no numbers take no part, and a `Misuse` says
which operation met which types.
-/

namespace Chip8.Json

/-- An operation on values whose types, or sizes, do not allow it. -/
inductive Misuse
  /-- A comparison, with the types on its two sides. -/
  | notComparable (operator left right : String)
  /-- An arithmetic operation, with the types on its two sides. -/
  | notArithmetic (operator left right : String)
  /-- A value of this type where a count of repetitions is needed. -/
  | notACount (kind : String)
  /-- A whole number that no floating-point number comes near to. -/
  | tooLargeForFloat
  /-- A division of whole numbers by zero. -/
  | wholeByZero
  /-- A division by zero in which a floating-point number takes part. -/
  | floatByZero
  deriving Repr, DecidableEq

def Misuse.message : Misuse → String
  | notComparable operator left right =>
    "'" ++ operator ++ "' not supported between instances of '" ++ left ++ "' and '" ++ right ++ "'"
  | notArithmetic operator left right =>
    "unsupported operand type(s) for " ++ operator ++ ": '" ++ left ++ "' and '" ++ right ++ "'"
  | notACount kind => "'" ++ kind ++ "' object cannot be interpreted as an integer"
  | tooLargeForFloat => "int too large to convert to float"
  | wholeByZero => "integer division or modulo by zero"
  | floatByZero => "float floor division by zero"

namespace Number

/-- The floating-point number nearest to a number. -/
def toFloat : Number → Except Misuse Float
  | .float f => .ok f
  | .int n =>
    match Binary64.ofInt? n with
    | some f => .ok f
    | none => .error .tooLargeForFloat

/-- The product of two numbers: a whole number if both are whole. -/
def mul : Number → Number → Except Misuse Number
  | .int a, .int b => .ok (.int (a * b))
  | a, b => do
    let x ← a.toFloat
    let y ← b.toFloat
    return .float (x * y)

/-- The number and `k` more. -/
def plus (k : Nat) : Number → Number
  | .int n => .int (n + k)
  | .float f => .float (f + Float.ofNat k)

/-- The quotient of two positive floating-point numbers, rounded down. It is found from the
remainder, which is exact, and is a NaN unless the dividend is finite. -/
def floorQuotient (x y : Float) : Float :=
  if !Binary64.isFinite x then x - x
  else
    let r := if Binary64.isFinite y then Binary64.remainder x y else x
    let q := (x - r) / y
    if q == 0.0 then 0.0
    else
      let down := Binary64.trunc q
      if q - down > 0.5 then down + 1.0 else down

def isZero : Number → Bool
  | .int n => n == 0
  | .float f => f == 0.0

/-- The quotient of two numbers that are not negative, rounded down: a whole number if both are
whole. A number is zero if and only if the floating-point number nearest to it is. -/
def floorDiv : Number → Number → Except Misuse Number
  | .int a, .int b => if b = 0 then .error .wholeByZero else .ok (.int (a.fdiv b))
  | a, b => do
    let x ← a.toFloat
    let y ← b.toFloat
    if b.isZero then .error .floatByZero else return .float (floorQuotient x y)

/-- The number, or one if it is not greater than one. -/
def atLeastOne : Number → Number
  | .int n => if 1 < n then .int n else .int 1
  | .float f => if f > 1.0 then .float f else .int 1

/-- Whether a number is less than one. A NaN is not. -/
def isBelowOne : Number → Bool
  | .int n => n < 1
  | .float f => f < 1.0

/-- Whether a number lies between zero and one, both included. A NaN does not. -/
def isUnit : Number → Bool
  | .int n => 0 ≤ n && n ≤ 1
  | .float f => 0.0 ≤ f && f ≤ 1.0

/-- The number as a count of repetitions. Only whole numbers are counts; a negative one counts as
none. -/
def toCount : Number → Except Misuse Nat
  | .int n => .ok n.toNat
  | .float _ => .error (.notACount "float")

def isPositive : Number → Bool
  | .int n => 0 < n
  | .float f => f > 0.0

def pred : Number → Number
  | .int n => .int (n - 1)
  | .float f => .float (f - 1.0)

end Number

namespace Value

/-- Whether a value is less than one, if it can be compared with one. -/
def isBelowOne (v : Value) : Except Misuse Bool :=
  match v.number? with
  | some n => .ok n.isBelowOne
  | none => .error (.notComparable "<" v.kind "int")

/-- Whether a value lies between zero and one, if it can be compared with them. -/
def isUnit (v : Value) : Except Misuse Bool :=
  match v.number? with
  | some n => .ok n.isUnit
  | none => .error (.notComparable "<=" "float" v.kind)

/-- The quotient of two values, rounded down. -/
def floorDiv (a b : Value) : Except Misuse Number :=
  match a.number?, b.number? with
  | some a, some b => a.floorDiv b
  | _, _ => .error (.notArithmetic "//" a.kind b.kind)

/-- One more than a value, as a number of repetitions. -/
def countPlusOne (v : Value) : Except Misuse Int :=
  match v.number? with
  | some (.int n) => .ok (1 + n)
  | some (.float _) => .error (.notACount "float")
  | none => .error (.notArithmetic "+" "int" v.kind)

end Value

end Chip8.Json

/-!
# Chip8.Number.Binary64

The format of 64-bit floating-point numbers, and rounding to it.

A finite number is a significand times a power of two (`significand`, `exponent`). The pattern of
bits that encodes a magnitude grows with the magnitude, so rounding up to the next power of two is
a plain carry, and infinity is the pattern behind the largest number.

`nearestBits` rounds a ratio of naturals to the nearest number, a half to the even neighbour. All
its arithmetic is exact, so it is right for every length of numeral.
-/

namespace Chip8.Binary64

-- Powers are the core library's, whatever other powers are in scope.
attribute [local instance (high)] instPowNat

/-- What one more in the exponent adds to a pattern: two to the power 52. -/
def exponentUnit : Nat := 0x10000000000000

/-- What the sign adds to a pattern: two to the power 63. -/
def signUnit : Nat := 0x8000000000000000

/-- The pattern of positive infinity. -/
def infinityBits : Nat := 0x7FF * exponentUnit

/-- The pattern without its sign. -/
def magnitudeBits (f : Float) : Nat := f.toBits.toNat % signUnit

def isNegative (f : Float) : Bool := signUnit ≤ f.toBits.toNat

/-- Whether a number is neither infinite nor a NaN. -/
def isFinite (f : Float) : Bool := magnitudeBits f < infinityBits

/-- The significand of a magnitude, as an integer. -/
def significand (bits : Nat) : Nat :=
  if bits < exponentUnit then bits else bits % exponentUnit + exponentUnit

/-- The power of two that the significand of a magnitude is multiplied by. -/
def exponent (bits : Nat) : Int :=
  if bits < exponentUnit then -1074 else bits / exponentUnit - 1075

/-- A ratio rounded to the nearest natural number, a half to the even one. -/
def roundDiv (num den : Nat) : Nat :=
  let q := num / den
  let twice := 2 * (num % den)
  if twice < den ∨ (twice = den ∧ q % 2 = 0) then q else q + 1

/-- A ratio scaled by a power of two, as a ratio. -/
def scale (num den : Nat) (e : Int) : Nat × Nat :=
  match e with
  | .ofNat k => (num * 2 ^ k, den)
  | .negSucc k => (num, den * 2 ^ (k + 1))

/-- The pattern nearest to the ratio `num / den`, which is infinity if no finite number is near. -/
def nearestBits (num den : Nat) : Nat :=
  if num = 0 then 0
  else
    -- The unit for which the quotient has 53 or 54 bits, and then the one for which it has 53.
    let guess : Int := (num.log2 : Int) - den.log2 - 53
    let (n, d) := scale num den (-guess)
    let unit := max (-1074) (if n / d < 2 * exponentUnit then guess else guess + 1)
    let (n, d) := scale num den (-unit)
    min infinityBits ((unit + 1074).toNat * exponentUnit + roundDiv n d)

/-- The number with a sign and a magnitude. -/
def ofParts (negative : Bool) (magnitude : Nat) : Float :=
  Float.ofBits (UInt64.ofNat (if negative then signUnit + magnitude else magnitude))

/-- The number nearest to an integer; `none` if the integer is too large for every finite one. -/
def ofInt? (n : Int) : Option Float :=
  let magnitude := nearestBits n.natAbs 1
  if magnitude < infinityBits then some (ofParts (n < 0) magnitude) else none

/-- The number nearest to `digits` times a power of ten. Powers far outside the format's range are
settled by the number of digits alone. -/
def ofDecimal (negative : Bool) (digits : Nat) (power : Int) : Float :=
  let size : Int := (Nat.toDigits 10 digits).length + power
  ofParts negative <|
    if digits = 0 ∨ size < -400 then 0
    else if 400 < size then infinityBits
    else
      match power with
      | .ofNat k => nearestBits (digits * 10 ^ k) 1
      | .negSucc k => nearestBits digits (10 ^ (k + 1))

/-- A finite number without its fraction. -/
def truncate (f : Float) : Int :=
  let bits := magnitudeBits f
  let (num, den) := scale (significand bits) 1 (exponent bits)
  if isNegative f then -(num / den : Nat) else (num / den : Nat)

/-- A number without its fraction, as a floating-point number again. -/
def trunc (f : Float) : Float := if isFinite f then (ofInt? (truncate f)).getD f else f

/-- The remainder of dividing one positive finite number by another, which is again such a number or
zero. -/
def remainder (x y : Float) : Float :=
  let xBits := magnitudeBits x
  let yBits := magnitudeBits y
  let unit := min (exponent xBits) (exponent yBits)
  let n := significand xBits * 2 ^ (exponent xBits - unit).toNat
  let d := significand yBits * 2 ^ (exponent yBits - unit).toNat
  let (num, den) := scale (n % d) 1 unit
  ofParts false (nearestBits num den)

end Chip8.Binary64

import Chip8.Number.Binary64
/-!
# Chip8.Number.Shortest

The decimal text of a floating-point number: the fewest digits that read back.

Around each finite number lies the interval of reals that round to it, with its ends included
exactly when the significand is even. `shortest` looks for the coarsest power of ten that has a
multiple in that interval. Only the two multiples next to the number need to be tried. Of two that
are inside the nearer one is taken, and of two that are equally near the even one.

`Layout` says how digits become text: positional notation while the point falls among or near the
digits, and an exponent otherwise.
-/

namespace Chip8.Shortest

-- Powers are the core library's, whatever other powers are in scope.
attribute [local instance (high)] instPowNat

/-- Digits and the power of ten that they are multiplied by. -/
structure Decimal where
  digits : Nat
  power : Int
  deriving Repr, DecidableEq

/-- The interval of a positive finite number, as numerators over one denominator. -/
structure Interval where
  low : Nat
  value : Nat
  high : Nat
  den : Nat
  /-- Whether the ends belong to the interval. -/
  closed : Bool

/-- The reals that round to the positive finite number with these bits. Below a power of two the
spacing is half of what it is above. -/
def interval (bits : Nat) : Interval :=
  let m := Binary64.significand bits
  let e := Binary64.exponent bits
  let below := if m = Binary64.exponentUnit ∧ -1074 < e then 4 * m - 1 else 4 * m - 2
  let (unit, den) := Binary64.scale 1 1 (e - 2)
  ⟨below * unit, 4 * m * unit, (4 * m + 2) * unit, den, m % 2 = 0⟩

/-- Whether `n / d` lies in the interval. -/
def Interval.contains (i : Interval) (n d : Nat) : Bool :=
  if i.closed then i.low * d ≤ n * i.den && n * i.den ≤ i.high * d
  else i.low * d < n * i.den && n * i.den < i.high * d

/-- The multiple of a power of ten nearest to the number, if it lies in its interval. -/
def Interval.multiple? (i : Interval) (power : Int) : Option Nat :=
  -- A multiple is `k * un / ud`, with the power of ten written as a ratio.
  let (un, ud) := match power with
    | .ofNat k => (10 ^ k, 1)
    | .negSucc k => (1, 10 ^ (k + 1))
  let k := i.value * ud / (i.den * un)
  let below := i.contains (k * un) ud
  let above := i.contains ((k + 1) * un) ud
  let twice := 2 * (i.value * ud) - 2 * k * (i.den * un)
  let nearer := twice < i.den * un ∨ (twice = i.den * un ∧ k % 2 = 0)
  if k ≠ 0 ∧ below ∧ (!above ∨ nearer) then some k
  else if above then some (k + 1) else none

/-- The first of the powers `top`, `top - 1`, … that has a multiple in the interval. -/
def Interval.search (i : Interval) (top : Int) : (count : Nat) → Decimal
  | 0 => ⟨0, 0⟩
  | count + 1 =>
    match i.multiple? top with
    | some k => ⟨k, top⟩
    | none => i.search (top - 1) count

/-- The fewest digits that read back as the positive finite number with these bits. No number needs
a power above 308, and every one is a multiple of ten to the power -1074. -/
def shortest (bits : Nat) : Decimal := (interval bits).search 308 1383

/-- How digits become text. -/
structure Layout where
  /-- Positional notation needs the point to stand behind more places than this; a negative count is
  one of zeros between the point and the first digit. -/
  leastPoint : Int
  /-- Positional notation needs the point to stand behind no more places than this. -/
  greatestPoint : Int
  /-- The least number of digits of an exponent. -/
  exponentWidth : Nat

/-- The layout of numbers in messages: positional from 0.0001 up to sixteen places before the point,
and an exponent of at least two digits beyond. -/
def messageLayout : Layout := ⟨-4, 16, 2⟩

/-- The text of digits whose point stands behind `point` of them; a whole number keeps one zero
behind its point. -/
def Layout.positive (l : Layout) (digits : List Char) (point : Int) : List Char :=
  if l.leastPoint < point ∧ point ≤ l.greatestPoint then
    if point ≤ 0 then '0' :: '.' :: List.replicate (-point).toNat '0' ++ digits
    else
      let whole := digits.take point.toNat ++ List.replicate (point.toNat - digits.length) '0'
      let fraction := digits.drop point.toNat
      whole ++ '.' :: (if fraction.isEmpty then ['0'] else fraction)
  else
    let exponent := point - 1
    let places := Nat.toDigits 10 exponent.natAbs
    let fraction := digits.drop 1
    digits.take 1 ++ (if fraction.isEmpty then [] else '.' :: fraction) ++
      'e' :: (if exponent < 0 then '-' else '+') ::
        List.replicate (l.exponentWidth - places.length) '0' ++ places

/-- The text of any floating-point number. -/
def Layout.text (l : Layout) (f : Float) : String :=
  let bits := Binary64.magnitudeBits f
  if Binary64.infinityBits < bits then "nan"
  else
    let magnitude :=
      if bits = Binary64.infinityBits then "inf"
      else if bits = 0 then "0.0"
      else
        let d := shortest bits
        let digits := Nat.toDigits 10 d.digits
        String.ofList (l.positive digits (digits.length + d.power))
    if Binary64.isNegative f then "-" ++ magnitude else magnitude

end Chip8.Shortest

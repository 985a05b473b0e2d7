import Chip8.Indexed
import Chip8.Random.Source
/-!
# Chip8.Random.Twister

The Mersenne Twister with a period of 2^19937 - 1 and 32-bit output, seeded by an integer.

A seed is spread over the 624 words of state by `ofKey`: the words of its absolute value, least
significant first, are stirred into a fixed starting state. A random byte takes the top nine bits of
an output and tries again while they say 256 or more, so that each byte is equally likely.
-/

namespace Chip8

structure Twister where
  /-- The words of the current block. -/
  words : Vector UInt32 624
  /-- How many words of the block have been used. -/
  used : Nat

namespace Twister

/-- A position in the block, counted around its end. -/
private def slot (k : Nat) : Fin 624 := Fin.ofNat 624 k

/-- A word with its two top bits mixed into the bottom. -/
private def folded (w : UInt32) : UInt32 := w ^^^ (w >>> 30)

/-- The starting state for a one-word seed. -/
def ofWord (seed : UInt32) : Vector UInt32 624 :=
  (List.range 623).foldl
    (fun words k =>
      words.set (slot (k + 1)) (1812433253 * folded words[slot k] + UInt32.ofNat (k + 1)))
    (Vector.replicate 624 0 |>.set 0 seed)

/-- The state while a key is stirred in: the words and the position of the next one to change. -/
private structure Stirring where
  words : Vector UInt32 624
  i : Nat

/-- Replaces the word at the current position and moves on. Position zero holds no word of its own:
when the end is reached it takes the last word, and the round goes on at position one. -/
private def Stirring.put (s : Stirring) (w : UInt32) : Stirring :=
  let words := s.words.set (slot s.i) w
  if s.i + 1 < 624 then ⟨words, s.i + 1⟩ else ⟨words.set 0 words[623], 1⟩

/-- The generator for a key of one or more words. -/
def ofKey (key : Array UInt32) : Twister :=
  let size := key.size
  let first := (List.range (max 624 size)).foldl
    (fun (s : Stirring) k =>
      let j := k % size
      let w := (s.words[slot s.i] ^^^ (folded s.words[slot (s.i - 1)] * 1664525))
      s.put (w + key.getD j 0 + UInt32.ofNat j))
    ⟨ofWord 19650218, 1⟩
  let second := (List.range 623).foldl
    (fun (s : Stirring) _ =>
      let w := (s.words[slot s.i] ^^^ (folded s.words[slot (s.i - 1)] * 1566083941))
      s.put (w - UInt32.ofNat s.i))
    first
  ⟨second.words.set 0 0x80000000, 624⟩

/-- The 32-bit words of a number, least significant first; none for zero. -/
def wordsOf (n : Nat) : List UInt32 :=
  if n = 0 then [] else UInt32.ofNat n :: wordsOf (n / 0x100000000)
decreasing_by exact Nat.div_lt_self (by omega) (by decide)

/-- The generator for a seed of any sign; the sign does not matter. -/
def ofSeed (seed : Int) : Twister :=
  match wordsOf seed.natAbs with
  | [] => ofKey #[0]
  | words => ofKey words.toArray

/-- The next block of words. Each word is made from itself, its successor and the word 397 places
on, so words late in the block see new values of early ones. -/
def nextBlock (words : Vector UInt32 624) : Vector UInt32 624 :=
  (List.range 624).foldl
    (fun words k =>
      let y := (words[slot k] &&& 0x80000000) ||| (words[slot (k + 1)] &&& 0x7fffffff)
      let twist : UInt32 := if y &&& 1 = 0 then 0 else 0x9908b0df
      words.set (slot k) (words[slot (k + 397)] ^^^ (y >>> 1) ^^^ twist))
    words

/-- Spreads the bits of a word of state over an output. -/
def temper (w : UInt32) : UInt32 :=
  let w := w ^^^ (w >>> 11)
  let w := w ^^^ ((w <<< 7) &&& 0x9d2c5680)
  let w := w ^^^ ((w <<< 15) &&& 0xefc60000)
  w ^^^ (w >>> 18)

/-- The next 32-bit output. -/
def next (t : Twister) : UInt32 × Twister :=
  let t := if t.used < 624 then t else ⟨nextBlock t.words, 0⟩
  (temper t.words[slot t.used], { t with used := t.used + 1 })

/-- The top nine bits of the next output that are a byte. Outputs are tried at most `tries` times;
every second one is good, so a bound in the hundreds is never met. -/
def nextByte (t : Twister) : (tries : Nat) → Nat × Twister
  | 0 => (0, t)
  | tries + 1 =>
    let (w, t) := t.next
    let byte := (w >>> 23).toNat
    if byte < 256 then (byte, t) else nextByte t tries

def draw (t : Twister) : Int × Twister :=
  let (byte, t) := t.nextByte 1000
  (byte, t)

end Twister

instance : RandomSource Twister where
  draw := Twister.draw

/-- Either kind of source. -/
inductive NumberSource
  /-- A fixed list of numbers. -/
  | listed (numbers : CyclicNumbers)
  /-- A seeded generator. -/
  | seeded (twister : Twister)

instance : RandomSource NumberSource where
  draw
    | .listed numbers => let (n, numbers) := numbers.draw; (n, .listed numbers)
    | .seeded twister => let (n, twister) := twister.draw; (n, .seeded twister)

end Chip8

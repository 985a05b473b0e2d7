import Chip8.Bitwise
import Chip8.Indexed
/-!
# Chip8.Keypad

The sixteen-key hexadecimal keypad.

The input side names keys by any integer. Pressing or releasing a key that is not on the pad does
nothing; asking whether a key is held looks at the low four bits only, so that question always has
an answer.
-/

namespace Chip8

/-- Which of the sixteen keys are held down. -/
@[ext] structure Keypad where
  /-- Whether each key is held, by key. -/
  held : Vector Bool 16

namespace Keypad

/-- The keypad with no key held. -/
def released : Keypad := ⟨Vector.replicate 16 false⟩

/-- The key on the pad with this number. -/
def key? (key : Int) : Option (Fin 16) :=
  if h : 0 ≤ key ∧ key < 16 then some ⟨key.toNat, by omega⟩ else none

/-- Marks a key as held or not; a key that is not on the pad changes nothing. -/
def set (pad : Keypad) (key : Int) (down : Bool) : Keypad :=
  match key? key with
  | some k => ⟨setAt pad.held k down⟩
  | none => pad

def press (pad : Keypad) (key : Int) : Keypad := pad.set key true

def release (pad : Keypad) (key : Int) : Keypad := pad.set key false

/-- The key that the low four bits of a number name. -/
def lowKey (key : Int) : Fin 16 := fourBits 0 key

/-- Whether the key that the low four bits name is held. -/
def isPressed (pad : Keypad) (key : Int) : Bool := pad.held[lowKey key]

theorem key?_eq_some {key : Int} {k : Fin 16} : key? key = some k ↔ key = (k : Nat) := by
  unfold key?
  split
  · constructor
    · intro heq
      cases heq
      simp only
      omega
    · intro heq
      subst heq
      simp
  · rename_i h
    have := k.isLt
    constructor
    · intro heq; cases heq
    · intro heq
      exact absurd ⟨by omega, by omega⟩ h

/-- Setting a key of the pad changes that key alone. -/
theorem held_set (pad : Keypad) (key : Int) (down : Bool) (k : Fin 16) :
    (pad.set key down).held[k] = if key = (k : Nat) then down else pad.held[k] := by
  unfold set
  cases h : key? key with
  | none =>
    have hne : key ≠ (k : Nat) := by
      intro heq
      rw [key?_eq_some.mpr heq] at h
      cases h
    simp [hne]
  | some j =>
    have hj := key?_eq_some.mp h
    simp only [getElem_setAt]
    by_cases heq : j = k
    · simp [heq, hj]
    · have : ¬ key = (k : Nat) := by omega
      simp [heq, this]

theorem set_of_key?_eq_none {pad : Keypad} {key : Int} {down : Bool} (h : key? key = none) :
    pad.set key down = pad := by
  simp [set, h]

end Keypad

end Chip8

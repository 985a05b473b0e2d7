import Chip8.Glow.Renderer

/-!
# Chip8.Proofs.Brightness

Brightness and colours.

A pixel is fully bright or not at all, and a colour at full brightness is the colour itself
(`shade_bright`): the product with one is exact for all 256 values of a channel. What happens to a
brightness in between is a matter of rounding, of which nothing is said here. A brightness that
shows nothing is a zero or no number at all (`Unlit`), and stays so whatever it is multiplied with.
-/

namespace Chip8

/-! ### Brightness without light -/

section

open Float.Model (UnpackedFloat)

theorem Float32.lt_iff (x y : Float32) :
    x < y ↔ x.toModel.unpack.compare y.toModel.unpack = some .lt := by
  show decide (x.toModel < y.toModel) = true ↔ _
  rw [decide_eq_true_iff]
  exact beq_iff_eq

/-- A brightness that shows nothing: a zero, or no number at all. -/
def Unlit (b : Float32) : Prop :=
  (∃ s, b.toModel.unpack = .zero s) ∨ b.toModel.unpack = .notANumber

theorem unlit_zero (s : UnpackedFloat.Sign) : Unlit ⟨.pack (.zero s)⟩ := by
  refine .inl ⟨s, ?_⟩
  cases s <;> rfl

theorem unlit_notANumber : Unlit ⟨.pack .notANumber⟩ := .inr rfl

namespace Unlit

variable {b : Float32}

/-- A product with anything, even with what is infinite or no number. -/
theorem mul (h : Unlit b) (c : Float32) : Unlit (b * c) := by
  show Unlit ⟨.pack (.mul .binary32 b.toModel.unpack c.toModel.unpack)⟩
  rcases h with ⟨s, hs⟩ | hnan
  · rw [hs]
    cases c.toModel.unpack with
    | infinity t => exact unlit_notANumber
    | notANumber => exact unlit_notANumber
    | zero t => exact unlit_zero _
    | finite t m e hm => exact unlit_zero _
  · rw [hnan]
    cases c.toModel.unpack <;> exact unlit_notANumber

theorem not_one_lt (h : Unlit b) : ¬1.0 < b := by
  rw [Float32.lt_iff]
  rcases h with ⟨s, hs⟩ | hnan
  · rw [hs]
    cases s <;> decide
  · rw [hnan]
    decide

theorem clamp (h : Unlit b) : Unlit (Renderer.clamp b) := by
  unfold Renderer.clamp
  split
  · exact unlit_zero .positive
  · rw [if_neg h.not_one_lt]
    exact h

theorem toUInt8_eq_zero (h : Unlit b) : b.toUInt8 = 0 := by
  show b.toModel.unpack.toUInt8 = 0
  rcases h with ⟨s, hs⟩ | hnan
  · rw [hs]
    cases s <;> rfl
  · rw [hnan]
    rfl

theorem shade_eq_black (h : Unlit b) (c : Rgb) : Renderer.shade b c = .black := by
  unfold Renderer.shade Renderer.dim
  rw [(h.mul _).toUInt8_eq_zero, (h.mul _).toUInt8_eq_zero, (h.mul _).toUInt8_eq_zero]
  rfl

end Unlit

end

/-! ### The brightness of pixels -/

namespace Renderer

variable {width height : Nat}

/-- Full brightness keeps every value of a channel. -/
theorem dim_one_ofNat : ∀ n : Fin 256, dim 1.0 (UInt8.ofNat n.val) = UInt8.ofNat n.val := by
  decide +kernel

theorem dim_one (channel : UInt8) : dim 1.0 channel = channel := by
  have h := dim_one_ofNat ⟨channel.toNat, channel.toNat_lt⟩
  rwa [UInt8.ofNat_toNat] at h

/-- **A pixel has its colour or none.** -/
theorem shade_bright (lit : Bool) (c : Rgb) : shade (bright lit) c = if lit then c else .black := by
  cases lit with
  | true =>
      show shade 1.0 c = c
      rw [shade, dim_one, dim_one, dim_one]
  | false => exact (unlit_zero .positive).shade_eq_black c

/-- A copy of a pixel is as bright as the pixel. -/
theorem bright_mul_one (lit : Bool) : bright lit * 1.0 = bright lit := by
  cases lit <;> decide +kernel

/-- A column of the table is a column of the screen. -/
theorem getElem_brightness (rows : Vector (Vector Bool width) height) (x : Fin width)
    (y : Fin height) : (brightness ⟨width, height, rows⟩)[x][y] = bright rows[y][x] := by
  rw [brightness, Grid.getElem_each, Grid.getElem_transpose]

end Renderer

end Chip8

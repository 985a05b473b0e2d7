import Chip8.Proofs.Brightness
import Chip8.Proofs.Pictures

/-!
# Chip8.Proofs.Reach

How far the light of a pixel reaches in the glow.

A pass of the blur takes the cells next to a cell, around the end of a line and in both directions.
So after some passes a cell depends on the cells within as many steps (`Grid.AgreeNear.blurTimes`),
and that is all that has to be known about the mean: how it rounds makes no difference.

A screen that is dark within reach of a point is for that point a blank screen. The glow of a blank
screen is black, because zeros stay zeros in the blur, and a zero times any strength and any channel
is a zero or no number at all (`Unlit`).
-/

namespace Chip8

open Json (Value)

/-! ### Cells near to a cell -/

namespace Grid

variable {α : Type} {rows cols n : Nat}

/-- How many steps apart two positions of a cyclic line are, the shorter way round. -/
def cyclicDistance (i j : Fin n) : Nat := min (i - j).val (j - i).val

theorem val_sub (i j : Fin n) :
    (i - j).val = if j ≤ i then i.val - j.val else n + i.val - j.val := by
  rw [Fin.val_sub]
  split
  · rename_i hle
    rw [show n - j.val + i.val = i.val - j.val + n by omega, Nat.add_mod_right,
      Nat.mod_eq_of_lt (by omega)]
  · rename_i hle
    rw [Nat.mod_eq_of_lt (by omega)]
    omega

theorem val_before (i : Fin n) : (before i).val = if i.val = 0 then n - 1 else i.val - 1 := by
  unfold before
  dsimp only
  split
  · rw [Nat.mod_eq_of_lt (by omega)]
    omega
  · rw [show i.val + (n - 1) = i.val - 1 + n by omega, Nat.add_mod_right,
      Nat.mod_eq_of_lt (by omega)]

theorem val_behind (i : Fin n) : (behind i).val = if i.val + 1 = n then 0 else i.val + 1 := by
  unfold behind
  dsimp only
  split
  · rename_i hlast
    rw [hlast, Nat.mod_self]
  · exact Nat.mod_eq_of_lt (by omega)

/-- The shorter of the way straight on and the way around the ends. -/
theorem cyclicDistance_eq (i j : Fin n) :
    cyclicDistance i j = min (i - j + (j - i) : Nat) (n - (i - j + (j - i))) := by
  simp only [cyclicDistance, val_sub, Fin.le_def]
  split <;> split <;> omega

theorem cyclicDistance_self (i : Fin n) : cyclicDistance i i = 0 := by
  rw [cyclicDistance_eq]
  omega

theorem cyclicDistance_before (i j : Fin n) :
    cyclicDistance i (before j) ≤ cyclicDistance i j + 1 := by
  rw [cyclicDistance_eq, cyclicDistance_eq, val_before]
  split <;> omega

theorem cyclicDistance_behind (i j : Fin n) :
    cyclicDistance i (behind j) ≤ cyclicDistance i j + 1 := by
  rw [cyclicDistance_eq, cyclicDistance_eq, val_behind]
  split <;> omega

/-- Two tables agree in the cells within two distances of one, down and across. -/
def AgreeNear (g h : Grid α rows cols) (r : Fin rows) (c : Fin cols) (down across : Nat) : Prop :=
  ∀ r' c', cyclicDistance r r' ≤ down → cyclicDistance c c' ≤ across → g[r'][c'] = h[r'][c']

variable [Mean α] {g h : Grid α rows cols} {r : Fin rows} {c : Fin cols} {down across : Nat}

theorem AgreeNear.blurRows (hnear : g.AgreeNear h r c down (across + 1)) :
    g.blurRows.AgreeNear h.blurRows r c down across := by
  intro r' c' hr hc
  have hbefore := cyclicDistance_before c c'
  have hbehind := cyclicDistance_behind c c'
  rw [getElem_blurRows, getElem_blurRows, hnear r' _ hr (by omega), hnear r' _ hr (by omega),
    hnear r' _ hr (by omega)]

theorem AgreeNear.blurColumns (hnear : g.AgreeNear h r c (down + 1) across) :
    g.blurColumns.AgreeNear h.blurColumns r c down across := by
  intro r' c' hr hc
  have hbefore := cyclicDistance_before r r'
  have hbehind := cyclicDistance_behind r r'
  rw [getElem_blurColumns, getElem_blurColumns, hnear _ c' (by omega) hc,
    hnear _ c' (by omega) hc, hnear _ c' (by omega) hc]

/-- **A blurred cell depends on the cells within as many steps as there were passes.** -/
theorem AgreeNear.blurTimes {n : Nat} (hnear : g.AgreeNear h r c n n) :
    (g.blurTimes n)[r][c] = (h.blurTimes n)[r][c] := by
  induction n generalizing g h with
  | zero =>
      exact hnear r c (Nat.le_of_eq (cyclicDistance_self r)) (Nat.le_of_eq (cyclicDistance_self c))
  | succ n ih => exact ih hnear.blurRows.blurColumns

/-- A table of equal cells stays as it is, if they are their own mean. -/
theorem blurTimes_of_even {a : α} (ha : Mean.mean a a a = a)
    (heven : ∀ (r : Fin rows) (c : Fin cols), g[r][c] = a) (n : Nat) (r : Fin rows)
    (c : Fin cols) : (g.blurTimes n)[r][c] = a := by
  induction n generalizing g with
  | zero => exact heven r c
  | succ n ih =>
      refine ih fun r' c' => ?_
      simp only [getElem_blurColumns, getElem_blurRows, heven, ha]

end Grid

/-! ### The glow -/

namespace Renderer

open Grid (cyclicDistance)

variable {c : Settings} {width height : Nat} {rows rows' : Vector (Vector Bool width) height}

/-- The pixel that a point of the enlarged screen belongs to, in one direction. -/
def enlargedFrom {size : Nat} (x : Fin (glowUpscale * size)) : Fin size :=
  ⟨x / glowUpscale, Nat.div_lt_of_lt_mul x.isLt⟩

/-- A pixel has a point within a distance of a point of the enlarged screen, both across and down,
and around the ends. -/
def Touches (reach : Nat) (x : Fin (glowUpscale * width)) (y : Fin (glowUpscale * height))
    (column : Fin width) (row : Fin height) : Prop :=
  ∃ x' y', enlargedFrom x' = column ∧ enlargedFrom y' = row ∧
    cyclicDistance x x' ≤ reach ∧ cyclicDistance y y' ≤ reach

/-- The enlarged screen repeats the brightness of each pixel. -/
theorem getElem_enlarged (rows : Vector (Vector Bool width) height) (x : Fin (glowUpscale * width))
    (y : Fin (glowUpscale * height)) :
    (enlarged ⟨width, height, rows⟩)[x][y] = bright rows[enlargedFrom y][enlargedFrom x] := by
  rw [enlarged, Grid.getElem_kron, Grid.getElem_filled, getElem_brightness, bright_mul_one]
  rfl

theorem colorAt_glowWith (r : Renderer) (rows : Vector (Vector Bool width) height) (passes : Int)
    (strength : Float32) (x : Fin (glowUpscale * width)) (y : Fin (glowUpscale * height)) :
    (r.glowWith ⟨width, height, rows⟩ passes strength).colorAt x y =
      shade (clamp ((Grid.boxBlur (enlarged ⟨width, height, rows⟩) passes)[x][y] * strength))
        r.foreground := by
  have hcell := Grid.getElem_each ((enlarged ⟨width, height, rows⟩).boxBlur passes)
    (fun b => clamp (b * strength)) x y
  exact congrArg (shade · r.foreground) hcell

/-- Two screens that agree in the pixels within reach of a point have the same glow there. -/
theorem colorAt_glowWith_congr (r : Renderer) {passes : Int} {x : Fin (glowUpscale * width)}
    {y : Fin (glowUpscale * height)}
    (h : ∀ column row, Touches passes.toNat x y column row → rows[row][column] = rows'[row][column])
    (strength : Float32) :
    (r.glowWith ⟨width, height, rows⟩ passes strength).colorAt x y =
      (r.glowWith ⟨width, height, rows'⟩ passes strength).colorAt x y := by
  have hnear : (enlarged ⟨width, height, rows⟩).AgreeNear (enlarged ⟨width, height, rows'⟩) x y
      passes.toNat passes.toNat := by
    intro x' y' hx hy
    rw [getElem_enlarged, getElem_enlarged, h _ _ ⟨x', y', rfl, rfl, hx, hy⟩]
  rw [colorAt_glowWith, colorAt_glowWith, Grid.boxBlur, Grid.boxBlur, hnear.blurTimes]

/-- A blank screen has no glow. -/
theorem colorAt_glowWith_blank (r : Renderer)
    (hblank : ∀ (column : Fin width) (row : Fin height), rows[row][column] = false)
    (passes : Int) (strength : Float32) (x : Fin (glowUpscale * width))
    (y : Fin (glowUpscale * height)) :
    (r.glowWith ⟨width, height, rows⟩ passes strength).colorAt x y = .black := by
  have hzero (x' : Fin (glowUpscale * width)) (y' : Fin (glowUpscale * height)) :
      (enlarged ⟨width, height, rows⟩)[x'][y'] = 0.0 := by
    rw [getElem_enlarged, hblank]
    rfl
  have hmean : Mean.mean (0.0 : Float32) 0.0 0.0 = 0.0 := rfl
  rw [colorAt_glowWith, Grid.boxBlur, Grid.blurTimes_of_even hmean hzero]
  exact ((unlit_zero .positive).mul strength).clamp.shade_eq_black r.foreground

/-- Where all pixels within reach of a point are dark, there is no glow. -/
theorem colorAt_glowWith_dark (r : Renderer) {passes : Int} {x : Fin (glowUpscale * width)}
    {y : Fin (glowUpscale * height)}
    (h : ∀ column row, Touches passes.toNat x y column row → rows[row][column] = false)
    (strength : Float32) :
    (r.glowWith ⟨width, height, rows⟩ passes strength).colorAt x y = .black := by
  let blank : Vector (Vector Bool width) height := .replicate height (.replicate width false)
  have hblank (column : Fin width) (row : Fin height) : blank[row][column] = false := by
    simp [blank]
  rw [colorAt_glowWith_congr r
      (fun column row ht => (h column row ht).trans (hblank column row).symm),
    colorAt_glowWith_blank r hblank]

/-- **The glow of a pixel is local.** With accepted settings whose scale and reach of the glow are
whole numbers, on every display and for every screen, the glow has the same colour in a point for
any two screens that agree in the pixels within reach of it, and is black where these are dark. The
reach is the number of passes, and none if that is negative. -/
theorem glow_is_local (haccepted : c.Accepted) {scale radius : Int}
    (hscale : c.scale.int? = some scale) (hradius : c.blurRadius.int? = some radius)
    (width height : Nat) :
    ∃ (r : Renderer) (glow : Vector (Vector Bool width) height →
        Fin (glowUpscale * width) → Fin (glowUpscale * height) → Rgb),
      ofSettings c width height = .ok r ∧
      r.size = ⟨.int (width * scale), .int (height * scale)⟩ ∧
      (∀ display rows, (∃ frame, r.render display ⟨width, height, rows⟩ = .ok frame) ↔
        ∃ sides, display .picture r.size = .ok sides) ∧
      (∀ display rows frame, r.render display ⟨width, height, rows⟩ = .ok frame →
        frame.glow = ⟨glowUpscale * width, glowUpscale * height, glow rows⟩) ∧
      ∀ x y,
        (∀ rows rows', (∀ column row, Touches (1 + radius).toNat x y column row →
          rows[row][column] = rows'[row][column]) → glow rows x y = glow rows' x y) ∧
        ∀ rows, (∀ column row, Touches (1 + radius).toNat x y column row →
          rows[row][column] = false) → glow rows x y = .black := by
  obtain ⟨r, strength, hr, hsize, -, heq⟩ :=
    exists_ofSettings_eq_ok haccepted hscale hradius width height
  refine ⟨r, fun rows => (r.glowWith ⟨width, height, rows⟩ (1 + radius) strength).colorAt, hr,
    hsize,
    fun display rows => ?_, fun display rows frame hframe => ?_, fun x y => ⟨?_, ?_⟩⟩
  · rw [heq]
    cases display .picture r.size with
    | error e => exact iff_of_false nofun nofun
    | ok sides => exact iff_of_true ⟨_, rfl⟩ ⟨_, rfl⟩
  · rw [heq] at hframe
    split at hframe
    · cases hframe
    · cases hframe
      rfl
  · exact fun rows rows' hagree => colorAt_glowWith_congr r hagree strength
  · exact fun rows hdark => colorAt_glowWith_dark r hdark strength

/-- A screen of three pixels by two whose columns are lit or dark. -/
def inColumns (left middle right : Bool) : Vector (Vector Bool 3) 2 :=
  .replicate 2 #v[left, middle, right]

/-- The upper left corner of the glow of such a screen. -/
def glowCorner : Fin (glowUpscale * 3) × Fin (glowUpscale * 2) :=
  (⟨0, by decide⟩, ⟨0, by decide⟩)

/-- With the default settings, the light of the middle column does not reach the corner. -/
theorem glow_of_inColumns :
    ∃ (r : Renderer) (glow : Vector (Vector Bool 3) 2 →
        Fin (glowUpscale * 3) → Fin (glowUpscale * 2) → Rgb),
      ofSettings {} 3 2 = .ok r ∧
      (∀ rows, ∃ frame, r.render .desktop ⟨3, 2, rows⟩ = .ok frame ∧
        frame.glow = ⟨_, _, glow rows⟩) ∧
      (∀ left right, glow (inColumns left true right) glowCorner.1 glowCorner.2 =
        glow (inColumns left false right) glowCorner.1 glowCorner.2) ∧
      glow (inColumns false true false) glowCorner.1 glowCorner.2 = .black := by
  have hdisplay : Display.desktop .picture ⟨.int (3 * 12), .int (2 * 12)⟩ =
      .ok (3 * 12, 2 * 12) := Display.desktop_whole (by decide) (by decide) (by decide)
  have hfar : ∀ x, cyclicDistance glowCorner.1 x ≤ 2 → (enlargedFrom x).val ≠ 1 := by decide
  have houter (left middle right : Bool) (column : Fin 3) (row : Fin 2)
      (h : Touches 2 glowCorner.1 glowCorner.2 column row) :
      (inColumns left middle right)[row][column] = if column = 0 then left else right := by
    obtain ⟨x, -, hcolumn, -, hx, -⟩ := h
    have hne : column.val ≠ 1 := hcolumn ▸ hfar x hx
    obtain rfl | rfl : column = 0 ∨ column = 2 := by omega
    · simp [inColumns]
      rfl
    · simp [inColumns]
      rfl
  obtain ⟨r, glow, hr, hsize, hiff, hglow, hlocal⟩ :=
    @glow_is_local {} Settings.accepted_default 12 1 rfl rfl 3 2
  refine ⟨r, glow, hr, fun rows => ?_, fun left right => ?_, ?_⟩
  · obtain ⟨frame, hframe⟩ := (hiff .desktop rows).mpr ⟨_, hsize ▸ hdisplay⟩
    exact ⟨frame, hframe, hglow _ rows frame hframe⟩
  · refine (hlocal _ _).1 _ _ fun column row h => ?_
    rw [houter _ _ _ column row h, houter _ _ _ column row h]
  · refine (hlocal _ _).2 _ fun column row h => ?_
    rw [houter _ _ _ column row h, ite_self]

end Renderer

end Chip8

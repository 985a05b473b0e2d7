import Chip8.Screen

/-!
# Chip8.Proofs.Pixels

What drawing a sprite does to each pixel.

`Screen.paint` toggles cells one after the other and notes on the way whether a lit one was switched
off. None of that order is visible afterwards. A pixel ends up switched as often as cells of the
sprite wrap onto it (`Screen.hits`), so only the parity of that number matters, and a lit pixel was
switched off somewhere exactly if some pixel was lit, or hit, twice in all.

On a screen of ordinary size a sprite hits no pixel twice; the statements here do not need that, and
hold for screens so small that a sprite wraps onto itself.
-/

namespace Chip8.Screen

-- Powers are the core library's, whatever other powers are in scope.
attribute [local instance (high)] instPowNat

/-- The bits of a sprite with `n` rows, each by its row and its column. -/
def bits (n : Nat) : List (Nat × Nat) :=
  (List.range n).flatMap fun row => (List.range 8).map fun col => (row, col)

/-- How many bits of a sprite drawn at `(x, y)` are set and wrap onto the pixel in column `px` and
row `py`. -/
def hits (width height : Nat) (x y : Int) (sprite : List Int) (px py : Int) : Nat :=
  (bits sprite.length).countP fun (row, col) =>
    sprite.getD row 0 / 2 ^ (7 - col) % 2 = 1 ∧ (x + col) % width = px ∧ (y + row) % height = py

/-- The screen after a sprite: every pixel switched as often as it is hit. -/
def drawn (s : Screen) (x y : Int) (sprite : List Int) : Screen :=
  { s with rows := Vector.ofFn fun py => Vector.ofFn fun px =>
      s.rows[py][px] ^^ decide (hits s.width s.height x y sprite px.val py.val % 2 = 1) }

/-- Some pixel is lit or hit twice in all. -/
def Collides (s : Screen) (x y : Int) (sprite : List Int) : Prop :=
  ∃ (py : Fin s.height) (px : Fin s.width),
    2 ≤ s.rows[py][px].toNat + hits s.width s.height x y sprite px.val py.val

instance (s : Screen) (x y : Int) (sprite : List Int) : Decidable (s.Collides x y sprite) := by
  unfold Collides
  infer_instance

/-! ### Counting toggles in a list of cells -/

/-- Two cells are the same pixel. -/
def Same (s : Screen) (c d : Cell) : Prop :=
  c.1 % s.width = d.1 % s.width ∧ c.2 % s.height = d.2 % s.height

instance (s : Screen) (c d : Cell) : Decidable (s.Same c d) := by
  unfold Same
  infer_instance

/-- How many cells of a list are the same pixel as a cell. -/
def toggles (s : Screen) (cells : List Cell) (d : Cell) : Nat :=
  cells.countP fun c => s.Same c d

theorem toggles_cons (s : Screen) (c : Cell) (cells : List Cell) (d : Cell) :
    s.toggles (c :: cells) d = s.toggles cells d + if s.Same c d then 1 else 0 := by
  simp [toggles, List.countP_cons]

theorem toggles_toggle (s : Screen) (c : Cell) (cells : List Cell) (d : Cell) :
    (s.toggle c).toggles cells d = s.toggles cells d := by
  simp only [toggles, Same, width_toggle, height_toggle]

theorem isLit_congr {s : Screen} (hw : 0 < s.width) (hh : 0 < s.height) {c d : Cell}
    (h : s.Same c d) : s.isLit c = s.isLit d := by
  obtain ⟨cx, hcx⟩ := exists_wrap? hw c.1
  obtain ⟨cy, hcy⟩ := exists_wrap? hh c.2
  obtain ⟨dx, hdx⟩ := exists_wrap? hw d.1
  obtain ⟨dy, hdy⟩ := exists_wrap? hh d.2
  rw [isLit_of_wrap? hcx hcy, isLit_of_wrap? hdx hdy, (wrap?_inj hcx hdx).mpr h.1,
    (wrap?_inj hcy hdy).mpr h.2]

theorem isLit_toggle_of_same {s : Screen} (hw : 0 < s.width) (hh : 0 < s.height) {c d : Cell}
    (h : s.Same c d) : (s.toggle c).isLit d = !s.isLit d := by
  rw [isLit_toggle hw hh]
  exact if_pos h

theorem isLit_toggle_of_not_same {s : Screen} (hw : 0 < s.width) (hh : 0 < s.height) {c d : Cell}
    (h : ¬s.Same c d) : (s.toggle c).isLit d = s.isLit d := by
  rw [isLit_toggle hw hh]
  exact if_neg h

/-- A pixel ends up switched as often as it is toggled. -/
theorem isLit_paint {s : Screen} (hw : 0 < s.width) (hh : 0 < s.height) (cells : List Cell)
    (d : Cell) :
    (s.paint cells).1.isLit d = (s.isLit d ^^ decide (s.toggles cells d % 2 = 1)) := by
  induction cells generalizing s with
  | nil => simp [toggles]
  | cons c cells ih =>
      have ih := ih (s := s.toggle c) (by simpa using hw) (by simpa using hh)
      rw [paint_cons]
      dsimp only
      rw [ih, toggles_toggle, toggles_cons]
      by_cases h : s.Same c d
      · rw [isLit_toggle_of_same hw hh h, if_pos h]
        rcases Nat.mod_two_eq_zero_or_one (s.toggles cells d) with hn | hn <;>
          simp [Nat.add_mod, hn]
      · rw [isLit_toggle_of_not_same hw hh h, if_neg h, Nat.add_zero]

/-- A lit pixel is switched off on the way exactly if some pixel is lit or toggled twice in all. -/
theorem snd_paint_iff {s : Screen} (hw : 0 < s.width) (hh : 0 < s.height) (cells : List Cell) :
    (s.paint cells).2 = true ↔ ∃ d, 2 ≤ (s.isLit d).toNat + s.toggles cells d := by
  induction cells generalizing s with
  | nil =>
      simp only [paint_nil, Bool.false_eq_true, toggles, List.countP_nil, false_iff, not_exists]
      intro d
      have := Bool.toNat_le (s.isLit d)
      omega
  | cons c cells ih =>
      have ih := ih (s := s.toggle c) (by simpa using hw) (by simpa using hh)
      rw [paint_cons]
      simp only [Bool.or_eq_true, ih, toggles_toggle]
      constructor
      · rintro (hc | ⟨d, hd⟩)
        · refine ⟨c, ?_⟩
          rw [toggles_cons, if_pos ⟨rfl, rfl⟩, hc, Bool.toNat_true]
          omega
        · refine ⟨d, ?_⟩
          rw [toggles_cons]
          by_cases h : s.Same c d
          · rw [isLit_toggle_of_same hw hh h] at hd
            rw [if_pos h]
            have := Bool.toNat_le (!s.isLit d)
            omega
          · rw [isLit_toggle_of_not_same hw hh h] at hd
            omega
      · rintro ⟨d, hd⟩
        rw [toggles_cons] at hd
        cases hc : s.isLit c with
        | true => exact .inl rfl
        | false =>
            refine .inr ⟨d, ?_⟩
            by_cases h : s.Same c d
            -- The pixel is dark before its first toggle, and so lit before the next one.
            · have hl : s.isLit d = false := (isLit_congr hw hh h).symm.trans hc
              rw [if_pos h, hl, Bool.toNat_false] at hd
              rw [isLit_toggle_of_same hw hh h, hl, Bool.not_false, Bool.toNat_true]
              omega
            · rw [if_neg h] at hd
              rw [isLit_toggle_of_not_same hw hh h]
              exact hd

/-! ### Counting the set bits of a sprite -/

/-- The top row comes first, and the others are a sprite of their own below it. -/
theorem bits_succ (n : Nat) :
    bits (n + 1) =
      (List.range 8).map ((0, ·)) ++ (bits n).map fun (row, col) => (row + 1, col) := by
  simp only [bits, List.range_succ_eq_map, List.flatMap_cons, List.flatMap_map, List.map_flatMap,
    List.map_map]
  rfl

/-- A field of one bit is the bit. -/
theorem bitField_one_eq_one_iff (k : Nat) (row : Int) :
    bitField k 1 row = 1 ↔ row / 2 ^ k % 2 = 1 := by
  unfold bitField
  omega

/-- A pixel is toggled once by each column of a row that has its bit set and wraps onto it. -/
theorem toggles_rowCells (s : Screen) (x y row : Int) (d : Cell) :
    s.toggles (rowCells x y row) d =
      (List.range 8).countP fun col =>
        row / 2 ^ (7 - col) % 2 = 1 ∧ s.Same (x + (col : Nat), y) d := by
  rw [toggles, rowCells, List.countP_filterMap]
  refine List.countP_congr fun col _ => ?_
  by_cases h : row / 2 ^ (7 - col) % 2 = 1
  · simp [bitField_one_eq_one_iff, h]
  · simp [bitField_one_eq_one_iff, h]

/-- A pixel is toggled as often as the sprite hits it. -/
theorem toggles_spriteCells (s : Screen) (x y : Int) (sprite : List Int) (d : Cell) :
    s.toggles (spriteCells x y sprite) d =
      hits s.width s.height x y sprite (d.1 % s.width) (d.2 % s.height) := by
  induction sprite generalizing y with
  | nil => rfl
  | cons row sprite ih =>
      have happend : s.toggles (spriteCells x y (row :: sprite)) d =
          s.toggles (rowCells x y row) d + s.toggles (spriteCells x (y + 1) sprite) d :=
        List.countP_append ..
      rw [happend, toggles_rowCells, ih, hits, hits, List.length_cons, bits_succ,
        List.countP_append,
        List.countP_map, List.countP_map]
      congr 1
      · refine List.countP_congr fun col _ => ?_
        rw [decide_eq_true_iff]
        simp [Same]
      · refine List.countP_congr fun ⟨r, col⟩ _ => ?_
        simp only [Function.comp_apply, List.getD_cons_succ]
        rw [show y + 1 + (r : Int) = y + ((r + 1 : Nat) : Int) by omega]

/-! ### The screen after a sprite -/

theorem wrap?_val {size : Nat} (k : Fin size) : wrap? size (k.val : Int) = some k := by
  obtain ⟨j, hj⟩ := exists_wrap? (Nat.zero_lt_of_lt k.isLt) (k.val : Int)
  have := val_wrap? hj
  rw [Int.emod_eq_of_lt (by omega) (by have := k.isLt; omega)] at this
  rw [hj, Fin.ext (Int.ofNat_inj.mp this)]

theorem isLit_val (s : Screen) (px : Fin s.width) (py : Fin s.height) :
    s.isLit (px.val, py.val) = s.rows[py][px] :=
  isLit_of_wrap? (wrap?_val px) (wrap?_val py)

/-- Screens of one size are equal if they are lit in the same places. -/
theorem ext_isLit {s t : Screen} (hw : s.width = t.width) (hh : s.height = t.height)
    (h : ∀ px < s.width, ∀ py < s.height, s.isLit ((px : Nat), (py : Nat)) = t.isLit (px, py)) :
    s = t := by
  obtain ⟨w, h', rows⟩ := s
  obtain ⟨_, _, rows'⟩ := t
  obtain rfl : w = _ := hw
  obtain rfl : h' = _ := hh
  congr 1
  refine Vector.ext fun py hpy => Vector.ext fun px hpx => ?_
  have hlit := h px hpx py hpy
  rwa [isLit_val ⟨w, h', rows⟩ ⟨px, hpx⟩ ⟨py, hpy⟩,
    isLit_val ⟨w, h', rows'⟩ ⟨px, hpx⟩ ⟨py, hpy⟩] at hlit

theorem isLit_drawn (s : Screen) (x y : Int) (sprite : List Int) (px : Fin s.width)
    (py : Fin s.height) :
    (s.drawn x y sprite).isLit (px.val, py.val) =
      (s.rows[py][px] ^^ decide (hits s.width s.height x y sprite px.val py.val % 2 = 1)) := by
  refine (isLit_val (s.drawn x y sprite) px py).trans ?_
  unfold drawn
  dsimp only
  rw [getElem_ofFn, getElem_ofFn]

/-- A sprite that toggles cells one by one leaves the screen that the number of hits says. -/
theorem paint_spriteCells {s : Screen} (hw : 0 < s.width) (hh : 0 < s.height) (x y : Int)
    (sprite : List Int) :
    s.paint (spriteCells x y sprite) =
      (s.drawn x y sprite, decide (s.Collides x y sprite)) := by
  have htoggles (px : Fin s.width) (py : Fin s.height) :
      s.toggles (spriteCells x y sprite) (px.val, py.val) =
        hits s.width s.height x y sprite px.val py.val := by
    rw [toggles_spriteCells, Int.emod_eq_of_lt (by omega) (by omega),
      Int.emod_eq_of_lt (by omega) (by omega)]
  refine Prod.ext ?_ ?_
  · refine ext_isLit (width_paint ..) (height_paint ..) fun px hpx py hpy => ?_
    rw [width_paint] at hpx
    rw [height_paint] at hpy
    rw [isLit_paint hw hh, isLit_drawn s x y sprite ⟨px, hpx⟩ ⟨py, hpy⟩,
      htoggles ⟨px, hpx⟩ ⟨py, hpy⟩, isLit_val s ⟨px, hpx⟩ ⟨py, hpy⟩]
  · rw [Bool.eq_iff_iff, snd_paint_iff hw hh, decide_eq_true_iff]
    constructor
    · rintro ⟨d, hd⟩
      obtain ⟨px, hpx⟩ := exists_wrap? hw d.1
      obtain ⟨py, hpy⟩ := exists_wrap? hh d.2
      refine ⟨py, px, ?_⟩
      rwa [isLit_of_wrap? hpx hpy, toggles_spriteCells, ← val_wrap? hpx, ← val_wrap? hpy] at hd
    · rintro ⟨py, px, hd⟩
      refine ⟨(px.val, py.val), ?_⟩
      rwa [isLit_val, htoggles]

/-! ### Screens without pixels -/

/-- A sprite can be drawn: there is a row for each of its rows, and a column for each set bit. -/
def Admits (s : Screen) (sprite : List Int) : Prop :=
  (sprite = [] ∨ 0 < s.height) ∧ ((∀ row ∈ sprite, row % 256 = 0) ∨ 0 < s.width)

instance (s : Screen) (sprite : List Int) : Decidable (s.Admits sprite) := by
  unfold Admits
  infer_instance

/-- A number whose low bits are all zero is a multiple of their weight. -/
theorem two_pow_dvd_iff (a : Int) (n : Nat) : 2 ^ n ∣ a ↔ ∀ k < n, a / 2 ^ k % 2 = 0 := by
  induction n with
  | zero => simp
  | succ n ih =>
      have hpos : (2 : Int) ^ n ≠ 0 := Int.pow_ne_zero (by decide)
      have hsplit : 2 ^ (n + 1) ∣ a ↔ 2 ^ n ∣ a ∧ a / 2 ^ n % 2 = 0 := by
        constructor
        · rintro ⟨c, rfl⟩
          have hc : (2 : Int) ^ (n + 1) * c = 2 ^ n * (2 * c) := by rw [Int.pow_succ, Int.mul_assoc]
          rw [hc, Int.mul_ediv_cancel_left _ hpos]
          exact ⟨Int.dvd_mul_right .., Int.mul_emod_right ..⟩
        · rintro ⟨⟨c, rfl⟩, h⟩
          rw [Int.mul_ediv_cancel_left _ hpos] at h
          obtain ⟨d, rfl⟩ := Int.dvd_of_emod_eq_zero h
          exact ⟨d, by rw [Int.pow_succ, Int.mul_assoc]⟩
      rw [hsplit, ih, Nat.forall_lt_succ_right]

theorem rowCells_eq_nil_iff {x y row : Int} : rowCells x y row = [] ↔ row % 256 = 0 := by
  have hbit (k : Nat) : ¬bitField k 1 row = 1 ↔ row / 2 ^ k % 2 = 0 := by
    rw [bitField_one_eq_one_iff]
    omega
  simp only [rowCells, List.filterMap_eq_nil_iff, ite_eq_right_iff, reduceCtorEq, imp_false, hbit,
    List.mem_range]
  rw [show (256 : Int) = 2 ^ 8 from rfl, ← Int.dvd_iff_emod_eq_zero, two_pow_dvd_iff]
  constructor
  · intro h k hk
    simpa [show 7 - (7 - k) = k by omega] using h (7 - k) (by omega)
  · intro h k _
    exact h (7 - k) (by omega)

theorem spriteCells_eq_nil_iff {x y : Int} {sprite : List Int} :
    spriteCells x y sprite = [] ↔ ∀ row ∈ sprite, row % 256 = 0 := by
  induction sprite generalizing y with
  | nil => simp [spriteCells]
  | cons row sprite ih => simp [spriteCells, rowCells_eq_nil_iff, ih]

/-- Nothing is drawn where there are no pixels. -/
theorem drawn_of_no_pixels {s : Screen} (h : s.width = 0 ∨ s.height = 0) (x y : Int)
    (sprite : List Int) : s.drawn x y sprite = s ∧ ¬s.Collides x y sprite := by
  constructor
  · refine ext_isLit rfl rfl fun px hpx py hpy => ?_
    change px < s.width at hpx
    change py < s.height at hpy
    omega
  · rintro ⟨py, px, -⟩
    have := px.isLt
    have := py.isLt
    omega

/-- **Drawing.** A sprite is drawn exactly on a screen that admits it, and then the screen and the
flag are those that the number of hits says. -/
theorem draw?_eq (s : Screen) (x y : Int) (sprite : List Int) :
    s.draw? x y sprite =
      if s.Admits sprite then some (s.drawn x y sprite, decide (s.Collides x y sprite))
      else none := by
  have hcells : spriteCells x y sprite = [] ↔ ∀ row ∈ sprite, row % 256 = 0 :=
    spriteCells_eq_nil_iff
  unfold draw?
  by_cases h : s.Admits sprite
  · rw [if_pos h, if_neg (by unfold Admits at h; rw [← hcells] at h; grind)]
    by_cases hpos : 0 < s.width ∧ 0 < s.height
    · rw [paint_spriteCells hpos.1 hpos.2]
    · obtain ⟨hdrawn, hcollides⟩ := drawn_of_no_pixels (s := s) (by omega) x y sprite
      have hnil : spriteCells x y sprite = [] := by
        rcases h with ⟨rfl | hh, hrows | hw⟩
        · rfl
        · rfl
        · exact hcells.mpr hrows
        · exact absurd ⟨hw, hh⟩ hpos
      rw [hdrawn, hnil, paint_nil, decide_eq_false hcollides]
  · rw [if_neg h, if_pos (by unfold Admits at h; rw [← hcells] at h; grind)]

/-- **The pixel law.** Every sprite can be drawn on a screen with pixels. A pixel is then its old
value plus its hits, modulo two, and the flag tells whether that sum reached two at some pixel. -/
theorem pixels_after_draw {s : Screen} (hw : 0 < s.width) (hh : 0 < s.height) (x y : Int)
    (sprite : List Int) :
    ∃ t hit, s.draw? x y sprite = some (t, hit) ∧ t.width = s.width ∧ t.height = s.height ∧
      (∀ px < s.width, ∀ py < s.height,
        (t.isLit ((px : Nat), (py : Nat))).toNat =
          ((s.isLit (px, py)).toNat + hits s.width s.height x y sprite px py) % 2) ∧
      (hit = true ↔ ∃ px < s.width, ∃ py < s.height,
        2 ≤ (s.isLit ((px : Nat), (py : Nat))).toNat +
          hits s.width s.height x y sprite px py) := by
  refine ⟨s.drawn x y sprite, decide (s.Collides x y sprite), ?_, rfl, rfl, ?_, ?_⟩
  · rw [draw?_of_pos hw hh, paint_spriteCells hw hh]
  · intro px hpx py hpy
    rw [isLit_drawn s x y sprite ⟨px, hpx⟩ ⟨py, hpy⟩, isLit_val s ⟨px, hpx⟩ ⟨py, hpy⟩]
    have hparity := Nat.mod_two_eq_zero_or_one (hits s.width s.height x y sprite px py)
    cases s.rows[(⟨py, hpy⟩ : Fin s.height)][(⟨px, hpx⟩ : Fin s.width)] with
    | false => rcases hparity with h | h <;> simp [h]
    | true => rcases hparity with h | h <;> simp [Nat.add_mod, h]
  · rw [decide_eq_true_iff]
    constructor
    · rintro ⟨py, px, h⟩
      refine ⟨px.val, px.isLt, py.val, py.isLt, ?_⟩
      rwa [isLit_val]
    · rintro ⟨px, hpx, py, hpy, h⟩
      refine ⟨⟨py, hpy⟩, ⟨px, hpx⟩, ?_⟩
      rwa [isLit_val s ⟨px, hpx⟩ ⟨py, hpy⟩] at h

/-- Three columns and two rows, with one lit pixel. -/
def narrow : Screen := ofRows 3 #[#[true, false, false], #[false, false, false]]

/-- A full row of eight wraps onto three columns and hits each of them two or three times. -/
theorem pixels_after_draw_narrow :
    (0 < narrow.width ∧ 0 < narrow.height) ∧
      ∃ t, narrow.draw? (-1) 4 [0xFF] = some (t, true) ∧
        t.isLit (0, 0) = false ∧ t.isLit (1, 0) = false ∧ t.isLit (2, 0) = true := by
  obtain ⟨t, hit, hdraw, -, -, hpixels, hhit⟩ :=
    pixels_after_draw (s := narrow) (by decide) (by decide) (-1) 4 [0xFF]
  have hit_eq : hit = true := hhit.mpr ⟨0, by decide, 0, by decide, by decide⟩
  refine ⟨by decide, t, hit_eq ▸ hdraw, ?_, ?_, ?_⟩
  · simpa using (hpixels 0 (by decide) 0 (by decide)).trans (by decide : _ = 0)
  · simpa using (hpixels 1 (by decide) 0 (by decide)).trans (by decide : _ = 0)
  · simpa using (hpixels 2 (by decide) 0 (by decide)).trans (by decide : _ = 1)

end Chip8.Screen

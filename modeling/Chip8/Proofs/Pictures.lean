import Chip8.Proofs.Brightness
import Chip8.Proofs.Settings

/-!
# Chip8.Proofs.Pictures

The base picture of a screen.

A renderer asks the display for as many points as the squares of all pixels have
(`Renderer.exists_ofSettings_eq_ok`). On a display that makes a picture of this size, every point
takes the colour of the pixel in whose square it lies, so that the base is a picture of squares
(`Renderer.base_eq_squares`). No pixel is lost in it: where lit pixels do not look like dark ones,
the picture tells the screen (`Image.squares_inj`).
-/

namespace Chip8

open Json (Value Number)

/-! ### Squares -/

namespace Image

variable {width height side : Nat} {rows rows' : Vector (Vector Bool width) height} {lit : Rgb}

/-- The pixel in whose square a point lies, in one direction. -/
def squareOf {size side : Nat} (x : Fin (size * side)) : Fin size :=
  ⟨x / side, Nat.div_lt_of_lt_mul (Nat.mul_comm size side ▸ x.isLt)⟩

/-- The picture of a screen in which every pixel is a square of points. -/
def squares (side : Nat) (rows : Vector (Vector Bool width) height) (lit : Rgb) : Image where
  width := width * side
  height := height * side
  colorAt x y := if rows[squareOf y][squareOf x] then lit else .black

/-- Every pixel has a square with points in it. -/
theorem exists_squareOf_eq (hside : 0 < side) {size : Nat} (k : Fin size) :
    ∃ x : Fin (size * side), squareOf x = k :=
  ⟨⟨k * side, Nat.mul_lt_mul_of_pos_right k.isLt hside⟩, Fin.ext (Nat.mul_div_cancel k hside)⟩

theorem stretch_eq_squareOf {size : Nat} (x : Fin (size * side)) (h : 0 < size) :
    stretch size x h = squareOf x :=
  Fin.ext (val_stretch_mul x h)

/-- A lit pixel does not look like a dark one. -/
theorem eq_of_ite_eq {a b : Bool} (hlit : lit ≠ .black)
    (h : (if a then lit else .black) = if b then lit else .black) : a = b := by
  cases a with
  | true =>
      cases b with
      | true => rfl
      | false => exact absurd h hlit
  | false =>
      cases b with
      | true => exact absurd h.symm hlit
      | false => rfl

/-- The picture tells the screen. -/
theorem squares_inj (hside : 0 < side) (hlit : lit ≠ .black)
    (h : squares side rows lit = squares side rows' lit) : rows = rows' := by
  rw [squares, squares, Image.mk.injEq] at h
  have hcolors := eq_of_heq h.2.2
  refine ext_entries fun row => ext_entries fun column => ?_
  obtain ⟨x, rfl⟩ := exists_squareOf_eq hside column
  obtain ⟨y, rfl⟩ := exists_squareOf_eq hside row
  exact eq_of_ite_eq hlit (congrFun (congrFun hcolors x) y)

end Image

/-! ### The base -/

namespace Renderer

variable {c : Settings}

/-- **With accepted settings only the display can refuse a picture.** The renderer asks it for as
many points as the squares of all pixels have, and the glow does not depend on the display. -/
theorem exists_ofSettings_eq_ok (haccepted : c.Accepted) {scale radius : Int}
    (hscale : c.scale.int? = some scale) (hradius : c.blurRadius.int? = some radius)
    (width height : Int) :
    ∃ r strength, ofSettings c width height = .ok r ∧
      r.size = ⟨.int (width * scale), .int (height * scale)⟩ ∧ r.foreground = c.fgColor.rgb ∧
      ∀ display s, r.render display s =
        match display .picture r.size with
        | .error e => .error (.extent e)
        | .ok (width, height) =>
          .ok ⟨r.base s width height, r.glowWith s (1 + radius) strength⟩ := by
  let r : Renderer := {
    size := ⟨.int (width * scale), .int (height * scale)⟩
    foreground := c.fgColor.rgb
    background := c.bgColor.rgb
    bloomStrength := c.bloomStrength
    blurRadius := c.blurRadius }
  have hr : ofSettings c width height = .ok r := by
    rw [ofSettings, Value.number?_of_int? hscale]
    rfl
  have hstrength : ∃ n f, r.bloomStrength.number? = some n ∧ n.toFloat = .ok f :=
    haccepted.exists_strength
  have hreach : r.blurRadius.int? = some radius := hradius
  obtain ⟨strength, heq⟩ := exists_render_eq hstrength hreach
  exact ⟨r, strength, hr, rfl, rfl, heq⟩

/-- A point takes the pixel in whose square it lies. -/
theorem base_eq_squares (r : Renderer) {width height : Nat} (hwidth : 0 < width)
    (hheight : 0 < height) (rows : Vector (Vector Bool width) height) (side : Nat) :
    r.base ⟨width, height, rows⟩ (width * side) (height * side) =
      .squares side rows r.foreground := by
  unfold base Image.scaledTo Image.squares
  congr 1
  funext x y
  have hpixel : (tinted (Thunk.mk fun _ => brightness ⟨width, height, rows⟩) r.foreground).colorAt
      (stretch width x hwidth) (stretch height y hheight) =
        shade (bright rows[stretch height y hheight][stretch width x hwidth]) r.foreground := by
    rw [← getElem_brightness]
    rfl
  rw [dif_pos ⟨hwidth, hheight⟩]
  refine hpixel.trans ?_
  rw [shade_bright, Image.stretch_eq_squareOf y hheight, Image.stretch_eq_squareOf x hwidth]

/-- **The base shows every pixel as a square.** With accepted settings whose scale and reach of the
glow are whole numbers, on a display that makes pictures of the size it is asked for, every screen
has a base of that size in which a point has the foreground colour if the pixel that it lies in is
lit, and is black otherwise. If the foreground is not black, different screens have different
bases. -/
theorem base_in_squares (haccepted : c.Accepted) {scale : Nat} {radius : Int}
    (hscale : c.scale.int? = some scale) (hradius : c.blurRadius.int? = some radius)
    {width height : Nat} (hwidth : 0 < width) (hheight : 0 < height) {display : Display}
    (hdisplay : display .picture ⟨.int (width * scale), .int (height * scale)⟩ =
      .ok (width * scale, height * scale)) :
    ∃ r, ofSettings c width height = .ok r ∧
      (∀ rows, ∃ frame, r.render display ⟨width, height, rows⟩ = .ok frame ∧
        frame.base = .squares scale rows c.fgColor.rgb) ∧
      (c.fgColor.rgb ≠ .black → ∀ rows rows' frame frame',
        r.render display ⟨width, height, rows⟩ = .ok frame →
        r.render display ⟨width, height, rows'⟩ = .ok frame' →
        frame.base = frame'.base → rows = rows') := by
  obtain ⟨r, strength, hr, hsize, hforeground, heq⟩ :=
    exists_ofSettings_eq_ok haccepted hscale hradius width height
  have hframe (rows : Vector (Vector Bool width) height) :
      ∃ glow, r.render display ⟨width, height, rows⟩ =
        .ok ⟨.squares scale rows c.fgColor.rgb, glow⟩ := by
    rw [heq, hsize, hdisplay]
    dsimp only
    rw [base_eq_squares r hwidth hheight, hforeground]
    exact ⟨_, rfl⟩
  refine ⟨r, hr, fun rows => ?_, fun hlit rows rows' frame frame' hrows hrows' hbase => ?_⟩
  · obtain ⟨glow, hglow⟩ := hframe rows
    exact ⟨_, hglow, rfl⟩
  · obtain ⟨glow, hglow⟩ := hframe rows
    obtain ⟨glow', hglow'⟩ := hframe rows'
    cases hglow.symm.trans hrows
    cases hglow'.symm.trans hrows'
    have hscale_pos : 1 ≤ (scale : Int) := haccepted.one_le (by simp [Settings.speeds]) hscale
    exact Image.squares_inj (by omega) hlit hbase

/-- A screen of three pixels by two that is lit in its upper right corner. -/
def cornerLit : Vector (Vector Bool 3) 2 := #v[#v[false, false, true], #v[false, false, false]]

/-- The base of that screen by the default settings, in squares of twelve points. No other screen
has the same. -/
theorem base_of_cornerLit :
    ∃ r frame, ofSettings {} 3 2 = .ok r ∧ r.render .desktop ⟨3, 2, cornerLit⟩ = .ok frame ∧
      frame.base = .squares 12 cornerLit ⟨0, 255, 128⟩ ∧
      (∀ rows frame', r.render .desktop ⟨3, 2, rows⟩ = .ok frame' → frame.base = frame'.base →
        cornerLit = rows) ∧
      (Image.squares 12 cornerLit ⟨0, 255, 128⟩).colorAt ⟨24, by decide⟩ ⟨11, by decide⟩ =
        ⟨0, 255, 128⟩ ∧
      (Image.squares 12 cornerLit ⟨0, 255, 128⟩).colorAt ⟨23, by decide⟩ ⟨11, by decide⟩ =
        .black := by
  have hdisplay : Display.desktop .picture ⟨.int (3 * 12), .int (2 * 12)⟩ =
      .ok (3 * 12, 2 * 12) := Display.desktop_whole (by decide) (by decide) (by decide)
  obtain ⟨r, hr, hbase, hinj⟩ := @base_in_squares {} Settings.accepted_default 12 1 rfl rfl 3 2
    (by decide) (by decide) .desktop hdisplay
  obtain ⟨frame, hframe, heq⟩ := hbase cornerLit
  refine ⟨r, frame, hr, hframe, heq, fun rows frame' hframe' => ?_, rfl, rfl⟩
  exact hinj (by decide) _ _ _ _ hframe hframe'

end Renderer

end Chip8

import Chip8.Settings.Basic
import Chip8.Extent
import Chip8.Glow.Blur
import Chip8.Image
import Chip8.Screen
/-!
# Chip8.Glow.Renderer

How the screen is shown: sharp pixels over a phosphor glow, on a background with scan lines.

`Renderer.render` makes two images of a screen, both from a table of the brightness of its pixels.
The *base* is that table in the foreground colour, scaled to its final size. The *glow* starts from
the table enlarged four times, so that the blur reaches beyond the edges of a pixel; brightness is
blurred, scaled by the bloom strength and cut off at full brightness, and only then coloured. All
arithmetic is in 32-bit floating point. The glow is left at four times the size of the screen;
whoever displays it enlarges it to the size of the base.

The size of the base and of the background comes from the scale. Pictures can be made at any scale
that the display can work with, but the scan lines of a background have to be counted.
-/

namespace Chip8

open Json (Misuse)

/-- What an image of the screen is made with. -/
structure Renderer where
  /-- The size of the base image and of the background. -/
  size : Extent
  foreground : Rgb
  background : Rgb
  /-- The setting for the brightness of the glow. -/
  bloomStrength : Json.Value
  /-- The setting for the reach of the glow. -/
  blurRadius : Json.Value

structure Frame where
  base : Image
  /-- The glow, at four times the size of the screen. -/
  glow : Image

inductive PictureError
  | misuse (cause : Misuse)
  | extent (cause : ExtentError)
  deriving Repr, DecidableEq

def PictureError.message : PictureError → String
  | misuse cause => cause.message
  | extent cause => cause.message

/-- How often a pixel is repeated in each direction before it is blurred. -/
def glowUpscale : Nat := 4

namespace Renderer

/-- The renderer for a screen of a size. -/
def ofSettings (settings : Settings) (width height : Int) : Except Misuse Renderer :=
  match settings.scale.number? with
  | none => .error (.notArithmetic "*" "int" settings.scale.kind)
  | some scale =>
    match Extent.scaled width height scale with
    | .error e => .error e
    | .ok size =>
      .ok {
        size
        foreground := settings.fgColor.rgb
        background := settings.bgColor.rgb
        bloomStrength := settings.bloomStrength
        blurRadius := settings.blurRadius }

/-- The brightness of a pixel. -/
def bright (lit : Bool) : Float32 := if lit then 1.0 else 0.0

/-- The brightness of all pixels, column by column: cell `x`, `y` is the pixel in column `x` and
row `y`. -/
def brightness (s : Screen) : Grid Float32 s.width s.height :=
  (Grid.transpose s.rows).each bright

/-- The brightness of the enlarged screen before it is blurred. -/
def enlarged (s : Screen) : Grid Float32 (glowUpscale * s.width) (glowUpscale * s.height) :=
  Grid.kron (brightness s) (Grid.filled 1.0)

/-- A brightness cut off at both ends. -/
def clamp (b : Float32) : Float32 := if b < 0.0 then 0.0 else if 1.0 < b then 1.0 else b

/-- One channel of a colour at a brightness, rounded down. -/
def dim (b : Float32) (channel : UInt8) : UInt8 := (b * Float32.ofNat channel.toNat).toUInt8

/-- A colour at a brightness. -/
def shade (b : Float32) (c : Rgb) : Rgb := ⟨dim b c.red, dim b c.green, dim b c.blue⟩

/-- The image of a table of columns in a colour. The table is worked out when the image is first
looked at, and once. -/
def tinted {width height : Nat} (columns : Thunk (Grid Float32 width height)) (c : Rgb) :
    Image where
  width
  height
  colorAt x y := shade columns.get[x][y] c

/-- The sharp pixels of a screen in `width` × `height` points. -/
def base (r : Renderer) (s : Screen) (width height : Nat) : Image :=
  (tinted (Thunk.mk fun _ => brightness s) r.foreground).scaledTo width height

/-- The glow of a screen, with the number of passes and the strength settled. -/
def glowWith (r : Renderer) (s : Screen) (passes : Int) (strength : Float32) : Image :=
  let glow := Thunk.mk fun _ =>
    ((enlarged s).boxBlur passes).each fun b => clamp (b * strength)
  tinted glow r.foreground

/-- The bloom strength as a factor. -/
def strength (r : Renderer) : Except Misuse Float32 :=
  match r.bloomStrength.number? with
  | none => .error (.notArithmetic "*" "float" r.bloomStrength.kind)
  | some n =>
    match n.toFloat with
    | .error e => .error e
    | .ok f => .ok f.toFloat32

/-- The images of a screen on a display. The number of passes is one more than the blur radius, so
the radius has to be a whole number; a negative one leaves the glow sharp. -/
def render (display : Display) (r : Renderer) (s : Screen) : Except PictureError Frame :=
  match r.blurRadius.countPlusOne with
  | .error e => .error (.misuse e)
  | .ok passes =>
    match r.strength with
    | .error e => .error (.misuse e)
    | .ok strength =>
      match display .picture r.size with
      | .error e => .error (.extent e)
      | .ok (width, height) => .ok ⟨r.base s width height, r.glowWith s passes strength⟩

/-- A channel of a scan line: a little brighter than the background. -/
def lifted (channel : UInt8) : UInt8 := UInt8.ofNat (min (channel.toNat + 5) 255)

/-- A background in `width` × `height` points: every second row, from the first on, is a scan
line. -/
def scanLines (r : Renderer) (width height : Nat) : Image where
  width
  height
  colorAt _ y :=
    let c := r.background
    if y.val % 2 = 0 then ⟨lifted c.red, lifted c.green, lifted c.blue⟩ else c

/-- The background on a display. Its height has to be a whole number, because its rows are
counted. -/
def backgroundImage (display : Display) (r : Renderer) : Except PictureError Image :=
  match display .background r.size with
  | .error e => .error (.extent e)
  | .ok (width, height) =>
    match r.size.height.toCount with
    | .error e => .error (.misuse e)
    | .ok _ => .ok (r.scanLines width height)

end Renderer

end Chip8

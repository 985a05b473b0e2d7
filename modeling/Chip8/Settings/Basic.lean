import Chip8.Color
import Chip8.Error.Kind
import Chip8.Json.Arithmetic
/-!
# Chip8.Settings.Basic

The settings of the emulator, and changing them.

Settings come from JSON and are kept as the values they were given, because most of them are
looked at only where they are used. What is checked at once, in this order, is that every key is a
setting, that the two colours are colours (foreground first), that the three speeds are at least
one, and that the bloom strength lies between zero and one. The checks look at the settings as
they would be, old and new together.
-/

namespace Chip8

open Json (Value Members Misuse Number)

structure Settings where
  /-- The side of a pixel on the display. -/
  scale : Value := .int 12
  /-- Instructions per second. -/
  clockHz : Value := .int 500
  /-- Frames per second. -/
  frameHz : Value := .int 60
  fgColor : Color := .ofLevels 0 255 128
  bgColor : Color := .ofLevels 15 15 25
  /-- How bright the glow is. -/
  bloomStrength : Value := .float 0.55
  /-- How far the glow spreads, in passes of the blur beyond the first. -/
  blurRadius : Value := .int 1
  /-- Whether the machine's state is shown over the screen. -/
  showDebug : Value := .bool false
  seed : Value := .null

inductive SettingsError
  /-- Some keys are no settings; they are listed in order. -/
  | unknownKeys (keys : List String)
  /-- A colour setting is no colour. -/
  | badColor (key : String) (value : Value)
  | notPositive
  | badBloom
  | misuse (cause : Misuse)

def SettingsError.message : SettingsError → String
  | unknownKeys keys => "Unknown config keys: " ++ ", ".intercalate keys
  | badColor key value =>
    key ++ " must be a color name or [r, g, b], got " ++ value.literal
  | notPositive => "scale, clock_hz and frame_hz must be positive"
  | badBloom => "bloom_strength must be between 0.0 and 1.0"
  | misuse cause => cause.message

/-- The kind of a refusal. A value that cannot be compared has none: it is refused by the
comparison. -/
def SettingsError.kind? : SettingsError → Option ErrorKind
  | misuse _ => none
  | _ => some .badSettings

namespace Settings

def keys : List String :=
  ["scale", "clock_hz", "frame_hz", "fg_color", "bg_color", "bloom_strength", "blur_radius",
    "show_debug", "seed"]

/-- The settings as members of an object, in the order of `keys`. -/
def toMembers (c : Settings) : Members := [
  ("scale", c.scale),
  ("clock_hz", c.clockHz),
  ("frame_hz", c.frameHz),
  ("fg_color", c.fgColor.toValue),
  ("bg_color", c.bgColor.toValue),
  ("bloom_strength", c.bloomStrength),
  ("blur_radius", c.blurRadius),
  ("show_debug", c.showDebug),
  ("seed", c.seed)]

theorem keys_toMembers (c : Settings) : c.toMembers.keys = keys := rfl

/-- The keys that are no settings, in the order of their code points. -/
def unknownKeys (members : Members) : List String :=
  (members.keys.filter fun key => !keys.contains key).mergeSort fun a b => a ≤ b

/-- The colour under a key, or the one that stands if the key is absent. -/
def colorUnder (members : Members) (key : String) (standing : Color) : Except SettingsError Color :=
  match members.find? key with
  | none => .ok standing
  | some value =>
    match Color.ofValue? value with
    | some color => .ok color
    | none => .error (.badColor key value)

/-- Whether some value is less than one. Values are looked at in order, and none after the first
that is. -/
def anyBelowOne : List Value → Except Misuse Bool
  | [] => .ok false
  | v :: vs =>
    match v.isBelowOne with
    | .error e => .error e
    | .ok true => .ok true
    | .ok false => anyBelowOne vs

/-- Checks the speeds and the bloom strength. -/
def check (c : Settings) : Except SettingsError Settings :=
  match anyBelowOne [c.scale, c.clockHz, c.frameHz] with
  | .error e => .error (.misuse e)
  | .ok true => .error .notPositive
  | .ok false =>
    match c.bloomStrength.isUnit with
    | .error e => .error (.misuse e)
    | .ok false => .error .badBloom
    | .ok true => .ok c

/-- The settings with those of an object in place of the ones that stand. -/
def withOverrides (c : Settings) (members : Members) : Except SettingsError Settings :=
  match unknownKeys members with
  | key :: more => .error (.unknownKeys (key :: more))
  | [] =>
    match colorUnder members "fg_color" c.fgColor with
    | .error e => .error e
    | .ok fgColor =>
      match colorUnder members "bg_color" c.bgColor with
      | .error e => .error e
      | .ok bgColor =>
        let given (key : String) (standing : Value) : Value := (members.find? key).getD standing
        check {
          scale := given "scale" c.scale
          clockHz := given "clock_hz" c.clockHz
          frameHz := given "frame_hz" c.frameHz
          fgColor
          bgColor
          bloomStrength := given "bloom_strength" c.bloomStrength
          blurRadius := given "blur_radius" c.blurRadius
          showDebug := given "show_debug" c.showDebug
          seed := given "seed" c.seed }

/-- How many cycles a frame runs: the ratio of the two rates rounded down, and at least one. -/
def cyclesPerFrame (c : Settings) : Except Misuse Number :=
  match c.clockHz.floorDiv c.frameHz with
  | .error e => .error e
  | .ok n => .ok n.atLeastOne

end Settings

end Chip8

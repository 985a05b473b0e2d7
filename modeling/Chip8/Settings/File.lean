import Chip8.Settings.Basic
import Chip8.Files
import Chip8.Json.Reader
import Chip8.Text.Utf8
/-!
# Chip8.Settings.File

Settings from a file: a JSON object in UTF-8, applied to the default settings.

The path is used as it is given. Line ends are made uniform before the text is read, so positions in
messages count a line end as one character.
-/

namespace Chip8

/-- Why a settings file gave no settings. -/
inductive SettingsFileError
  | unreadable (path : String) (problem : FileError)
  | nulInPath
  | notUtf8 (place : Utf8.Invalid)
  | malformed (path : String) (mistake : Json.Malformed)
  | notAnObject (path : String)
  | refused (cause : SettingsError)

/-- The wording of a fault in UTF-8 text. -/
def Utf8.Invalid.message (e : Utf8.Invalid) : String :=
  let reason := match e.flaw with
    | .badStart => "invalid start byte"
    | .badContinuation => "invalid continuation byte"
    | .truncated => "unexpected end of data"
  let place :=
    if e.length = 1 then
      "byte 0x" ++ Hex.bytes [e.lead] ++ " in position " ++ toString e.start
    else "bytes in position " ++ toString e.start ++ "-" ++ toString (e.start + e.length - 1)
  "'utf-8' codec can't decode " ++ place ++ ": " ++ reason

def SettingsFileError.message : SettingsFileError → String
  | unreadable path problem => "Can't read config " ++ path ++ ": " ++ problem.message
  | nulInPath => FileError.nulInPath.message
  | notUtf8 place => place.message
  | malformed path mistake => "Can't read config " ++ path ++ ": " ++ mistake.message
  | notAnObject path => "Config " ++ path ++ " must be a JSON object"
  | refused cause => cause.message

/-- The kind of an error. Bytes that are no text and a path that names nothing have none. -/
def SettingsFileError.kind? : SettingsFileError → Option ErrorKind
  | nulInPath | notUtf8 _ => none
  | refused cause => cause.kind?
  | _ => some .badSettings

namespace Settings

def ofBytes (path : String) (bytes : List UInt8) : Except SettingsFileError Settings :=
  match Utf8.decode bytes with
  | .error place => .error (.notUtf8 place)
  | .ok text =>
    match Json.read (Line.uniform text) with
    | .error mistake => .error (.malformed path mistake)
    | .ok (.object members) =>
      match withOverrides {} members with
      | .error cause => .error (.refused cause)
      | .ok settings => .ok settings
    | .ok _ => .error (.notAnObject path)

def ofFile (files : FileReader) (path : String) : Except SettingsFileError Settings :=
  match files path with
  | .error .nulInPath => .error .nulInPath
  | .error problem => .error (.unreadable path problem)
  | .ok bytes => ofBytes path bytes.toList

end Settings

end Chip8

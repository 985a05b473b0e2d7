import Chip8.Text.Quoted
/-!
# Chip8.Files

Opening files by path.

Whatever reads files for the emulator is a `FileReader`: a function from paths to contents or to a
reason why there are none. `FileArea` is one such reader that holds its directories and files
itself.

A path is walked one component at a time from the working directory. Every component but the last
has to name a directory, `.` and an empty component stay where they are, and `..` goes up. The
area knows nothing above its working directory, except that there are directories there.
-/

namespace Chip8

/-- Why the system does not open a file. -/
inductive FileProblem
  | notFound
  | notDirectory
  | isDirectory
  /-- A component, or the path as a whole, is longer than the system allows. -/
  | nameTooLong
  /-- Any other reason, with the system's number and wording. -/
  | other (code : Nat) (wording : String)
  deriving Repr, DecidableEq

namespace FileProblem

/-- The number by which the system reports it. -/
def code : FileProblem → Nat
  | notFound => 2
  | notDirectory => 20
  | isDirectory => 21
  | nameTooLong => 36
  | other code _ => code

/-- The words by which the system reports it. -/
def wording : FileProblem → String
  | notFound => "No such file or directory"
  | notDirectory => "Not a directory"
  | isDirectory => "Is a directory"
  | nameTooLong => "File name too long"
  | other _ wording => wording

end FileProblem

/-- Why there is nothing to read under a path. -/
inductive FileError
  /-- The system refused to open the path. -/
  | refused (problem : FileProblem) (path : String)
  /-- The path holds a NUL character, so it names nothing at all. -/
  | nulInPath
  deriving Repr, DecidableEq

def FileError.message : FileError → String
  | refused problem path =>
    "[Errno " ++ toString problem.code ++ "] " ++ problem.wording ++ ": " ++ Quoted.quote path
  | nulInPath => "embedded null byte"

/-- Reads whole files by path. -/
abbrev FileReader := String → Except FileError (Array UInt8)

/-- The longest name of a directory entry, in bytes. -/
def maxNameBytes : Nat := 255

/-- The longest path, in bytes. -/
def maxPathBytes : Nat := 4095

/-- What is between the slashes among some characters. -/
def betweenSlashes : List Char → List (List Char)
  | [] => [[]]
  | c :: rest =>
    let names := betweenSlashes rest
    if c = '/' then [] :: names else (c :: names.headD []) :: names.tail

/-- The components of a path: what is between its slashes. -/
def componentsOf (path : String) : List String := (betweenSlashes path.toList).map String.ofList

/-- A working directory with all that is below it. Names are listed from the bottom up. -/
structure FileArea where
  /-- The directories, besides those that a file or another directory implies. -/
  directories : List (List String) := []
  /-- The files with their contents. -/
  files : List (List String × Array UInt8) := []

namespace FileArea

/-- A place that a walk can reach. -/
inductive Place
  /-- In the area, under these names, the last one first. -/
  | inside (names : List String)
  /-- In some directory that the area knows nothing about. -/
  | outside

/-- The names in a path that lead somewhere, the last one first. -/
def namesOf (path : String) : List String :=
  ((componentsOf path).filter fun name => name != "" && name != ".").reverse

def addDirectory (area : FileArea) (path : String) : FileArea :=
  { area with directories := namesOf path :: area.directories }

/-- Adds a file, or replaces its contents. -/
def addFile (area : FileArea) (path : String) (content : Array UInt8) : FileArea :=
  { area with files := (namesOf path, content) :: area.files }

/-- The contents of the file under some names. -/
def file? (area : FileArea) (names : List String) : Option (Array UInt8) := area.files.lookup names

/-- Whether some names lead to a directory: it was added, or something was added below it. -/
def isDirectory (area : FileArea) (names : List String) : Bool :=
  names.isEmpty || area.directories.any names.isSuffixOf ||
    area.files.any fun (file, _) => file != names && names.isSuffixOf file

/-- Goes on from a place by one component of a path. -/
def step (area : FileArea) (place : Place) (component : String) : Except FileProblem Place :=
  let here := match place with
    | .inside names => area.isDirectory names
    | .outside => true
  if !here then .error .notDirectory
  else if component = "" ∨ component = "." then .ok place
  else if component = ".." then
    match place with
    | .inside (_ :: above) => .ok (.inside above)
    | _ => .ok .outside
  else if maxNameBytes < component.utf8ByteSize then .error .nameTooLong
  else
    match place with
    | .inside names =>
      let names := component :: names
      if area.isDirectory names || (area.file? names).isSome then .ok (.inside names)
      else .error .notFound
    | .outside => .error .notFound

/-- Walks the components of a path. -/
def walk (area : FileArea) (place : Place) : List String → Except FileProblem Place
  | [] => .ok place
  | component :: rest =>
    match area.step place component with
    | .error problem => .error problem
    | .ok place => area.walk place rest

/-- Opens the file under a path that holds no NUL. -/
def openFile (area : FileArea) (path : String) : Except FileProblem (Array UInt8) :=
  if path = "" then .error .notFound
  else if maxPathBytes < path.utf8ByteSize then .error .nameTooLong
  else
    match area.walk (if path.startsWith "/" then .outside else .inside []) (componentsOf path) with
    | .error problem => .error problem
    | .ok .outside => .error .isDirectory
    | .ok (.inside names) =>
      match area.isDirectory names, area.file? names with
      | false, some content => .ok content
      | _, _ => .error .isDirectory

def read (area : FileArea) : FileReader := fun path =>
  if path.contains '\x00' then .error .nulInPath
  else
    match area.openFile path with
    | .ok content => .ok content
    | .error problem => .error (.refused problem path)

end FileArea

/-- A path without what does not matter in it: components that are empty or `.` are dropped, and
nothing at all is `.`. Leading slashes become one, except that exactly two stay. -/
def tidyPath (path : String) : String :=
  let slashes := (path.toList.takeWhile (· = '/')).length
  let root := if slashes = 0 then "" else if slashes = 2 then "//" else "/"
  let body := root ++ "/".intercalate (FileArea.namesOf path).reverse
  if body = "" then "." else body

/-- The last name in a path. -/
def lastName (path : String) : String := (FileArea.namesOf path).headD ""

end Chip8

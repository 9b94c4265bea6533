import DiagramScene.Cli.Path
import DiagramScene.Raster.Render

/-!
# Files

A `Files` holds what is in a directory and below it: contents by name, where a name is a path from
that directory on.  Directories are there as far as files are in them.  Of what lies outside, the
directories are known to which dots lead, those right below the root of the system, and some
devices.

Reading and writing fail as an operating system does: an entry that is not there, a directory
where a file is wanted, a file where a directory is wanted, and names and paths that are too long.
-/

namespace DiagramScene.Cli

/-- Why a file cannot be read or written. -/
inductive FileError where
  /-- The system refuses, with a number for the reason. -/
  | system (reason : String) (code : Nat)
  /-- The path holds a character that no path can hold. -/
  | zeroInPath
  /-- The content is no text. -/
  | notText
  deriving DecidableEq, Repr

namespace FileError

/-- There is no such file. -/
def missing : FileError := system "No such file or directory" 2

/-- There is no room for the content of the file. -/
def outOfMemory : FileError := system "Cannot allocate memory" 12

/-- A part of the path is a file. -/
def notDirectory : FileError := system "Not a directory" 20

/-- The path leads to a directory. -/
def isDirectory : FileError := system "Is a directory" 21

/-- The file cannot grow. -/
def noSpace : FileError := system "No space left on device" 28

/-- A part of the path, or the path as a whole, is too long. -/
def nameTooLong : FileError := system "File name too long" 36

/-- The wording of an error. -/
def message : FileError → String
  | system reason code => s!"{reason} (os error {code})"
  | zeroInPath => "file name contained an unexpected NUL byte"
  | notText => "stream did not contain valid UTF-8"

end FileError

/-- The contents of files, by their names. -/
abbrev Files := Keyed Content

/-- A device that stands where a file could stand. -/
inductive Device where
  /-- Is empty, and swallows what is written to it. -/
  | null
  /-- Is never read to its end, and takes nothing. -/
  | full
  /-- The standard input. -/
  | input
  /-- The standard output. -/
  | output
  deriving DecidableEq, Repr

/-- What stands at a place. -/
inductive Entry where
  | file (content : Content)
  | directory
  | device (device : Device)
  deriving DecidableEq, Repr

namespace Files

/-- A place in the tree: the parts of the path to it, last one first, from the directory of the run
or from the root of the system on. -/
structure Place where
  fromRoot : Bool
  parts : List (List Char)
  deriving DecidableEq, Repr

/-- The name of the file at a place. -/
def nameOf (place : Place) : String := String.ofList (Text.join ['/'] place.parts.reverse)

/-- The directories right below the root. -/
def topDirectories : List String :=
  ["bin", "boot", "dev", "etc", "home", "lib", "media", "mnt", "opt", "proc", "root", "run", "sbin",
    "srv", "sys", "tmp", "usr", "var"]

/-- The devices that are known. -/
def devices : List (String × Device) :=
  [("dev/null", .null), ("dev/full", .full), ("dev/stdin", .input), ("dev/stdout", .output)]

/-- There is a directory at a place. -/
def isDirectoryAt (files : Files) (place : Place) : Bool :=
  if place.fromRoot then place.parts.isEmpty || topDirectories.contains (nameOf place)
  else
    place.parts.all (· == Path.above) ||
      files.any fun f => ((nameOf place).toList ++ ['/']).isPrefixOf f.1.toList

/-- What is known to stand at a place. -/
def entryAt? (files : Files) (place : Place) : Option Entry :=
  if isDirectoryAt files place then some .directory
  else if place.fromRoot then (devices.lookup (nameOf place)).map .device
  else (files.get? (nameOf place)).map .file

/-- The place that one part of a path leads to.  Nothing is above the root. -/
def enter (place : Place) (part : List Char) : Place :=
  if part = Path.same then place
  else if part = Path.above then
    match place.parts with
    | [] => if place.fromRoot then place else { place with parts := [part] }
    | last :: before =>
      if last = Path.above then { place with parts := part :: place.parts }
      else { place with parts := before }
  else { place with parts := part :: place.parts }

/-- The number of bytes that a part of a path may have. -/
def partLimit : Nat := 255

/-- The number of bytes that a path may have. -/
def pathLimit : Nat := 4095

/-- The number of bytes of a text. -/
def size (text : List Char) : Nat := (String.ofList text).utf8ByteSize

/-- The place that one part of a path leads to, if the part may be asked for there. -/
def step (files : Files) (place : Place) (part : List Char) : Except FileError Place :=
  match entryAt? files place with
  | none => .error .missing
  | some (.file _) | some (.device _) => .error .notDirectory
  | some .directory =>
    if partLimit < size part then .error .nameTooLong else .ok (enter place part)

/-- The place that parts of a path lead to.  Each part has to start from a directory. -/
def walk (files : Files) : Place → List (List Char) → Except FileError Place
  | place, [] => .ok place
  | place, part :: rest => do walk files (← step files place part) rest

/-- The parts of a path that are not empty. -/
def steps (path : String) : List (List Char) := (Path.parts path).filter (!·.isEmpty)

/-- The path ends with a slash. -/
def endsOpen (path : String) : Bool := path.toList.getLast? == some '/'

/-- The place from which a path leads on: the root if it begins with a slash. -/
def origin (path : String) : Place := ⟨path.toList.head? == some '/', []⟩

/-- Refuses a path that is no path of any place. -/
def checkPath (path : String) : Except FileError Unit :=
  if path.toList.contains '\x00' then .error .zeroInPath
  else if path.isEmpty then .error .missing
  else if pathLimit < path.utf8ByteSize then .error .nameTooLong
  else .ok ()

/-- What a path leads to. -/
def locate (files : Files) (path : String) : Except FileError Entry := do
  checkPath path
  let place ← walk files (origin path) (steps path)
  match entryAt? files place with
  | none => .error .missing
  | some .directory => .ok .directory
  | some entry => if endsOpen path then .error .notDirectory else .ok entry

/-- There is a directory where a path leads to. -/
def hasDirectory (files : Files) (path : String) : Bool :=
  match locate files path with
  | .ok .directory => true
  | _ => false

/-- The content of what a path leads to, given what stands on the standard input. -/
def read (files : Files) (input : Content) (path : String) : Except FileError Content := do
  match ← locate files path with
  | .directory => .error .isDirectory
  | .file content => .ok content
  | .device .input => .ok input
  | .device .full => .error .outOfMemory
  | .device _ => .ok (.bytes [])

/-- What becomes of a content that is written. -/
inductive Written where
  /-- It is in a file now. -/
  | stored (files : Files)
  /-- It is on the standard output. -/
  | shown
  /-- It has left no trace that is known of. -/
  | gone

/-- Writes a content to a device. -/
def writeDevice : Device → Except FileError Written
  | .full => .error .noSpace
  | .output => .ok .shown
  | .null | .input => .ok .gone

/-- Writes a content to a path. -/
def write (files : Files) (path : String) (content : Content) : Except FileError Written := do
  checkPath path
  match (steps path).reverse with
  | [] => .error .isDirectory
  | last :: before =>
    let directory ← walk files (origin path) before.reverse
    match entryAt? files directory with
    | none => .error .missing
    | some (.file _) | some (.device _) => .error .notDirectory
    | some .directory =>
      if endsOpen path || last = Path.same || last = Path.above then .error .isDirectory
      else do
        let place ← step files directory last
        match entryAt? files place with
        | some .directory => .error .isDirectory
        | some (.device device) => writeDevice device
        | some (.file _) => .ok (.stored (files.put (nameOf place) content))
        | none =>
          if directory.fromRoot || directory.parts.contains Path.above then .ok .gone
          else .ok (.stored (files.put (nameOf place) content))

end Files

end DiagramScene.Cli

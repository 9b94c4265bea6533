import DiagramScene.Cli.Run
import Std.Time.DateTime.Timestamp

/-!
# The program

Reads what a run needs, does the run, and writes what comes of it.  Painting is not part of the
program: images in PNG and JPEG are measured and checked, but not written.
-/

namespace DiagramScene.Program

open Cli Service

/-- The reason that the system gives for a failure. -/
def fileErrorOf : IO.Error → FileError
  | .noFileOrDirectory .. => .missing
  | .inappropriateType _ code details => .system details code.toNat
  | .permissionDenied _ code details => .system details code.toNat
  | .resourceExhausted _ code details => .system details code.toNat
  | .invalidArgument _ code details => .system details code.toNat
  | e => .system (toString e) 5

/-- Does something with files, and notes why it fails if it does. -/
def attempt {α : Type} (action : IO α) : IO (Except FileError α) := do
  try return .ok (← action) catch e => return .error (fileErrorOf e)

/-- The bytes of a file. -/
def readBytes (path : String) : IO (Except FileError Bytes) :=
  attempt do return (← IO.FS.readBinFile path).toList

/-- The number of fonts in a directory; `none` if there is no such directory. -/
def facesOf (path : String) : IO (Option Nat) := do
  match ← readBytes path with
  | .error (.system _ 21) => return some 0
  | _ => return none

/-- The settings that the environment gives. -/
def readSettings : IO Settings := do
  let names := ["SCRAWL_MAX_CONCURRENT_RENDERS", "SCRAWL_RENDER_TIMEOUT_MS", "SCRAWL_FONT_DIRS",
    "SCRAWL_FONT_FAMILY"]
  let values ← names.mapM fun name => return (name, ← IO.getEnv name)
  return .ofLookup fun name => (values.lookup name).join

/-- The input is the standard input. -/
def readsStandardInput (args : Args) : Bool :=
  args.input.isNone || args.input == some standardStream

/-- What the run finds around it. -/
def readWorld (args : Args) : IO World := do
  let settings ← readSettings
  let input ←
    if readsStandardInput args then
      pure (← (← IO.getStdin).readBinToEnd).toList
    else pure []
  let paths := args.input.toList ++ args.options.layout.toList
  let contents ← paths.mapM fun path => return (path, ← readBytes path)
  let faces ← settings.fonts.dirs.mapM fun dir => return (dir, ← facesOf dir)
  let time ← Std.Time.Timestamp.now
  return {
    input := input
    read := fun path => (contents.lookup path).getD (.error .missing)
    settings := settings
    facesIn := fun dir => (faces.lookup dir).join
    now := Int64.ofInt time.toMillisecondsSinceUnixEpoch.val }

/-- Ends with the message of an error. -/
def endWith (e : CliError) : IO UInt32 := do
  IO.eprintln e.message
  return 1

/-- Hands a result on. -/
def handOn (d : Delivery) : IO UInt32 := do
  match d.content.bytes? with
  | none => endWith (.raster (.unavailable "no painter for images is installed") [])
  | some bytes =>
    let data := bytes.toByteArray
    match d.target with
    | .standardOutput => do
      (← IO.getStdout).write data
      return 0
    | .file path => match ← attempt (IO.FS.writeBinFile path data) with
      | .ok () => return 0
      | .error e => endWith (.file e)

/-- Does what the words of a command line ask for. -/
def start (words : List String) : IO UInt32 := do
  match Args.ofWords? words with
  | none =>
    IO.eprintln usage
    return 2
  | some args =>
    let world ← readWorld args
    let seed ← IO.monoNanosNow
    match run (IdSource.random world.now) world args (mkStdGen seed) with
    | .error e => endWith e
    | .ok d => handOn d

end DiagramScene.Program

/-- Runs the program. -/
def main (words : List String) : IO UInt32 := DiagramScene.Program.start words

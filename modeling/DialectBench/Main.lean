import DialectBench.Disk.Difference
import DialectBench.Program
import DialectBench.Shell.Start
import Std.Time.Format

/-! The command line: the file tree is read, the program runs on it, and what it changed is written
back. Scripts are followed by the shell of this library. -/

namespace DialectBench.Console

/-- The names in a text of a path. -/
def placeOf (text : String) : Location :=
  (text.splitOn "/").filter fun name => !name.isEmpty

/-- The text of a place. -/
def textOf (place : Location) : String :=
  "/" ++ "/".intercalate place

/-- A point in time in nanoseconds. -/
def nanoseconds (time : IO.FS.SystemTime) : Int :=
  time.sec * 1000000000 + time.nsec.toNat

/-- A file counts as a program if it tells what runs it. -/
def tellsInterpreter (content : Bytes) : Bool :=
  content.take 2 = Text.encode "#!"

/-- The entry at a place and all below it; what cannot be read counts as missing. -/
partial def readTree (place : Location) : IO (List (Location × Node)) := do
  let entry : IO.FS.DirEntry := ⟨"/", "/".intercalate place⟩
  try
    let facts ← entry.path.symlinkMetadata
    let time := nanoseconds facts.modified
    match facts.type with
    | .dir =>
      let inner ← entry.path.readDir
      let below ← inner.toList.mapM fun entry => readTree (place ++ [entry.fileName])
      return (place, .directory time) :: below.flatten
    | .file =>
      let content := (← IO.FS.readBinFile entry.path).toList
      return [(place, .file content (tellsInterpreter content) time)]
    | .symlink => return [(place, .link ⟨toString (← IO.FS.realPath entry.path)⟩)]
    | .other => return []
  catch _ => return []

/-- The directories that lead to a place, the outermost first. -/
def leading (place : Location) : List (Location × Node) :=
  ((List.range place.length).drop 1).map fun count => (place.take count, .directory 0)

/-- Places without those that lie below others of them. -/
def outermost (places : List Location) : List Location :=
  places.eraseDups.filter fun place => !places.any fun other => (other.below? place).isSome

/-- The file tree below some places. -/
def readDisk (current : Location) (places : List Location) (clock : Int) : IO Disk := do
  let places := outermost (current :: places)
  let trees ← places.mapM readTree
  let known := trees.flatten
  let above := (places.flatMap leading).eraseDups.filter fun (place, _) =>
    (known.lookup place).isNone
  return { entries := above ++ known, current, clock }

/-- Makes a change of the file tree. -/
def perform : Change → IO Unit
  | .makeDirectory place => IO.FS.createDir (textOf place)
  | .writeFile place content => IO.FS.writeBinFile (textOf place) ⟨content.toArray⟩
  | .copyFile place content executable => do
    IO.FS.writeBinFile (textOf place) ⟨content.toArray⟩
    if executable then IO.Prim.setAccessRights (textOf place) 0o755
  | .extendFile place content => do
    let handle ← IO.FS.Handle.mk (textOf place) .append
    handle.write ⟨content.toArray⟩
  | .delete place => do
    try IO.FS.removeFile (textOf place) catch _ => IO.FS.removeDir (textOf place)
  | .adopt _ => return ()

/-- The present time in the two forms in which it is written down, and in nanoseconds. -/
def readClock : IO (Moment × Int) := do
  let stamp ← Std.Time.PlainDateTime.now
  let now ← Std.Time.Timestamp.now
  let universal := Std.Time.DateTime.ofTimestampWithZone now Std.Time.TimeZone.UTC
  let seconds := now.toSecondsSinceUnixEpoch.val
  return (⟨stamp.format "uuuuMMdd-HHmmss", universal.format "uuuu-MM-dd'T'HH:mm:ss'Z'"⟩,
    seconds * 1000000000)

/-- The environment variables that matter. -/
def readEnvironment : IO CommandLine.Environment :=
  ("HOME" :: "PATH" :: CommandLine.variableNames).filterMapM fun name => do
    return (← IO.getEnv name).map fun value => (name, value)

/-- The places that words and variables name. -/
def namedPlaces (words : List String) (environment : CommandLine.Environment) : List Location :=
  let values := environment.filterMap fun (name, value) =>
    if name = "HOME" || name = "PATH" then none else some value
  let texts := words.flatMap (fun word => word.splitOn "=") ++ values
  ((texts.filter fun text => (Path.mk text).isAbsolute).map placeOf).filter fun place => place ≠ []

end DialectBench.Console

open DialectBench in
/-- Runs the program on the words of the command line. -/
def main (words : List String) : IO UInt32 := do
  let environment ← Console.readEnvironment
  let (moment, clock) ← Console.readClock
  let current := Console.placeOf (toString (← IO.currentDir))
  let disk ← Console.readDisk current (Console.namedPlaces words environment) clock
  let session : Session := { scene := { disk, interrupted := false, moment } }
  let surroundings : Surroundings := ⟨environment, Shell.starter environment⟩
  let (outcome, after) := Program.execute surroundings words session
  (disk.differences after.scene.disk).forM Console.perform
  let output ← IO.getStdout
  output.write ⟨after.shown.toArray⟩
  (after.events.reverse.map Event.line ++ outcome.lines).forM fun line => IO.eprintln line
  return UInt32.ofNat (outcome.exitCode % 256).toNat

import DialectBench.Fault
import DialectBench.Number.Whole
import DialectBench.Text.Line
import DialectBench.Text.Blank

/-! The lab: where the workspace, the logs and the results are, and what the containers are
called. -/

namespace DialectBench

/-- The places and names that all commands share. -/
structure Lab where
  /-- The directory of the scripts. -/
  home : Path
  /-- The workspace as it was given. -/
  workspaceRoot : Path
  /-- The checkout with the build wrapper. -/
  workspace : Path
  /-- The directory of temporary files. -/
  temp : Path
  /-- The directory of the logs of runs. -/
  logs : Path
  /-- The directory of all results. -/
  results : Path
  /-- The directory of collections and summaries. -/
  runs : Path
  /-- The directory of the logs of single tests. -/
  repro : Path
  /-- The container of MySQL. -/
  mysqlContainer : String
  /-- The container of TiDB. -/
  tidbContainer : String
  /-- The image in which the tests run. -/
  runnerImage : String
  /-- The cache of the build tool. -/
  gradleCache : Path
  deriving DecidableEq, Repr

namespace Lab

/-- The directories that a run writes into, in the order in which they are made. -/
def workingDirectories (lab : Lab) : List Path :=
  [lab.temp, lab.logs, lab.results, lab.runs]

/-- The checkout: the given directory, or the one in it that bears the name of the project. -/
def workspaceAt (d : Disk) (root : Path) : Except Failure Path :=
  let nested := root / "hibernate-orm"
  if d.exists? (root / "gradlew") then .ok root
  else if d.exists? (nested / "gradlew") then .ok nested
  else .error (.of (.workspaceNotFound root nested))

/-- The least Java version that a line of the build properties names. -/
def javaVersion? (line : String) : Option Nat :=
  match Text.splitOnce '=' (Text.trimmed line) with
  | some (key, value) =>
    if Text.trimmed key = "orm.jdk.min" then
      Number.wholeBelow? (Number.capacity 32) (Text.trim value.toList)
    else none
  | none => none

/-- The image with the least Java version that the build of a workspace asks for. -/
def suggestedImage (d : Disk) (workspace : Path) : String :=
  let version := (d.readText? (workspace / "gradle.properties")).bind fun content =>
    (Text.lines content).findSome? javaVersion?
  "eclipse-temurin:" ++ toString (version.getD 25) ++ "-jdk"

end Lab

end DialectBench

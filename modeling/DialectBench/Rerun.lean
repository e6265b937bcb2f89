import DialectBench.Failing.Selection
import DialectBench.Lab
import DialectBench.Bench.Execute
import DialectBench.Text.Slug

/-! Running one failing test again, with the query log of the database around it if wanted. -/

namespace DialectBench

/-- The kinds of results that a failing test may come from. -/
inductive ResultsKind where
  /-- TiDB with its own dialect. -/
  | tidbTidbdialect
  /-- TiDB with the MySQL dialect. -/
  | tidbMysqldialect
  /-- MySQL. -/
  | mysql
  deriving DecidableEq, Repr

namespace ResultsKind

/-- The kinds with their names. -/
def names : List (String × ResultsKind) :=
  [("tidb-tidbdialect", tidbTidbdialect), ("tidb-mysqldialect", tidbMysqldialect),
    ("mysql", mysql)]

/-- The name of a kind. -/
def name : ResultsKind → String
  | tidbTidbdialect => "tidb-tidbdialect"
  | tidbMysqldialect => "tidb-mysqldialect"
  | mysql => "mysql"

/-- What the names of collections of a kind begin with. -/
def collectionStart (kind : ResultsKind) : String :=
  kind.name ++ "-results"

end ResultsKind

/-- Where a test is run. -/
inductive Venue where
  /-- In a container. -/
  | docker
  /-- Directly. -/
  | host
  deriving DecidableEq, Repr

namespace Venue

/-- The venues with their names. -/
def names : List (String × Venue) := [("docker", docker), ("host", host)]

/-- The name of a venue. -/
def name : Venue → String
  | docker => "docker"
  | host => "host"

end Venue

/-- How the database is reached when its query log is turned on and off. -/
structure Connection where
  /-- The host. -/
  host : String
  /-- The number under which the host answers. -/
  portNumber : Nat
  /-- The user. -/
  user : String
  /-- The password. -/
  password : Option String
  /-- The image of the client. -/
  clientImage : String
  deriving DecidableEq, Repr

/-- What is to be run again, and how. -/
structure RerunOptions where
  /-- The directory of the results. -/
  runRoot : Option Path
  /-- The kind of the results, if no directory is given. -/
  resultsType : ResultsKind
  /-- The failing tests are only listed. -/
  listOnly : Bool
  /-- The test that is asked for. -/
  selection : Option Selection
  /-- What is used instead of what the test says. -/
  overrides : Overrides
  /-- The database profile of the build. -/
  profile : String
  /-- More arguments of the build. -/
  gradleArguments : List String
  /-- The name of the database in the environment of the build. -/
  rdbms : String
  /-- The query log is captured. -/
  captureLog : Bool
  /-- How the database is reached. -/
  connection : Connection
  /-- Where the test is run. -/
  venue : Venue
  /-- The image in which the test is run. -/
  image : String
  /-- The command is only planned. -/
  dryRun : Bool
  /-- How long the test may be silent. -/
  timing : Watching.Timing
  deriving DecidableEq, Repr

/-- What comes of running a test again. -/
inductive RerunOutcome where
  /-- The failing tests were listed. -/
  | listed (lines : List String)
  /-- The command was planned. -/
  | planned (command : Command)
  /-- The test was run. -/
  | finished (exitCode : Int) (gradleLog : Path) (queryLog : Option Path)
  deriving DecidableEq, Repr

/-- The exit code of the program. -/
def RerunOutcome.exitCode : RerunOutcome → Int
  | finished code _ _ => code
  | _ => 0

/-- What a test is run again with. -/
structure Rerun where
  /-- The places and names. -/
  lab : Lab
  /-- What is to be run, and how. -/
  options : RerunOptions
  /-- What launches the commands. -/
  runner : Runner

namespace Rerun

/-- The first success among searches, or the last failure. -/
def firstFound (failure : Failure) : List (Except Failure Path) → Except Failure Path
  | [] => .error failure
  | .ok path :: _ => .ok path
  | .error next :: rest => firstFound next rest

/-- The directories in which results are looked for. -/
def searchDirectories (lab : Lab) : List Path :=
  if lab.temp.components = lab.runs.components then [lab.runs] else [lab.runs, lab.temp]

/-- The directory of the results: the given one, or the newest one of the wanted kind. -/
def runRoot (d : Disk) (lab : Lab) (options : RerunOptions) : Except Failure Path :=
  match options.runRoot with
  | some path => if d.exists? path then .ok path else .error (.of (.runRootMissing path))
  | none =>
    firstFound (.of .noSearchDirectory)
      ((searchDirectories lab).map fun directory =>
        latestRunRoot d directory options.resultsType.collectionStart)

/-- The build wrapper as it is called inside a container. -/
def containerWrapper : String := "/workspace/gradlew"

/-- The variable that names the database to the build, if there is a name. -/
def rdbmsVariables (rdbms : String) : List (String × String) :=
  if rdbms.isEmpty then [] else [("RDBMS", rdbms)]

/-- The script that runs a build command inside a container. -/
def containerScript (rdbms program : String) (arguments : List String) : String :=
  let wrapper := if Text.endsWith program "gradlew" then containerWrapper else program
  let script := Shell.joinWords (wrapper :: arguments)
  if rdbms.isEmpty then script else "env RDBMS=" ++ Shell.quote rdbms ++ " " ++ script

/-- The command that runs a build command in the wanted venue. -/
def wrapCommand (lab : Lab) (options : RerunOptions) (gradle : List String) :
    Except Failure Command :=
  match gradle with
  | [] => .error (.of .emptyCommand)
  | program :: arguments =>
    match options.venue with
    | .host => .ok { program, arguments, directory := some lab.workspace,
                     bindings := rdbmsVariables options.rdbms }
    | .docker => .ok {
        program := docker,
        arguments := ["run", "--rm", "--network", "container:" ++ lab.tidbContainer, "-v",
          lab.workspace.text ++ ":/workspace", "-w", "/workspace", options.image, "bash", "-lc",
          containerScript options.rdbms program arguments] }

/-- The command that has the database run a statement. -/
def statementCommand (rerun : Rerun) (statement : String) : Command :=
  let connection := rerun.options.connection
  { program := docker,
    arguments := ["run", "--rm", "--network", "container:" ++ rerun.lab.tidbContainer,
        connection.clientImage, "mysql", "-h", connection.host, "-P",
        toString connection.portNumber, "-u", connection.user]
      ++ (connection.password.toList.map fun password => "-p" ++ password)
      ++ ["-e", statement] }

/-- The command that turns the query log on or off. -/
def switchCommand (rerun : Rerun) (enabled : Bool) : Command :=
  rerun.statementCommand
    ("SET GLOBAL tidb_general_log = " ++ (if enabled then "1" else "0"))

/-- Turns the query log on or off as far as possible. -/
def switchLog (rerun : Rerun) (enabled : Bool) : Action Unit := do
  match ← Action.attempt (Action.runToSuccess rerun.runner (rerun.switchCommand enabled)) with
  | .ok _ => return ()
  | .error _ => Action.warn "failed to toggle TiDB general log"

/-- The command that prints what the database has logged since a time. -/
def logsCommand (rerun : Rerun) (since : String) : Command where
  program := docker
  arguments := ["logs", rerun.lab.tidbContainer, "--since", since]

/-- Writes the content of a file as far as possible. -/
def writeLog (path : Path) (content : Bytes) : Action Unit := do
  match ← Action.look fun d => d.writing path content with
  | .ok change => Action.perform change
  | .error _ => Action.warn "failed to write TiDB log"

/-- Captures what the database has logged since a time as far as possible. -/
def saveQueries (rerun : Rerun) (since : String) (path : Path) : Action Unit := do
  match ← Action.attempt (Action.run rerun.runner (rerun.logsCommand since)) with
  | .error _ => Action.warn "failed to collect TiDB container logs"
  | .ok output =>
    writeLog path (Text.encode (output.stdout ++ output.stderr))
    if output.status ≠ 0 then
      Action.warn "docker logs exited with an error; output may be partial"

/-- The exit code of a test that could not be launched. -/
def launchFailureCode : Int := 1

/-- The exit code that comes of a watched command; only an interruption is passed on. -/
def codeOf (outcome : Except Failure Ending) : Action Int :=
  match outcome with
  | .ok ending => do
    Bench.describeEnding ending
    return ending.exitCode
  | .error failure =>
    if failure.isInterruption then throw failure
    else do
      Action.tell (.error "reproduction could not be launched")
      return launchFailureCode

/-- The start of the names of the logs of a test. -/
def logStem (stamp pattern : String) : String :=
  stamp ++ "-" ++ Text.slug pattern

/-- The log of the build. -/
def gradleLog (lab : Lab) (stem : String) : Path :=
  lab.repro / (stem ++ ".gradle.log")

/-- The log of the queries. -/
def queryLog (lab : Lab) (stem : String) : Path :=
  lab.repro / (stem ++ ".tidb.log")

/-- Runs the test while its output goes to a log. -/
def watch (rerun : Rerun) (command : Command) (log : Path) : Action (Except Failure Ending) :=
  Action.attempt (Action.stream rerun.runner command log rerun.options.timing)

/-- Runs the test between turning the query log on and off, and captures it. -/
def watchCaptured (rerun : Rerun) (command : Command) (log queries : Path) :
    Action (Except Failure Ending) := do
  let since ← Action.universal
  rerun.switchLog true
  -- Whatever comes of the test, the log is captured and then turned off.
  let outcome ← rerun.watch command log
  rerun.saveQueries since queries
  rerun.switchLog false
  return outcome

/-- Runs the command of a test. -/
def launch (rerun : Rerun) (target : RerunTarget) (command : Command) : Action RerunOutcome := do
  Action.prepareDirectory rerun.lab.repro
  let stem := logStem (← Action.stamp) target.pattern
  let log := gradleLog rerun.lab stem
  let queries := queryLog rerun.lab stem
  if rerun.options.captureLog then
    let outcome ← rerun.watchCaptured command log queries
    return .finished (← codeOf outcome) log (some queries)
  else
    let outcome ← rerun.watch command log
    return .finished (← codeOf outcome) log none

/-- The target and the command of a selection. -/
def plan (d : Disk) (lab : Lab) (options : RerunOptions) (tests : List FailingTest) :
    Except Failure (RerunTarget × Command) := do
  match options.selection with
  | none => .error (.of .missingSelection)
  | some selection =>
    let target ← selection.resolve tests options.overrides
    let gradle ← target.gradleWords d lab.workspace options.profile options.gradleArguments
    let command ← wrapCommand lab options gradle
    return (target, command)

/-- Lists the failing tests, or runs one of them again. -/
def execute (rerun : Rerun) : Action RerunOutcome := do
  let d ← Action.disk
  let root ← Action.ofExcept (runRoot d rerun.lab rerun.options)
  let tests := FailingTest.below d root
  if rerun.options.listOnly then return .listed (FailingTest.listing tests)
  else
    let (target, command) ← Action.ofExcept (plan d rerun.lab rerun.options tests)
    if rerun.options.dryRun then return .planned command
    else rerun.launch target command

/-- The lines in which an outcome is told. -/
def outcomeLines : RerunOutcome → List String
  | .listed [] => ["No failing tests were found."]
  | .listed lines => "Failing tests:" :: lines
  | .planned command => [command.render]
  | .finished _ gradleLog queryLog =>
    ("Gradle log: " ++ gradleLog.text)
      :: queryLog.toList.map fun path => "TiDB log:   " ++ path.text

end Rerun

end DialectBench

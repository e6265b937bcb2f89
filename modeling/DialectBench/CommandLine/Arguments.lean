import DialectBench.CommandLine.Grammar
import DialectBench.Rerun

/-! The subcommands, their options, and what was given for each of them. -/

namespace DialectBench.CommandLine

/-- The names of a table in order. -/
def namesOf {α : Type} (table : List (String × α)) : List String :=
  table.map Prod.fst

/-- The options that describe the lab. -/
def labSpecs : List OptionSpec := [
  { name := "lab-home", form := .path, variableName := some "LAB_HOME_DIR" },
  { name := "workspace", form := .path, variableName := some "WORKSPACE_DIR" },
  { name := "temp-dir", form := .path, variableName := some "TEMP_DIR" },
  { name := "log-dir", form := .path, variableName := some "LOG_DIR" },
  { name := "results-dir", form := .path, variableName := some "RESULTS_DIR" },
  { name := "results-runs-dir", form := .path, variableName := some "RESULTS_RUNS_DIR" },
  { name := "results-repro-dir", form := .path, variableName := some "RESULTS_RUNS_REPRO_DIR" },
  { name := "mysql-container", variableName := some "MYSQL_CONTAINER_NAME" },
  { name := "tidb-container", variableName := some "TIDB_CONTAINER_NAME" },
  { name := "runner-image", variableName := some "RUN_COMPARISON_RUNNER_IMAGE" },
  { name := "gradle-user-home", form := .path, variableName := some "GRADLE_USER_HOME" }]

/-- A flag. -/
def flag (name : String) : OptionSpec := { name, taking := .flag }

/-- The options that limit the silence of a command. -/
def silenceSpecs : List OptionSpec := [
  { name := "idle-timeout", form := .signed },
  { name := "heartbeat", form := .signed, variableName := some "IDLE_WATCHDOG_HEARTBEAT" }]

/-- The options of a comparison. -/
def runSpecs : List OptionSpec := labSpecs ++ [
  flag "mysql-only", flag "tidb-only",
  { name := "tidb-dialect", form := .among (namesOf DialectChoice.names) },
  flag "skip-clean", flag "skip-mysql", flag "skip-tidb", flag "stop-on-failure", flag "dry-run",
  flag "compare-only",
  { flag "skip-tidb-patch" with variableName := some "SKIP_TIDB_PATCH" },
  { name := "extra-args", variableName := some "RUN_COMPARISON_EXTRA_ARGS" }] ++ silenceSpecs

/-- The bound of the numbers under which hosts answer. -/
def portBound : Nat := 65536

/-- The options of running a test again. -/
def reproSpecs : List OptionSpec := labSpecs ++ [
  { name := "run-root", form := .path },
  { name := "results-type", form := .among (namesOf ResultsKind.names) },
  flag "list",
  { name := "select", form := .below Number.wordSize },
  { name := "test" }, { name := "method" }, { name := "module" }, { name := "gradle-task" },
  { name := "gradle-profile" },
  { name := "gradle-arg", taking := .each },
  { name := "rdbms-env" },
  flag "capture-general-log",
  { name := "tidb-host" },
  { name := "tidb-port", form := .signedBelow portBound },
  { name := "tidb-user" }, { name := "tidb-password" }, { name := "docker-mysql-image" },
  { name := "runner", form := .among (namesOf Venue.names),
    variableName := some "REPRO_TEST_RUNNER" },
  { name := "docker-image", variableName := some "REPRO_TEST_RUNNER_IMAGE" },
  flag "dry-run"] ++ silenceSpecs

/-- The options of watching a command. -/
def watchSpecs : List OptionSpec := [
  { name := "timeout", form := .signed, required := true },
  { name := "heartbeat", form := .signed, variableName := some "IDLE_WATCHDOG_HEARTBEAT" },
  { name := "log-file", form := .path, required := true }]

/-- The options of collecting results. -/
def collectSpecs : List OptionSpec := [
  { name := "root", form := .path },
  { name := "dest", form := .path, required := true },
  { name := "log", form := .path },
  { name := "log-dir", form := .path, variableName := some "LOG_DIR" },
  { name := "timestamp" },
  flag "remove-source",
  { name := "backend" }]

/-- The options of summarizing results. -/
def summarizeSpecs : List OptionSpec := [
  { name := "root", form := .path },
  { name := "json-out", form := .path },
  { name := "log", form := .path },
  { name := "log-dir", form := .path, variableName := some "LOG_DIR" },
  { name := "manifest", form := .path },
  { name := "timestamp" }]

/-- The options of cleaning up. -/
def cleanupSpecs : List OptionSpec := labSpecs ++ [
  { name := "gradle-image" },
  { name := "containers", taking := .all },
  flag "skip-containers", flag "skip-gradle-clean", flag "purge-gradle-cache",
  flag "skip-temp-clean", flag "skip-report-clean", flag "prune-collections", flag "dry-run"]

/-- What was given to describe the lab. -/
structure LabArguments where
  /-- The directory of the scripts. -/
  home : Option Path := none
  /-- The workspace. -/
  workspace : Option Path := none
  /-- The directory of temporary files. -/
  temp : Option Path := none
  /-- The directory of logs. -/
  logs : Option Path := none
  /-- The directory of results. -/
  results : Option Path := none
  /-- The directory of collections and summaries. -/
  runs : Option Path := none
  /-- The directory of the logs of single tests. -/
  repro : Option Path := none
  /-- The container of MySQL. -/
  mysqlContainer : String := "mysql"
  /-- The container of TiDB. -/
  tidbContainer : String := "tidb"
  /-- The image in which the tests run. -/
  runnerImage : Option String := none
  /-- The home of the build tool. -/
  gradleUserHome : Option Path := none
  deriving DecidableEq, Repr

/-- What was given for a comparison. -/
structure RunArguments where
  /-- The lab. -/
  lab : LabArguments
  /-- Only MySQL. -/
  mysqlOnly : Bool
  /-- Only TiDB. -/
  tidbOnly : Bool
  /-- The TiDB dialects. -/
  tidbDialect : DialectChoice
  /-- Without cleaning the caches. -/
  skipClean : Bool
  /-- Without MySQL. -/
  skipMysql : Bool
  /-- Without TiDB. -/
  skipTidb : Bool
  /-- The build stops at a failed task. -/
  stopOnFailure : Bool
  /-- Only tell what would be done. -/
  dryRun : Bool
  /-- Only compare. -/
  compareOnly : Bool
  /-- Without patching the workspace. -/
  skipTidbPatch : Bool
  /-- What is added to the build command. -/
  extraArguments : Option String
  /-- The longest silence in seconds. -/
  idleTimeout : Int
  /-- The time between notices in seconds. -/
  heartbeat : Option Int
  deriving DecidableEq, Repr

/-- What was given for running a test again. -/
structure ReproArguments where
  /-- The lab. -/
  lab : LabArguments
  /-- The directory of the results. -/
  runRoot : Option Path
  /-- The kind of the results. -/
  resultsType : ResultsKind
  /-- Only list the failing tests. -/
  list : Bool
  /-- The position of the test. -/
  select : Option Nat
  /-- The name of the test. -/
  test : Option String
  /-- The method. -/
  method : Option String
  /-- The module. -/
  module : Option String
  /-- The build task. -/
  gradleTask : Option String
  /-- The database profile of the build. -/
  gradleProfile : String
  /-- More arguments of the build. -/
  gradleArguments : List String
  /-- The name of the database in the environment of the build. -/
  rdbms : String
  /-- Capture the query log. -/
  captureLog : Bool
  /-- How the database is reached. -/
  connection : Connection
  /-- Where the test is run. -/
  runner : Venue
  /-- The image in which the test is run. -/
  image : String
  /-- Only plan the command. -/
  dryRun : Bool
  /-- The longest silence in seconds. -/
  idleTimeout : Int
  /-- The time between notices in seconds. -/
  heartbeat : Option Int
  deriving DecidableEq, Repr

/-- What was given for watching a command. -/
structure WatchArguments where
  /-- The longest silence in seconds. -/
  timeout : Int
  /-- The time between notices in seconds. -/
  heartbeat : Option Int
  /-- The log. -/
  logFile : Path
  /-- The words of the command. -/
  command : List String
  deriving DecidableEq, Repr

/-- What was given for collecting results. -/
structure CollectArguments where
  /-- The workspace. -/
  root : Path
  /-- The directory of the collection without its stamp. -/
  destination : Path
  /-- The log of the run. -/
  log : Option Path
  /-- The directory of logs. -/
  logDirectory : Option Path
  /-- The stamp of the run. -/
  timestamp : Option String
  /-- Remove what was copied. -/
  removeSource : Bool
  /-- The backend. -/
  backend : Option String
  deriving DecidableEq, Repr

/-- What was given for cleaning up. -/
structure CleanupArguments where
  /-- The lab. -/
  lab : LabArguments
  /-- The image in which the workspace is cleaned. -/
  gradleImage : String
  /-- The containers. -/
  containers : Option (List String)
  /-- Without containers. -/
  skipContainers : Bool
  /-- Without the build's cleaning. -/
  skipGradleClean : Bool
  /-- Remove the cache of the build. -/
  purgeGradleCache : Bool
  /-- Without temporary files. -/
  skipTempClean : Bool
  /-- Without reports. -/
  skipReportClean : Bool
  /-- Remove complete collections. -/
  pruneCollections : Bool
  /-- Only tell what would be done. -/
  dryRun : Bool
  deriving DecidableEq, Repr

/-- A subcommand with what was given for it. -/
inductive Invocation where
  /-- Run a comparison. -/
  | run (arguments : RunArguments)
  /-- Run a failing test again. -/
  | repro (arguments : ReproArguments)
  /-- Watch a command. -/
  | watch (arguments : WatchArguments)
  /-- Collect results. -/
  | collect (arguments : CollectArguments)
  /-- Summarize results. -/
  | summarize (request : Summary.Request)
  /-- Clean up. -/
  | cleanup (arguments : CleanupArguments)
  deriving DecidableEq, Repr

namespace Given

/-- The value of an option as a path. -/
def path? (given : Given) (name : String) : Option Path :=
  (given.value? name).map Path.mk

/-- The value of an option as a signed number. -/
def signed? (given : Given) (name : String) : Option Int :=
  (given.value? name).bind fun value => Number.signedWithin? 64 value.toList

/-- The value of an option as a whole number. -/
def whole? (given : Given) (name : String) : Option Nat :=
  (given.value? name).bind fun value => Number.wholeBelow? Number.wordSize value.toList

/-- The value of an option by its name in a table. -/
def among {α : Type} (given : Given) (table : List (String × α)) (usual : α) (name : String) : α :=
  ((given.value? name).bind fun value => table.lookup value).getD usual

/-- What was given to describe the lab. -/
def lab (given : Given) : LabArguments where
  home := given.path? "lab-home"
  workspace := given.path? "workspace"
  temp := given.path? "temp-dir"
  logs := given.path? "log-dir"
  results := given.path? "results-dir"
  runs := given.path? "results-runs-dir"
  repro := given.path? "results-repro-dir"
  mysqlContainer := (given.value? "mysql-container").getD "mysql"
  tidbContainer := (given.value? "tidb-container").getD "tidb"
  runnerImage := given.value? "runner-image"
  gradleUserHome := given.path? "gradle-user-home"

/-- The longest silence in seconds. -/
def idleTimeout (given : Given) : Int :=
  (given.signed? "idle-timeout").getD 1800

/-- What was given for a comparison. -/
def run (given : Given) : RunArguments where
  lab := given.lab
  mysqlOnly := given.has "mysql-only"
  tidbOnly := given.has "tidb-only"
  tidbDialect := given.among DialectChoice.names .both "tidb-dialect"
  skipClean := given.has "skip-clean"
  skipMysql := given.has "skip-mysql"
  skipTidb := given.has "skip-tidb"
  stopOnFailure := given.has "stop-on-failure"
  dryRun := given.has "dry-run"
  compareOnly := given.has "compare-only"
  skipTidbPatch := given.has "skip-tidb-patch"
  extraArguments := given.value? "extra-args"
  idleTimeout := given.idleTimeout
  heartbeat := given.signed? "heartbeat"

/-- The image in which the workspace is built unless another one is given. -/
def usualImage : String := "eclipse-temurin:21-jdk"

/-- What was given for running a test again. -/
def repro (given : Given) : ReproArguments where
  lab := given.lab
  runRoot := given.path? "run-root"
  resultsType := given.among ResultsKind.names .tidbTidbdialect "results-type"
  list := given.has "list"
  select := given.whole? "select"
  test := given.value? "test"
  method := given.value? "method"
  module := given.value? "module"
  gradleTask := given.value? "gradle-task"
  gradleProfile := (given.value? "gradle-profile").getD "tidb"
  gradleArguments := (given.values? "gradle-arg").getD []
  rdbms := (given.value? "rdbms-env").getD "tidb"
  captureLog := given.has "capture-general-log"
  connection := {
    host := (given.value? "tidb-host").getD "127.0.0.1"
    portNumber := ((given.value? "tidb-port").bind (countBelow? portBound)).getD 4000
    user := (given.value? "tidb-user").getD "root"
    password := given.value? "tidb-password"
    clientImage := (given.value? "docker-mysql-image").getD "mysql:8.0" }
  runner := given.among Venue.names .docker "runner"
  image := (given.value? "docker-image").getD usualImage
  dryRun := given.has "dry-run"
  idleTimeout := given.idleTimeout
  heartbeat := given.signed? "heartbeat"

/-- What was given for watching a command. -/
def watch (given : Given) (rest : List String) : WatchArguments where
  timeout := (given.signed? "timeout").getD 0
  heartbeat := given.signed? "heartbeat"
  logFile := (given.path? "log-file").getD ⟨""⟩
  command := rest

/-- What was given for collecting results. -/
def collect (given : Given) : CollectArguments where
  root := (given.path? "root").getD ⟨"."⟩
  destination := (given.path? "dest").getD ⟨""⟩
  log := given.path? "log"
  logDirectory := given.path? "log-dir"
  timestamp := given.value? "timestamp"
  removeSource := given.has "remove-source"
  backend := given.value? "backend"

/-- What was given for summarizing results. -/
def summarize (given : Given) : Summary.Request where
  root := (given.path? "root").getD ⟨"."⟩
  jsonOut := given.path? "json-out"
  log := given.path? "log"
  manifest := given.path? "manifest"
  timestamp := given.value? "timestamp"
  logDirectory := given.path? "log-dir"

/-- What was given for cleaning up. -/
def cleanup (given : Given) : CleanupArguments where
  lab := given.lab
  gradleImage := (given.value? "gradle-image").getD usualImage
  containers := given.values? "containers"
  skipContainers := given.has "skip-containers"
  skipGradleClean := given.has "skip-gradle-clean"
  purgeGradleCache := given.has "purge-gradle-cache"
  skipTempClean := given.has "skip-temp-clean"
  skipReportClean := given.has "skip-report-clean"
  pruneCollections := given.has "prune-collections"
  dryRun := given.has "dry-run"

end Given

/-- What the words after a subcommand give, if there is one of that name. -/
def readSubcommand (environment : Environment) (name : String) (words : List String) :
    Option (Except Refusal Invocation) :=
  let plain (specs : List OptionSpec) (build : Given → Invocation) : Except Refusal Invocation :=
    (readOptions specs false environment words).map fun (given, _) => build given
  match name with
  | "run" => some (plain runSpecs fun given => .run given.run)
  | "repro" => some (plain reproSpecs fun given => .repro given.repro)
  | "watch" =>
    some ((readOptions watchSpecs true environment words).map fun (given, rest) =>
      .watch (given.watch rest))
  | "collect" => some (plain collectSpecs fun given => .collect given.collect)
  | "summarize" => some (plain summarizeSpecs fun given => .summarize given.summarize)
  | "cleanup" => some (plain cleanupSpecs fun given => .cleanup given.cleanup)
  | _ => none

/-- The names of the subcommands. -/
def subcommandNames : List String :=
  ["run", "repro", "watch", "collect", "summarize", "cleanup", "help"]

/-- All options of all subcommands. -/
def allSpecs : List OptionSpec :=
  runSpecs ++ reproSpecs ++ watchSpecs ++ collectSpecs ++ summarizeSpecs ++ cleanupSpecs

/-- How the program is called. -/
def usage : String :=
  "usage: <subcommand> [option]..., with one of the subcommands "
    ++ ", ".intercalate subcommandNames

/-- The environment variables that the options know. -/
def variableNames : List String :=
  (allSpecs.filterMap OptionSpec.variableName).eraseDups

/-- Help on a subcommand, if the words name one. -/
def readHelp : List String → Refusal
  | [] => .help
  | [name] => if subcommandNames.contains name then .help else .invalidSubcommand
  | _ => .invalidSubcommand

/-- What a command line without the program gives. -/
def read (environment : Environment) : List String → Except Refusal Invocation
  | [] => .error .missingSubcommand
  | word :: words =>
    if word = "help" then .error (readHelp words)
    else
      match readSubcommand environment word words with
      | some result => result
      | none =>
        if word = "--" then
          match words with
          | [] => .error .missingSubcommand
          | next :: _ =>
            .error (if subcommandNames.contains next then .unknownArgument else .invalidSubcommand)
        else
          match longOption? word with
          | some (name, value) =>
            if name = "help" || name = "version" then
              if value.isSome then .error .tooManyValues
              else .error (if name = "help" then .help else .version)
            else .error .unknownArgument
          | none =>
            match shortOption? word with
            | some 'h' => .error .help
            | some 'V' => .error .version
            | some _ => .error .unknownArgument
            | none => .error .invalidSubcommand

end DialectBench.CommandLine

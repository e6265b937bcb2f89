import DialectBench.Collection.Copy
import DialectBench.Bench.Stage
import DialectBench.Bench.Target
import DialectBench.Summary.Account

/-! A whole comparison: every target runs through the same stages, and one that fails at a stage is
given up while the others go on. -/

namespace DialectBench

/-- What a comparison is to do. -/
structure BenchOptions where
  /-- The caches are not cleaned. -/
  skipClean : Bool := false
  /-- MySQL is left out. -/
  skipMysql : Bool := false
  /-- TiDB is left out. -/
  skipTidb : Bool := false
  /-- The TiDB dialects. -/
  tidbDialect : DialectChoice := .both
  /-- The build goes on after a failed task. -/
  gradleContinue : Bool := true
  /-- Nothing is done, and everything is told. -/
  dryRun : Bool := false
  /-- No tests are run. -/
  compareOnly : Bool := false
  /-- The workspace is not patched for TiDB. -/
  skipTidbPatch : Bool := false
  /-- What is added to the build command. -/
  extraArguments : Option String := none
  /-- How long the tests may be silent. -/
  timing : Watching.Timing
  deriving DecidableEq, Repr

/-- What a comparison works with. -/
structure Bench where
  /-- The places and names. -/
  lab : Lab
  /-- What is to be done. -/
  options : BenchOptions
  /-- What launches the commands. -/
  runner : Runner

/-- The container tool. -/
def docker : String := "docker"

/-- Tests that have run. -/
structure FinishedTests where
  /-- The stamp of the run. -/
  stamp : String
  /-- The log. -/
  log : Path
  /-- The exit code. -/
  exitCode : Int
  deriving DecidableEq, Repr

namespace Suite

/-- The directories of the build output that make the results of a target. -/
def transientNames : List String := [resultsName, reportsName, "classes"]

/-- A way leads to a directory of results somewhere below a build output. -/
def isTransientWay (way : List String) : Bool :=
  match way.getLast? with
  | some name => transientNames.contains name && way.dropLast.contains outputName
  | none => false

/-- The ways of a list that are wanted and lead through no earlier wanted one. -/
def outermost (wanted : List String → Bool) (chosen : List (List String)) :
    List (List String) → List (List String)
  | [] => chosen
  | way :: ways =>
    if chosen.any fun outer => outer.isPrefixOf way then outermost wanted chosen ways
    else if wanted way then outermost wanted (chosen ++ [way]) ways
    else outermost wanted chosen ways

/-- The ways to the outermost directories of results in a workspace. -/
def transientWays (d : Disk) (workspace : Path) : List (List String) :=
  outermost isTransientWay [] (d.directoryWays workspace)

/-- The outermost directories of results in a workspace. -/
def transientDirectories (d : Disk) (workspace : Path) : List Path :=
  (transientWays d workspace).map workspace.extend

end Suite

namespace Bench

/-- Makes a directory, or tells of it in a rehearsal. -/
def prepareDirectory (bench : Bench) (path : Path) : Action Unit :=
  if bench.options.dryRun then
    Action.tell (.rehearsal "would create directory" [("path", path.text)])
  else Action.prepareDirectory path

/-- Makes directories in turn. -/
def prepareDirectories (bench : Bench) : List Path → Action Unit
  | [] => return ()
  | path :: paths => do
    bench.prepareDirectory path
    bench.prepareDirectories paths

/-- Removes a directory with all in it, or tells of it in a rehearsal. -/
def deleteTree (bench : Bench) (path : Path) : Action Unit := do
  if bench.options.dryRun then
    Action.tell (.rehearsal "would remove directory" [("path", path.text)])
  else
    let _ ← Action.removeIfPresent path

/-- The command that asks whether the container tool works. -/
def infoCommand : Command := { program := docker, arguments := ["info"], quiet := true }

/-- Makes the directories that a run writes into, and makes sure that containers can be started. -/
def prepareRun (bench : Bench) : Action Unit := do
  bench.prepareDirectories bench.lab.workingDirectories
  let output ← Action.within .dockerMissing (Action.run bench.runner infoCommand)
  if output.succeeded then return ()
  else Action.refuse (.daemonUnavailable output.status)

/-- The command that cleans a workspace inside a container. -/
def cleanCommand (workspace : Path) (image : String) : Command where
  program := docker
  arguments := ["run", "--rm", "-v", workspace.text ++ ":/workspace", "-w", "/workspace", image,
    "./gradlew", "clean"]

/-- Cleans the workspace and the cache of the build. -/
def clearCaches (bench : Bench) : Action Unit := do
  if bench.options.skipClean then
    Action.warn "skipping Gradle cache cleaning (--skip-clean)"
  else
    let _ ← Action.runToSuccess bench.runner
      (cleanCommand bench.lab.workspace bench.lab.runnerImage)
    bench.deleteTree bench.lab.gradleCache

/-- The command that runs a script of the lab on the workspace. -/
def scriptCommand (bench : Bench) (script : String) (extra : List String) : Command where
  program := "python3"
  arguments := ["scripts/" ++ script, bench.lab.workspace.text] ++ extra
  directory := some bench.lab.home

/-- The command that patches the workspace for TiDB. -/
def patchCommand (bench : Bench) : Command :=
  bench.scriptCommand "patch_docker_db_tidb.py" []

/-- Patches the workspace for TiDB. -/
def adaptWorkspace (bench : Bench) : Action Unit := do
  if bench.options.skipTidbPatch then
    Action.warn "skipping patch_docker_db_tidb.py (SKIP_TIDB_PATCH)"
  else
    let _ ← Action.runToSuccess bench.runner bench.patchCommand

/-- The command that patches the configuration with a preset. -/
def presetCommand (bench : Bench) (preset : String) : Command :=
  bench.scriptCommand "patch_local_databases_gradle.py" ["--dialect", preset]

/-- Patches the configuration with a preset. -/
def setPreset (bench : Bench) (preset : String) : Action Unit := do
  let _ ← Action.runToSuccess bench.runner (bench.presetCommand preset)

/-- Checks the configuration of a target's database. -/
def checkDialect (bench : Bench) (target : Target) : Action Unit := do
  let _ ← Action.ofExcept
    (← Action.look fun d => Dialect.checked d bench.lab.workspace target.backend)

/-- The command that removes a container. -/
def removeCommand (container : String) : Command where
  program := docker
  arguments := ["rm", "-f", container]
  quiet := true

/-- The command that starts the database of a target. -/
def startCommand (bench : Bench) (target : Target) : Command where
  program := "./docker_db.sh"
  arguments := [target.backend.rdbms]
  directory := some bench.lab.workspace
  bindings := [("DB_COUNT", "4")]

/-- The command that asks for the container of a target. -/
def inspectCommand (target : Target) : Command where
  program := docker
  arguments := ["container", "inspect", target.container]
  quiet := true

/-- Starts the database of a target in a new container. -/
def startDatabase (bench : Bench) (target : Target) : Action Unit := do
  let _ ← Action.run bench.runner (removeCommand target.container)
  let _ ← Action.within (.scriptFailed target.backend.name)
    (Action.runToSuccess bench.runner (bench.startCommand target))
  let inspected ← Action.run bench.runner (inspectCommand target)
  if inspected.succeeded then return ()
  else Action.refuse (.containerDown target.container)

/-- Removes a container as far as possible; one that stays is told. -/
def dropContainer (bench : Bench) (container : String) : Action Unit := do
  match ← Action.attempt (Action.run bench.runner (removeCommand container)) with
  | .ok output =>
    if output.succeeded then return () else Action.warn "failed to remove container"
  | .error _ => Action.warn "failed to remove container"

/-- The command that runs the tests of a target. -/
def testCommand (bench : Bench) (target : Target) : Command where
  program := docker
  arguments := target.testArguments bench.lab
    (target.buildLine bench.options.gradleContinue bench.options.extraArguments)
  directory := some bench.lab.workspace

/-- The container of the tests may still be there. -/
def isStranded (outcome : Except Failure Ending) : Bool :=
  match outcome with
  | .ok ending =>
    ending.timedOut || ending.exitCode == Watching.idleCode
      || ending.exitCode == Watching.interruptedCode
  | .error _ => true

/-- Tells how a watched command ended, if it did not succeed. -/
def describeEnding (ending : Ending) : Action Unit :=
  if ending.exitCode = 0 then return ()
  else if ending.timedOut then Action.warn "command killed after idle timeout"
  else Action.warn "command failed"

/-- Runs the tests of a target. -/
def launchTests (bench : Bench) (target : Target) : Action FinishedTests := do
  let stamp ← Action.stamp
  let log := target.logPath bench.lab.logs stamp
  let outcome ← Action.attempt
    (Action.stream bench.runner (bench.testCommand target) log bench.options.timing)
  -- The container of the tests is joined to that of the database, so it goes first.
  if isStranded outcome then bench.dropContainer target.testContainer
  let ending ← Action.ofExcept outcome
  Action.stopIfAsked
  describeEnding ending
  return { stamp, log, exitCode := ending.exitCode }

/-- What is collected after the tests of a target. -/
def collectRequest (bench : Bench) (target : Target) (execution : FinishedTests) :
    CollectionOrder where
  root := bench.lab.workspace
  destination := target.collectionStart bench.lab.runs
  timestamp := execution.stamp
  log := some execution.log
  logDirectory := some bench.lab.logs
  backend := some target.backend.rdbms

/-- Collects the results of a target, or tells of it in a rehearsal. -/
def gatherResults (bench : Bench) (target : Target) (execution : FinishedTests) :
    Action Path := do
  let request := bench.collectRequest target execution
  if bench.options.dryRun then
    let planned := Collection.directoryFor request.destination request.timestamp
    Action.tell (.rehearsal "would collect results" [("destination", planned.text)])
    return planned
  else Collection.collect request

/-- What is summarized after the tests of a target. -/
def summaryRequest (bench : Bench) (target : Target) (collection : Path) (stamp : String) :
    Summary.Request where
  root := collection
  jsonOut := some (target.summaryStart bench.lab.runs)
  timestamp := some stamp
  logDirectory := some bench.lab.logs

/-- Summarizes the collection of a target and tells it, or tells of it in a rehearsal. -/
def summarizeResults (bench : Bench) (target : Target) (collection : Path) (stamp : String) :
    Action Path := do
  let planned := Summary.jsonPath (target.summaryStart bench.lab.runs) stamp
  if bench.options.dryRun then
    Action.tell (.rehearsal "would generate summary"
      [("label", target.summaryLabel), ("path", planned.text)])
    return planned
  else
    let result ← Summary.summarize (bench.summaryRequest target collection stamp)
    Action.printLines (Summary.accountLines result)
    return result.jsonPath.getD planned

/-- Goes through a stage: a failure gives the target up, and an interruption the whole run. -/
def stage {α : Type} (name : Stage) (action : Action α) (next : α → Action TargetFate) :
    Action TargetFate := do
  match Progress.ofResult (← Action.attempt action) with
  | .done value => next value
  | .failed reason => return .abandoned name reason
  | .fatal failure => throw failure

/-- Patches the configuration if the target has a preset. -/
def presetStage (bench : Bench) (target : Target) (next : Action TargetFate) :
    Action TargetFate :=
  match target.preset with
  | some preset => stage .setPreset (bench.setPreset preset) fun _ => next
  | none => next

/-- The stages of a target from the start of its database on. -/
def backendStages (bench : Bench) (target : Target) : Action TargetFate :=
  stage .startDatabase (bench.startDatabase target) fun _ =>
  stage .launchTests (bench.launchTests target) fun execution =>
  stage .collect (bench.gatherResults target execution) fun collection =>
  stage .summarize (bench.summarizeResults target collection execution.stamp) fun summary =>
  return .completed collection summary execution.exitCode

/-- Goes through the stages from the start of the database on, and removes its container whatever
comes of them. -/
def withBackend (bench : Bench) (target : Target) : Action TargetFate := do
  -- An interruption, too, is passed on only after the container is gone.
  let outcome ← Action.attempt (bench.backendStages target)
  bench.dropContainer target.container
  Action.ofExcept outcome

/-- Goes through all stages of a target. -/
def drive (bench : Bench) (target : Target) : Action TargetFate :=
  stage .clearCaches bench.clearCaches fun _ =>
  bench.presetStage target <|
  stage .checkDialect (bench.checkDialect target) fun _ =>
  bench.withBackend target

/-- Removes directories as far as possible; one that stays is told. -/
def removeAll : List Path → Action Unit
  | [] => return ()
  | path :: paths => do
    match ← Action.attempt (Action.removeIfPresent path) with
    | .ok _ => removeAll paths
    | .error _ =>
      Action.warn "failed to remove"
      removeAll paths

/-- Removes the results from the workspace, or tells of it in a rehearsal. -/
def cleanResults (bench : Bench) : Action Unit := do
  let doomed ← Action.look fun d => Suite.transientDirectories d bench.lab.workspace
  if bench.options.dryRun then
    Action.tell (.rehearsal "would clean test results in workspace"
      [("directories", toString doomed.length)])
  else removeAll doomed

/-- Runs a target; the workspace is cleaned for the one that follows. -/
def tryTarget (bench : Bench) (target : Target) (follows : Bool) : Action TargetRecord := do
  Action.stopIfAsked
  let status ← bench.drive target
  if follows then bench.cleanResults
  return ⟨target.identifier, status⟩

/-- Runs targets in turn. -/
def tryTargets (bench : Bench) : List Target → Action (List TargetRecord)
  | [] => return []
  | target :: targets => do
    -- The results of a target would count for the next one if they stayed.
    let report ← bench.tryTarget target (!targets.isEmpty)
    return report :: (← bench.tryTargets targets)

/-- Patches the workspace and runs the TiDB targets; without the patch all of them are given up. -/
def tryVariants (bench : Bench) : Action (List TargetRecord) := do
  let plan := Target.variants bench.lab bench.options.tidbDialect
  match Progress.ofResult (← Action.attempt bench.adaptWorkspace) with
  | .done _ => bench.tryTargets plan
  | .failed reason =>
    Action.warn "TiDB workspace patch failed; abandoning all variants"
    return plan.map fun target => ⟨target.identifier, .abandoned .adaptWorkspace reason⟩
  | .fatal failure => throw failure

/-- Runs MySQL unless it is left out. -/
def tryBaseline (bench : Bench) : Action (List TargetRecord) := do
  if bench.options.skipMysql then return []
  else
    let report ← bench.tryTarget (Target.baseline bench.lab) (!bench.options.skipTidb)
    return [report]

/-- Runs all targets unless they are only to be compared. -/
def tryAll (bench : Bench) : Action (List TargetRecord) := do
  if bench.options.compareOnly then return []
  else
    let first ← bench.tryBaseline
    if bench.options.skipTidb then return first
    else return first ++ (← bench.tryVariants)

/-- The newest summaries are compared at the end. -/
def compares (options : BenchOptions) : Bool :=
  options.compareOnly || (!options.skipMysql && !options.skipTidb)

/-- Tells of every target that was given up. -/
def tellGivenUp (reports : List TargetRecord) : Action Unit :=
  (reports.filter TargetRecord.isGivenUp).forM fun _ => Action.warn "target abandoned"

/-- Runs a whole comparison. -/
def execute (bench : Bench) : Action BenchReport := do
  bench.prepareRun
  let targets ← bench.tryAll
  let comparisons ←
    if compares bench.options then Comparison.compareNewest bench.lab.runs else pure []
  tellGivenUp targets
  return { targets, comparisons }

end Bench

end DialectBench

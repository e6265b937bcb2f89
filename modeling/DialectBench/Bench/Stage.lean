import DialectBench.Fault
import DialectBench.Bench.Comparison

/-! The stages of a target, what may come of them, and the report of a whole comparison. -/

namespace DialectBench

/-- A stage of the work on a target. -/
inductive Stage where
  /-- Cleaning the caches of the build. -/
  | clearCaches
  /-- Patching the workspace for TiDB. -/
  | adaptWorkspace
  /-- Patching the configuration with a preset. -/
  | setPreset
  /-- Checking the dialect and the driver. -/
  | checkDialect
  /-- Starting the database. -/
  | startDatabase
  /-- Running the tests. -/
  | launchTests
  /-- Collecting the results. -/
  | collect
  /-- Summarizing the collection. -/
  | summarize
  deriving DecidableEq, Repr

/-- The name of a stage. -/
def Stage.name : Stage → String
  | clearCaches => "clean-caches"
  | adaptWorkspace => "patch-workspace"
  | setPreset => "apply-preset"
  | checkDialect => "verify-dialect"
  | startDatabase => "start-backend"
  | launchTests => "run-tests"
  | collect => "collect"
  | summarize => "summarize"

/-- The stages with their names, in the order in which a target goes through them. -/
def Stage.names : List (String × Stage) :=
  [clearCaches, adaptWorkspace, setPreset, checkDialect, startDatabase, launchTests, collect,
    summarize].map fun stage => (stage.name, stage)

/-- What comes of a stage. -/
inductive Progress (α : Type) where
  /-- The work goes on. -/
  | done (value : α)
  /-- The target is given up. -/
  | failed (reason : String)
  /-- The whole run is given up. -/
  | fatal (failure : Failure)
  deriving Repr

/-- An interruption ends the whole run, and any other failure the target. -/
def Progress.ofResult {α : Type} : Except Failure α → Progress α
  | .ok value => done value
  | .error failure => if failure.isInterruption then fatal failure else failed failure.account

/-- What became of a target. -/
inductive TargetFate where
  /-- All stages were passed. -/
  | completed (collection summary : Path) (testExitCode : Int)
  /-- The target was given up at a stage. -/
  | abandoned (stage : Stage) (reason : String)
  deriving DecidableEq, Repr

/-- The report of a target. -/
structure TargetRecord where
  /-- The identifier of the target. -/
  identifier : String
  /-- What became of it. -/
  status : TargetFate
  deriving DecidableEq, Repr

/-- The target was given up. -/
def TargetRecord.isGivenUp (report : TargetRecord) : Bool :=
  match report.status with
  | .completed .. => false
  | .abandoned .. => true

/-- The report of a whole comparison. -/
structure BenchReport where
  /-- The targets in the order in which they ran. -/
  targets : List TargetRecord := []
  /-- The comparisons. -/
  comparisons : List Comparison := []
  deriving Repr

namespace BenchReport

/-- The exit code of the program: two if a target was given up. -/
def exitCode (report : BenchReport) : Int :=
  if report.targets.any TargetRecord.isGivenUp then 2 else 0

/-- The line of a target. -/
def targetLine (target : TargetRecord) : String :=
  "  " ++ Text.padRight 20 target.identifier ++
    match target.status with
    | .completed _ summary code =>
      " completed (tests exit " ++ toString code ++ ") -> " ++ summary.text
    | .abandoned stage reason => " abandoned at " ++ stage.name ++ ": " ++ reason

/-- The lines in which a comparison is told, the targets first. -/
def lines (report : BenchReport) : List String :=
  (if report.targets.isEmpty then [] else ["Targets:"])
    ++ report.targets.map targetLine
    ++ report.comparisons.flatMap fun comparison => "" :: Comparison.table comparison

end BenchReport

end DialectBench

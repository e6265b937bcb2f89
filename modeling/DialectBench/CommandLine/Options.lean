import DialectBench.Cleanup
import DialectBench.CommandLine.Arguments

/-! What the subcommands are to do, made from what was given for them. -/

namespace DialectBench

namespace CommandLine

/-- A place that must be given. -/
def required (value : Option Path) (variableName option : String) : Except Failure Path :=
  match value with
  | some path =>
    if path.text.isEmpty then .error (.of (.settingMissing variableName option)) else .ok path
  | none => .error (.of (.settingMissing variableName option))

/-- The home of the build tool: the given one, or the usual one in the home of the user. -/
def gradleHome (environment : Environment) (given : Option Path) : Path :=
  given.getD ((⟨(environment.lookup "HOME").getD ""⟩ : Path) / ".gradle")

end CommandLine

open CommandLine

/-- The lab that arguments describe; places that are not given lie in those that are. -/
def Lab.ofArguments (d : Disk) (environment : Environment) (given : LabArguments) :
    Except Failure Lab := do
  let home ← required given.home "LAB_HOME_DIR" "--lab-home"
  let workspaceRoot ← required given.workspace "WORKSPACE_DIR" "--workspace"
  let workspace ← workspaceAt d workspaceRoot
  let temp ← required given.temp "TEMP_DIR" "--temp-dir"
  let results := given.results.getD (home / "results")
  let runs := given.runs.getD (results / "runs")
  return {
    home, workspaceRoot, workspace, temp,
    logs := given.logs.getD (temp / "log"),
    results, runs,
    repro := given.repro.getD (runs / "repro"),
    mysqlContainer := given.mysqlContainer,
    tidbContainer := given.tidbContainer,
    runnerImage := (given.runnerImage.filter fun image => !Text.isAllBlank image).getD
      (suggestedImage d workspace),
    gradleCache := gradleHome environment given.gradleUserHome / "caches" }

/-- What a comparison is to do; asking for one database alone leaves the other one out. -/
def BenchOptions.ofArguments (given : RunArguments) : Except Failure BenchOptions :=
  if given.mysqlOnly && given.tidbOnly then .error (.of .conflictingTargets)
  else .ok {
    skipClean := given.skipClean
    skipMysql := given.skipMysql || given.tidbOnly
    skipTidb := given.skipTidb || given.mysqlOnly
    tidbDialect := given.tidbDialect
    gradleContinue := !given.stopOnFailure
    dryRun := given.dryRun
    compareOnly := given.compareOnly
    skipTidbPatch := given.skipTidbPatch
    extraArguments := given.extraArguments.filter fun extra => !Text.isAllBlank extra
    timing := .ofSeconds given.idleTimeout given.heartbeat }

/-- The failing test that is asked for; only a listing can do without one. -/
def Selection.ofArguments (given : ReproArguments) : Except Failure (Option Selection) :=
  match given.select, given.test with
  | some _, some _ => .error (.of .conflictingSelection)
  | some position, none => .ok (some (.index position))
  | none, some test => .ok (some (.identifier test given.module))
  | none, none => if given.list then .ok none else .error (.of .missingSelection)

/-- What is to be run again, and how. -/
def RerunOptions.ofArguments (given : ReproArguments) : Except Failure RerunOptions :=
  (Selection.ofArguments given).map fun selection => {
    runRoot := given.runRoot
    resultsType := given.resultsType
    listOnly := given.list
    selection
    overrides := { method := given.method, task := given.gradleTask }
    profile := given.gradleProfile
    gradleArguments := given.gradleArguments
    rdbms := given.rdbms
    captureLog := given.captureLog
    connection := given.connection
    venue := given.runner
    image := given.image
    dryRun := given.dryRun
    timing := .ofSeconds given.idleTimeout given.heartbeat }

/-- The containers to be removed: those that were given, or the databases of the lab; a blank name
is no container. -/
def CleanupScope.containersOf (given : CleanupArguments) (lab : Lab) : List String :=
  if given.skipContainers then []
  else
    (given.containers.getD [lab.tidbContainer, lab.mysqlContainer]).filter fun name =>
      !Text.isAllBlank name

/-- What is to be cleaned up. -/
def CleanupScope.ofArguments (given : CleanupArguments) (lab : Lab) : CleanupScope where
  containers := containersOf given lab
  image := given.gradleImage
  gradleClean := !given.skipGradleClean
  purgeCache := given.purgeGradleCache
  cleanTemp := !given.skipTempClean
  cleanReports := !given.skipReportClean
  pruneCollections := given.pruneCollections
  dryRun := given.dryRun

end DialectBench

import DialectBench.Disk.Resolve

/-! What can go wrong, in the words of the bench. -/

namespace DialectBench

/-- A reason to give up, or a step that was under way when something else was the reason. -/
inductive Fault where
  /-- The operator stopped the run. -/
  | interrupted
  /-- The system refused. -/
  | os (refusal : OsError)
  /-- A reason stated elsewhere. -/
  | stated (text : String)
  /-- A directory could not be made. -/
  | createDirectory (path : Path)
  /-- A JSON file could not be opened for writing. -/
  | createJson (path : Path)
  /-- A file could not be read. -/
  | readFile (path : Path)
  /-- A file does not hold what it should. -/
  | parseFile (path : Path)
  /-- A directory could not be gone through. -/
  | walk (path : Path)
  /-- The system refused to work with a path. -/
  | inaccessible (path : Path) (refusal : OsError)
  /-- A file could not be copied. -/
  | copyFile (source target : Path)
  /-- An entry could not be removed. -/
  | remove (path : Path)
  /-- The directory of a collection is taken. -/
  | destinationExists (path : Path)
  /-- The directory of a collection could not be made. -/
  | createCollection (path : Path)
  /-- A workspace holds no results. -/
  | noResults (root : Path)
  /-- A workspace holds modules but nothing to copy. -/
  | nothingCopied
  /-- The log of a run could not be copied. -/
  | copyLog (source target : Path)
  /-- The directory to summarize does not exist. -/
  | rootNotFound (path : Path)
  /-- A test identifier names no class. -/
  | invalidIdentifier (identifier : String)
  /-- A failure is selected from none. -/
  | nothingToSelect
  /-- A failure is selected beyond the last one. -/
  | selectionOutOfRange (count index : Nat)
  /-- No failure tells the module of a class. -/
  | unknownModule (classname : String)
  /-- The directory of the results does not exist. -/
  | resultsNotFound (path : Path)
  /-- No directory of results has the wanted name. -/
  | noRunRoots (start : String) (path : Path)
  /-- No run root can be looked for. -/
  | noSearchDirectory
  /-- The workspace has no build wrapper. -/
  | missingWrapper (path : Path)
  /-- A required place is not given. -/
  | settingMissing (name option : String)
  /-- Neither place holds a checkout. -/
  | workspaceNotFound (first second : Path)
  /-- Each of two targets is asked for alone. -/
  | conflictingTargets
  /-- A failure is selected in two ways. -/
  | conflictingSelection
  /-- No failure is selected. -/
  | missingSelection
  /-- The configuration of the databases cannot be read. -/
  | configurationMissing (path : Path)
  /-- The configuration has no block for a backend. -/
  | blockMissing (backend : String) (path : Path)
  /-- A backend is configured with a foreign dialect. -/
  | unexpectedDialect (dialect : String)
  /-- A backend is configured with a foreign driver. -/
  | unexpectedDriver (driver : String)
  /-- The container tool cannot be launched. -/
  | dockerMissing
  /-- The container service does not answer. -/
  | daemonUnavailable (status : Int)
  /-- The script that starts a database failed. -/
  | scriptFailed (backend : String)
  /-- A database container does not run after it was started. -/
  | containerDown (name : String)
  /-- A command ended with a status that is no success. -/
  | exited (command : String) (status : Int) (words : String)
  /-- A command could not be launched. -/
  | cannotExecute (command : String)
  /-- A watched command could not be launched. -/
  | cannotSpawn (program : String)
  /-- A launch is refused. -/
  | launchRefused (words : String)
  /-- A log file could not be opened. -/
  | openLog (path : Path)
  /-- A directory could not be listed. -/
  | readDirectory (path : Path)
  /-- The given run root does not exist. -/
  | runRootMissing (path : Path)
  /-- A command has no program. -/
  | emptyCommand
  /-- Nothing is to be watched. -/
  | nothingToWatch
  deriving DecidableEq, Repr

/-- The wording of a fault. -/
def Fault.message : Fault → String
  | interrupted => "interrupted by operator"
  | os refusal => refusal.message
  | stated text => text
  | createDirectory path => "failed to create directory: " ++ path.text
  | createJson path => "failed to create json file: " ++ path.text
  | readFile path => "failed to read " ++ path.text
  | parseFile path => "failed to parse " ++ path.text
  | walk path => "failed to walk " ++ path.text
  | inaccessible path refusal =>
    "IO error for operation on " ++ path.text ++ ": " ++ refusal.message
  | copyFile source target => "failed to copy " ++ source.text ++ " to " ++ target.text
  | remove path => "failed to remove " ++ path.text
  | destinationExists path => "destination already exists: " ++ path.text
  | createCollection path => "failed to create collection directory: " ++ path.text
  | noResults root => "no test results were found under " ++ root.text
  | nothingCopied => "located modules, but no test-results/reports directories were copied"
  | copyLog source target => "failed to copy log " ++ source.text ++ " to " ++ target.text
  | rootNotFound path => "root path not found: " ++ path.text
  | invalidIdentifier identifier =>
    "invalid test identifier `" ++ identifier
      ++ "`; expected package.ClassName or package.ClassName#method"
  | nothingToSelect => "no failures were found to select from"
  | selectionOutOfRange count index =>
    "--select must be between 1 and " ++ toString count ++ " (got " ++ toString index ++ ")"
  | unknownModule classname =>
    "unable to determine the Gradle module for " ++ classname
      ++ "; pass --module <module-name> (e.g. hibernate-core)"
  | resultsNotFound path => "results directory not found: " ++ path.text
  | noRunRoots start path => "no directories matching " ++ start ++ "* under " ++ path.text
  | noSearchDirectory => "unable to locate any run directories"
  | missingWrapper path =>
    "gradlew not found at " ++ path.text ++ "; verify the workspace path"
  | settingMissing name option =>
    name ++ " is not set; export it or pass " ++ option
  | workspaceNotFound first second =>
    "unable to locate the hibernate-orm workspace (checked " ++ first.text ++ " and "
      ++ second.text ++ "); point WORKSPACE_DIR at the checkout or its parent"
  | conflictingTargets => "cannot combine --mysql-only and --tidb-only"
  | conflictingSelection => "--select and --test cannot be combined"
  | missingSelection => "provide either --select N or --test package.ClassName#method"
  | configurationMissing path => "configuration file not found: " ++ path.text
  | blockMissing backend path =>
    "unable to locate the `" ++ backend ++ "` block in " ++ path.text
  | unexpectedDialect dialect => "unexpected TiDB dialect `" ++ dialect ++ "`"
  | unexpectedDriver driver => "unexpected TiDB driver `" ++ driver ++ "`"
  | dockerMissing => "docker not found; install Docker Desktop or the docker CLI"
  | daemonUnavailable status =>
    "docker daemon is unavailable (`docker info` exited with " ++ toString status ++ ")"
  | scriptFailed backend => backend ++ " database script failed"
  | containerDown name => name ++ " container is not running after docker_db.sh completed"
  | exited command status words =>
    "`" ++ command ++ "` exited with status " ++ toString status
      ++ (if words.isEmpty then "" else ": " ++ words)
  | cannotExecute command => "failed to execute `" ++ command ++ "`"
  | cannotSpawn program => "failed to spawn " ++ program
  | launchRefused words => "failed to launch `" ++ words ++ "`"
  | openLog path => "failed to open log file: " ++ path.text
  | readDirectory path => "failed to read " ++ path.text
  | runRootMissing path => "run root does not exist: " ++ path.text
  | emptyCommand => "empty Gradle command"
  | nothingToWatch => "no command given; pass it after `--`"

/-- A cause and the steps that were under way, the outermost first. -/
structure Failure where
  /-- The steps that were under way. -/
  steps : List Fault
  /-- The cause. -/
  cause : Fault
  deriving DecidableEq, Repr

namespace Failure

/-- A fault on its own. -/
def of (cause : Fault) : Failure := ⟨[], cause⟩

/-- A refusal of the system during a step. -/
def during (step : Fault) (refusal : OsError) : Failure := ⟨[step], .os refusal⟩

/-- A failure seen from a step around it. -/
def within (step : Fault) (failure : Failure) : Failure :=
  { failure with steps := step :: failure.steps }

/-- All faults, the outermost first. -/
def chain (failure : Failure) : List Fault :=
  failure.steps ++ [failure.cause]

/-- The outermost fault in words. -/
def message (failure : Failure) : String :=
  match failure.steps with
  | step :: _ => step.message
  | [] => failure.cause.message

/-- The whole chain in words. -/
def account (failure : Failure) : String :=
  ": ".intercalate (failure.chain.map Fault.message)

/-- The cause is that the operator stopped the run. -/
def isInterruption (failure : Failure) : Bool :=
  failure.cause == .interrupted

/-- The failure of a run that the operator stopped. -/
def interruption : Failure := of .interrupted

/-- A step around a failure leaves the cause as it is. -/
theorem isInterruption_within (step : Fault) (failure : Failure) :
    (failure.within step).isInterruption = failure.isInterruption := rfl

end Failure

end DialectBench

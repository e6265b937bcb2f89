import DialectBench.Collection.Manifest
import DialectBench.Suite.Place

/-! Collections: copies of the results of a workspace that are made whole or not at all. -/

namespace DialectBench

/-- What is to be collected, and where to. -/
structure CollectionOrder where
  /-- The workspace. -/
  root : Path
  /-- The directory of the collection without its stamp. -/
  destination : Path
  /-- The stamp of the run. -/
  timestamp : String
  /-- The log of the run. -/
  log : Option Path := none
  /-- The directory in which a relative log is looked for first. -/
  logDirectory : Option Path := none
  /-- The copied directories are removed from the workspace in the end. -/
  removeSource : Bool := false
  /-- The backend of the run. -/
  backend : Option String := none
  deriving DecidableEq, Repr

namespace Collection

/-- The directory of a collection. -/
def directoryFor (destination : Path) (timestamp : String) : Path :=
  ⟨destination.text ++ "-" ++ timestamp⟩

/-- The directories of the build output of a module that are copied. -/
def copiedNames : List String := [Suite.resultsName, Suite.reportsName]

/-- Where a log is: an absolute path is taken as it is, and a relative one is looked for in the log
directory first. -/
def logPath (d : Disk) (log : Path) (logDirectory : Option Path) : Path :=
  if log.isAbsolute then log
  else
    match logDirectory with
    | some directory =>
      let candidate := directory.join log
      if d.exists? candidate then candidate else log
    | none => log

/-- Copies the wanted directories of a module, and tells which they were. -/
def copyParts (root directory modulePath : Path) : List String → Action (List Path)
  | [] => return []
  | name :: names => do
    let source := root.join modulePath / Suite.outputName / name
    if ← Action.look fun d => d.isDirectory source then
      Action.copyTree source (directory.join modulePath / Suite.outputName / name)
      return source :: (← copyParts root directory modulePath names)
    else copyParts root directory modulePath names

/-- Copies the directories of all modules, and tells which they were. -/
def copyModules (root directory : Path) : List (List String) → Action (List Path)
  | [] => return []
  | names :: rest => do
    let copied ← copyParts root directory (Suite.pathOf names) copiedNames
    return copied ++ (← copyModules root directory rest)

/-- Copies the log of a run into a collection, if it is there. -/
def addLog (log : Path) (logDirectory : Option Path) (directory : Path) :
    Action (Option Path) := do
  let source ← Action.look fun d => logPath d log logDirectory
  if ← Action.look fun d => d.isFile source then
    let logs := directory / "logs"
    Action.prepareDirectory logs
    let copy := logs / (source.fileName?.getD "run.log")
    Action.copyFile (.copyLog source copy) source copy
    return some copy
  else
    Action.warn "log file not found; collection continues without it"
    return none

/-- Copies the log of a run if there is one. -/
def addLogIf (log : Option Path) (logDirectory : Option Path) (directory : Path) :
    Action (Option Path) :=
  match log with
  | some log => addLog log logDirectory directory
  | none => return none

/-- Fills the directory of a collection, the manifest last, and tells what was copied. -/
def fill (request : CollectionOrder) (directory : Path) : Action (List Path) := do
  let modules ← Action.look fun d => Suite.modules d request.root
  if modules.isEmpty then Action.refuse (.noResults request.root)
  else
    let sources ← copyModules request.root directory modules
    if sources.isEmpty then Action.refuse .nothingCopied
    else
      let logCopy ← addLogIf request.log request.logDirectory directory
      let manifest : Manifest := {
        timestamp := request.timestamp, sourceRoot := request.root.text,
        directory := directory.text, logCopy := logCopy.map Path.text,
        modules := modules.map fun names => (Suite.pathOf names).text,
        backend := request.backend }
      -- From here on the collection counts as complete.
      Action.writeJson (directory / Manifest.fileName) manifest.toJson
      return sources

/-- Removes what was copied; what cannot be removed is told and stays. -/
def clearSources : List Path → Action Unit
  | [] => return ()
  | source :: sources => do
    match ← Action.attempt (Action.deleteTree source) with
    | .ok _ => clearSources sources
    | .error _ =>
      Action.warn "failed to remove collected source"
      clearSources sources

/-- Makes the directory of a collection, which must not be there. -/
def makeDirectory (directory : Path) : Action Unit := do
  Action.prepareParent directory
  match ← Action.look fun d => d.makingDirectory directory with
  | .ok change => Action.perform change
  | .error .alreadyExists => Action.refuse (.destinationExists directory)
  | .error refusal => throw (.during (.createCollection directory) refusal)

/-- Takes an incomplete collection away. -/
def discard (directory : Path) : Action Unit := do
  match ← Action.attempt (Action.removeIfPresent directory) with
  | .ok _ => return ()
  | .error _ => Action.warn "failed to remove incomplete collection"

/-- Collects the results of a workspace. A collection that cannot be completed is taken away, and
nothing is removed from the workspace before the manifest is written. -/
def collect (request : CollectionOrder) : Action Path := do
  let directory := directoryFor request.destination request.timestamp
  makeDirectory directory
  match ← Action.attempt (fill request directory) with
  -- What is left would look like a collection to a reader of names.
  | .error failure =>
    discard directory
    throw failure
  | .ok sources =>
    if request.removeSource then clearSources sources
    return directory

end Collection

end DialectBench

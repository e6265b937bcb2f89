import DialectBench.Collection.Manifest
import DialectBench.Bench.Execute

/-! Cleaning up after comparisons: containers, the build cache, temporary files, reports and
complete collections. -/

namespace DialectBench

/-- What is to be cleaned up. -/
structure CleanupScope where
  /-- The containers to be removed. -/
  containers : List String
  /-- The image in which the workspace is cleaned. -/
  image : String
  /-- The workspace is cleaned by its build. -/
  gradleClean : Bool
  /-- The cache of the build is removed. -/
  purgeCache : Bool
  /-- Temporary files are removed. -/
  cleanTemp : Bool
  /-- Reports are removed. -/
  cleanReports : Bool
  /-- Complete collections are removed. -/
  pruneCollections : Bool
  /-- Nothing is done, and everything is told. -/
  dryRun : Bool
  deriving DecidableEq, Repr

/-- What was cleaned up. -/
structure CleanupCounts where
  /-- The containers that were removed. -/
  containersRemoved : List String := []
  /-- The number of temporary files that were removed. -/
  tempFilesRemoved : Nat := 0
  /-- The number of report directories that were removed. -/
  reportDirsRemoved : Nat := 0
  /-- The number of collections that were removed. -/
  collectionsPruned : Nat := 0
  deriving DecidableEq, Repr

namespace Cleanup

/-- The file names that temporary files end with. -/
def tempExtensions : List String := ["log", "json"]

/-- The temporary files directly in a directory. -/
def temporaryFiles (d : Disk) (temp : Path) : List Path :=
  (d.sortedListing temp).filter fun path =>
    d.isFile path && (path.extension?.map tempExtensions.contains).getD false

/-- The report directories of the modules directly in a workspace. -/
def reportDirectories (d : Disk) (workspace : Path) : List Path :=
  ((d.sortedListing workspace).map fun entry =>
    entry / Suite.outputName / Suite.reportsName).filter d.isDirectory

/-- The collections directly in a directory that have a manifest. -/
def collectionsIn (d : Disk) (runs : Path) : List Path :=
  (d.sortedListing runs).filter fun entry => d.isFile (entry / Manifest.fileName)

/-- The command that looks a container up by its name. -/
def lookupCommand (name : String) : Command where
  program := docker
  arguments := ["ps", "-aq", "--filter", "name=^" ++ name ++ "$"]

/-- The command that removes a container. -/
def removeCommand (name : String) : Command where
  program := docker
  arguments := ["rm", "-f", name]

/-- Removes a container if it is there, and tells whether it was removed. -/
def dropContainer (runner : Runner) (name : String) : Action Bool := do
  let found ← Action.run runner (lookupCommand name)
  -- A container that is not there needs no removal.
  if !found.succeeded || Text.isAllBlank found.stdout then return false
  else
    let removed ← Action.run runner (removeCommand name)
    if removed.succeeded then return true
    else
      Action.warn "failed to remove container"
      return false

/-- Removes containers in turn, and tells which were removed. -/
def dropContainers (runner : Runner) : List String → Action (List String)
  | [] => return []
  | name :: names => do
    let removed ← dropContainer runner name
    let others ← dropContainers runner names
    return if removed then name :: others else others

/-- Does something to each path in turn, or tells of it in a rehearsal, and counts how often it was
done. -/
def forEach (dryRun : Bool) (words : String) (work : Path → Action Bool) :
    List Path → Action Nat
  | [] => return 0
  | path :: paths => do
    if dryRun then
      Action.tell (.rehearsal words [("path", path.text)])
      forEach dryRun words work paths
    else
      let done ← work path
      return (← forEach dryRun words work paths) + (if done then 1 else 0)

/-- Cleans the workspace by its build. -/
def cleanWorkspace (lab : Lab) (options : CleanupScope) (runner : Runner) : Action Unit := do
  if options.gradleClean then
    let _ ← Action.runToSuccess runner (Bench.cleanCommand lab.workspace options.image)

/-- Removes the cache of the build. -/
def purgeCache (lab : Lab) (options : CleanupScope) : Action Unit := do
  if options.purgeCache then
    let cache := lab.gradleCache
    if ← Action.look fun d => d.exists? cache then
      if options.dryRun then
        Action.tell (.rehearsal "would remove Gradle cache" [("path", cache.text)])
      else
        let _ ← Action.removeIfPresent cache

/-- Removes temporary files. -/
def cleanTemp (lab : Lab) (options : CleanupScope) : Action Nat := do
  if options.cleanTemp then
    forEach options.dryRun "would remove"
      (fun path => do Action.removeFile path; return true)
      (← Action.look fun d => temporaryFiles d lab.temp)
  else return 0

/-- Removes reports. -/
def cleanReports (lab : Lab) (options : CleanupScope) : Action Nat := do
  if options.cleanReports then
    forEach options.dryRun "would remove" Action.removeIfPresent
      (← Action.look fun d => reportDirectories d lab.workspace)
  else return 0

/-- Removes a collection, the manifest first, so that what is left is not complete. -/
def dropCollection (directory : Path) : Action Bool := do
  Action.removeFile (directory / Manifest.fileName)
  let _ ← Action.removeIfPresent directory
  return true

/-- Removes complete collections. -/
def pruneCollections (lab : Lab) (options : CleanupScope) : Action Nat := do
  if options.pruneCollections then
    forEach options.dryRun "would prune collection" dropCollection
      (← Action.look fun d => collectionsIn d lab.runs)
  else return 0

/-- Cleans up. -/
def execute (lab : Lab) (options : CleanupScope) (runner : Runner) : Action CleanupCounts := do
  let containersRemoved ← dropContainers runner options.containers
  cleanWorkspace lab options runner
  purgeCache lab options
  let tempFilesRemoved ← cleanTemp lab options
  let reportDirsRemoved ← cleanReports lab options
  let collectionsPruned ← pruneCollections lab options
  return { containersRemoved, tempFilesRemoved, reportDirsRemoved, collectionsPruned }

end Cleanup

end DialectBench

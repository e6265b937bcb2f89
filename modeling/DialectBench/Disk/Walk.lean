import DialectBench.Session

/-! What lies below a directory, in the order of names, and the newest of several paths. -/

namespace DialectBench

namespace Disk

/-- The ways from a directory to the entries below it that are wanted, in the order of names; a
path that leads to no directory has none. Links are not followed. -/
def waysBelow (d : Disk) (root : Path) (wanted : Node → Bool) : List (List String) :=
  match d.directory? root with
  | none => []
  | some place =>
    let found := (d.below place).filter fun (_, node) => wanted node
    inOrder (fun a b => (orderNames a b).isLE) (found.map Prod.fst)

/-- The ways to the regular files below a directory. -/
def fileWays (d : Disk) (root : Path) : List (List String) :=
  d.waysBelow root Node.isFile

/-- The ways to the directories below a directory. -/
def directoryWays (d : Disk) (root : Path) : List (List String) :=
  d.waysBelow root Node.isDirectory

/-- The regular files below a directory. -/
def filesBelow (d : Disk) (root : Path) : List Path :=
  (d.fileWays root).map root.extend

/-- The directories below a directory. -/
def directoriesBelow (d : Disk) (root : Path) : List Path :=
  (d.directoryWays root).map root.extend

/-- The entries of a directory in the order in which the system lists them. -/
def listing (d : Disk) (directory : Path) : List Path :=
  match d.directory? directory with
  | none => []
  | some place => (d.children place).map fun (name, _) => directory / name

/-- The entries of a directory in the order of names. -/
def sortedListing (d : Disk) (directory : Path) : List Path :=
  inOrder (fun a b => (a.order b).isLE) (d.listing directory)

/-- A path is not older than another; of two as old the later in the order of paths counts as
newer. -/
def isNoOlder (d : Disk) (a b : Path) : Bool :=
  ((compare (d.modified b) (d.modified a)).then (b.order a)).isLE

/-- The newer of what was found so far and another path. -/
def newer (d : Disk) (best : Option Path) (path : Path) : Option Path :=
  match best with
  | none => some path
  | some before => if d.isNoOlder path before then some path else some before

/-- The newest of several paths. -/
def newest? (d : Disk) (paths : List Path) : Option Path :=
  paths.foldl d.newer none

end Disk

namespace Action

/-- Makes a directory and all above it that are missing. -/
def prepareDirectory (path : Path) : Action Unit := do
  let making ← look fun d => d.makingAll path.ancestors
  performAll making.changes
  match making.refusal with
  | some refusal => throw (.during (.createDirectory path) refusal)
  | none => return ()

/-- Makes the directory that a path lies in. -/
def prepareParent (path : Path) : Action Unit :=
  match path.parent? with
  | some parent => prepareDirectory parent
  | none => return ()

/-- Copies one file. -/
def copyFile (step : Fault) (source target : Path) : Action Unit := do
  perform (← allowed step (← look fun d => d.copying source target))

/-- Copies the entry at the end of a way from one directory to another. -/
def copyEntry (source target : Path) (way : List String) (node : Node) : Action Unit :=
  if node.isDirectory then prepareDirectory (target.extend way)
  else
    let input := source.extend way
    let output := target.extend way
    copyFile (.copyFile input output) input output

/-- Copies entries in turn. -/
def copyEntries (source target : Path) : List (List String × Node) → Action Unit
  | [] => return ()
  | (way, node) :: rest => do
    copyEntry source target way node
    copyEntries source target rest

/-- The entries below a directory with the ways to them, in the order of names. -/
def entriesBelow (d : Disk) (root : Path) : List (List String × Node) :=
  match d.directory? root with
  | none => []
  | some place => inOrder (fun a b => (orderNames a.1 b.1).isLE) (d.below place)

/-- Fails unless a path leads somewhere. -/
def requireEntry (path : Path) : Action Unit := do
  match ← look fun d => d.entry path with
  | .ok _ => return ()
  | .error refusal => throw ⟨[.walk path], .inaccessible path refusal⟩

/-- Copies all below a directory into another one, which is made if it is missing; what is no
directory has nothing below it. -/
def copyTree (source target : Path) : Action Unit := do
  prepareDirectory target
  requireEntry source
  copyEntries source target (← look fun d => entriesBelow d source)

/-- Removes a directory with all in it. -/
def deleteTree (path : Path) : Action Unit := do
  performAll (← allowed (.remove path) (← look fun d => d.removingTree path))

/-- Removes a directory with all in it if there is one, and tells whether there was. -/
def removeIfPresent (path : Path) : Action Bool := do
  if ← look fun d => d.exists? path then
    deleteTree path
    return true
  else return false

/-- Removes a file. -/
def removeFile (path : Path) : Action Unit := do
  perform (← allowed (.remove path) (← look fun d => d.removingFile path))

end Action

end DialectBench

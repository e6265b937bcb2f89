import DialectBench.Json.Field
import DialectBench.Json.File

/-! Manifests: what a collection was made from. Its presence tells that a collection is complete. -/

namespace DialectBench

/-- The description of a collection. -/
structure Manifest where
  /-- The stamp of the run. -/
  timestamp : String
  /-- The workspace. -/
  sourceRoot : String
  /-- The directory of the collection. -/
  directory : String
  /-- The copy of the log, if there is one. -/
  logCopy : Option String
  /-- The modules in the order of names. -/
  modules : List String
  /-- The backend, if it is known. -/
  backend : Option String
  deriving DecidableEq, Repr

namespace Manifest

/-- The name of the manifest in a collection. -/
def fileName : String := "collection.json"

/-- A manifest as a JSON value; a backend that is not known is left out. -/
def toJson (manifest : Manifest) : JsonValue :=
  .ofMembers ([
    ("timestamp", .ofString manifest.timestamp),
    ("source_root", .ofString manifest.sourceRoot),
    ("collection_dir", .ofString manifest.directory),
    ("log_copy", .ofOption manifest.logCopy),
    ("modules", .array (manifest.modules.map .ofString))]
    ++ (manifest.backend.toList.map fun backend => ("backend", .ofString backend)))

/-- The names of the members. -/
def memberNames : List String :=
  ["timestamp", "source_root", "collection_dir", "log_copy", "modules", "backend"]

/-- A member that may be null, and that an object may leave out. -/
def optional? (positional : Bool) (value : Option JsonValue) : Option (Option String) :=
  match value with
  | some value => value.textOrNull?
  | none => if positional then none else some none

/-- A manifest from a JSON value. -/
def ofJson? (value : JsonValue) : Option Manifest :=
  match value.fields? memberNames with
  | some ⟨[some timestamp, some sourceRoot, some directory, logCopy, some modules, backend],
      positional⟩ => do
    let timestamp ← timestamp.text?
    let sourceRoot ← sourceRoot.text?
    let directory ← directory.text?
    let logCopy ← optional? positional logCopy
    let modules ← modules.texts?
    let backend ← optional? false backend
    return { timestamp, sourceRoot, directory, logCopy, modules, backend }
  | _ => none

/-- The manifest in a file; a file that is there but holds none is a reason for a warning. -/
def load (path : Path) : Action (Option Manifest) := do
  let d ← Action.disk
  if d.exists? path then
    match readStored d path ofJson? with
    | .ok manifest => return some manifest
    | .error _ =>
      Action.warn "failed to read manifest"
      return none
  else return none

end Manifest

end DialectBench

import DialectBench.Summary.Aggregate
import DialectBench.Summary.Backend
import DialectBench.Summary.Duration
import DialectBench.Summary.LogPath
import DialectBench.Text.Column

/-! Summaries of collections: what they hold, where they are written, and how they are told. -/

namespace DialectBench.Summary

/-- What a summary says. -/
structure Payload where
  /-- The time at which the summary was made. -/
  generatedAt : String
  /-- The stamp of the run. -/
  timestamp : String
  /-- The directory that is summarized. -/
  root : String
  /-- The manifest, if there is one. -/
  manifest : Option String
  /-- The backend. -/
  database : String
  /-- The sums over all suites. -/
  overall : Totals
  /-- The sums over the suites of each module. -/
  modules : TotalsByModule
  /-- The log, if one belongs to the directory. -/
  log : Option String
  deriving Repr

/-- A summary as a JSON value; a log that is not known is left out. -/
def Payload.toJson (payload : Payload) : JsonValue :=
  .ofMembers ([
    ("generated_at", .ofString payload.generatedAt),
    ("timestamp", .ofString payload.timestamp),
    ("root", .ofString payload.root),
    ("manifest", .ofOption payload.manifest),
    ("database", .ofString payload.database),
    ("overall", payload.overall.toJson),
    ("modules", .ofMembers (payload.modules.map fun (name, totals) => (name, totals.toJson)))]
    ++ (payload.log.toList.map fun log => ("log", .ofString log)))

/-- What is to be summarized. -/
structure Request where
  /-- The directory. -/
  root : Path
  /-- The JSON file, or the start of its name. -/
  jsonOut : Option Path := none
  /-- The log. -/
  log : Option Path := none
  /-- The manifest. -/
  manifest : Option Path := none
  /-- The stamp of the run. -/
  timestamp : Option String := none
  /-- The directory in which logs of runs are looked for. -/
  logDirectory : Option Path := none
  deriving DecidableEq, Repr

/-- A summary, the file that it was written to, and a hint at its log. -/
structure Result where
  /-- What the summary says. -/
  payload : Payload
  /-- The file that it was written to. -/
  jsonPath : Option Path
  /-- The hint. -/
  logHint : String
  deriving Repr

/-- The file of a summary: a name that ends in the extension is taken as it is, and another one is
completed by the stamp. -/
def jsonPath (out : Path) (timestamp : String) : Path :=
  match out.fileName? with
  | some name =>
    if Text.endsWith name ".json" then out
    else ⟨out.text ++ "-" ++ timestamp ++ ".json"⟩
  | none => ⟨out.text ++ "-" ++ timestamp ++ ".json"⟩

/-- A hint at the log of a directory. -/
def hint (d : Disk) (root : Path) (log : Option Path) : String :=
  match log with
  | some path =>
    if d.exists? path then "log: " ++ ((path.relativeTo? root).getD path).text
    else "log: " ++ path.text ++ " (missing)"
  | none => "log: auto-detect failed"

/-- Writes a summary to a file if one is wanted, and tells which it was. -/
def writeIf (out : Option Path) (payload : Payload) : Action (Option Path) :=
  match out with
  | some out => do
    let path := jsonPath out payload.timestamp
    Action.writeJson path payload.toJson
    return some path
  | none => return none

/-- Summarizes a directory. -/
def summarize (request : Request) : Action Result := do
  let root := request.root
  if ← Action.look fun d => d.isDirectory root then
    let manifestPath := request.manifest.getD (root / Manifest.fileName)
    let manifest ← Manifest.load manifestPath
    let d ← Action.disk
    let now ← Action.stamp
    let timestamp := (request.timestamp.or (manifest.map Manifest.timestamp)).getD now
    let sums := sumsBelow d root
    let log := logPath d request.log root manifest request.logDirectory
    let payload : Payload := {
      generatedAt := ← Action.universal, timestamp, root := root.text,
      manifest := if d.exists? manifestPath then some manifestPath.text else none,
      -- A log that is missing says nothing about the backend.
      database := backend d manifest (log.filter fun path => d.exists? path),
      overall := sums.overall, modules := sums.modules, log := log.map Path.text }
    let path ← writeIf request.jsonOut payload
    return { payload, jsonPath := path, logHint := hint d root log }
  else Action.refuse (.rootNotFound root)

/-- A row of the table of modules. -/
def row (name time files tests failures errors skipped : String) : String :=
  " ".intercalate [Text.padRight 25 name, Text.padLeft 12 time, Text.padLeft 8 files,
    Text.padLeft 10 tests, Text.padLeft 10 failures, Text.padLeft 10 errors,
    Text.padLeft 10 skipped]

/-- The table of modules. -/
def moduleLines (modules : TotalsByModule) : List String :=
  row "Module" "Duration" "Files" "Tests" "Failures" "Errors" "Skipped"
    :: modules.map fun (name, totals) =>
      row name (duration totals.time) (toString totals.files) (toString totals.tests)
        (toString totals.failures) (toString totals.errors) (toString totals.skipped)

/-- The lines in which a summary is told. -/
def accountLines (result : Result) : List String :=
  let payload := result.payload
  let overall := payload.overall
  ["Local JUnit summary",
    "  Root path:        " ++ payload.root,
    "  XML files found:  " ++ toString overall.files,
    "  Database:         " ++ payload.database,
    "                    (" ++ result.logHint ++ ")",
    "",
    "Aggregated totals (all modules):",
    "  Tests:    " ++ toString overall.tests,
    "  Failures: " ++ toString overall.failures,
    "  Errors:   " ++ toString overall.errors,
    "  Skipped:  " ++ toString overall.skipped,
    "  Duration: " ++ duration overall.time,
    ""]
  ++ (if payload.modules.isEmpty then ["No JUnit XML files discovered under the given root."]
    else moduleLines payload.modules)

end DialectBench.Summary

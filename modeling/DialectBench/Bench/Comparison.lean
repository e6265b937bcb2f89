import DialectBench.Disk.Walk
import DialectBench.Json.File
import DialectBench.Suite.Totals
import DialectBench.Text.Column
import DialectBench.Text.Line

/-! Comparisons of the newest summaries of two targets. -/

namespace DialectBench

/-- A count on two sides and the difference. -/
structure CountPair where
  /-- The count on the left. -/
  left : Nat
  /-- The count on the right. -/
  right : Nat
  /-- The right count less the left one. -/
  diff : Int
  deriving DecidableEq, Repr

/-- The difference of two counts, each taken as a signed word. -/
def CountPair.of (left right : Nat) : CountPair :=
  ⟨left, right, Number.asSigned right - Number.asSigned left⟩

/-- The counts of two targets side by side. -/
structure Comparison where
  /-- The name of the left side. -/
  leftLabel : String
  /-- The name of the right side. -/
  rightLabel : String
  /-- The tests. -/
  tests : CountPair
  /-- The failed tests. -/
  failures : CountPair
  /-- The skipped tests. -/
  skipped : CountPair
  deriving DecidableEq, Repr

/-- Two targets to be compared, and what they are called then. -/
structure Pairing where
  /-- The identifier of the left side. -/
  left : String
  /-- The identifier of the right side. -/
  right : String
  /-- The name of the left side. -/
  leftLabel : String
  /-- The name of the right side. -/
  rightLabel : String
  deriving DecidableEq, Repr

namespace Comparison

/-- The pairs in the order in which they are compared. -/
def pairs : List Pairing := [
  ⟨"mysql", "tidb-tidbdialect", "MySQL 8.0", "TiDB with TiDBDialect"⟩,
  ⟨"tidb-tidbdialect", "tidb-mysqldialect", "TiDB TiDBDialect", "TiDB MySQLDialect"⟩,
  ⟨"mysql", "tidb-mysqldialect", "MySQL 8.0", "TiDB with MySQLDialect"⟩,
  ⟨"mysql", "tidb-coredialect", "MySQL 8.0", "TiDB with core TiDBDialect"⟩]

/-- The identifiers that occur in pairs, in the order of their characters. -/
def identifiers : List String :=
  inOrder (fun a b => a ≤ b) (pairs.flatMap fun pair => [pair.left, pair.right]).eraseDups

/-- The comparison of two totals. -/
def of (leftLabel rightLabel : String) (left right : Totals) : Comparison where
  leftLabel := leftLabel
  rightLabel := rightLabel
  tests := .of left.tests right.tests
  failures := .of left.failures right.failures
  skipped := .of left.skipped right.skipped

/-- A file is named like a summary of a target. -/
def isSummaryOf (identifier : String) (path : Path) : Bool :=
  match path.fileName? with
  | some name => Text.startsWith name (identifier ++ "-summary-") && Text.endsWith name ".json"
  | none => false

/-- The newest summary of a target. -/
def newestSummary (d : Disk) (runs : Path) (identifier : String) : Option Path :=
  d.newest? ((d.listing runs).filter fun path => d.isFile path && isSummaryOf identifier path)

/-- The sums over all suites that a stored summary gives; a summary without them counts as empty. -/
def totalsOf? (value : JsonValue) : Option Totals :=
  match value.fields? ["overall"] with
  | some ⟨[some overall], _⟩ => Totals.ofJson? overall
  | some ⟨[none], _⟩ => some {}
  | _ => none

/-- The sums over all suites that a summary file gives. -/
def storedTotals (d : Disk) (path : Path) : Except Failure Totals :=
  readStored d path totalsOf?

/-- The newest summaries of the targets that have one. -/
def available (d : Disk) (runs : Path) : List (String × Path) :=
  identifiers.filterMap fun identifier =>
    (newestSummary d runs identifier).map fun path => (identifier, path)

/-- The comparison of one pair: none if a side has no summary, and a warning if one cannot be
read. -/
def ofPair (d : Disk) (found : List (String × Path)) (pair : Pairing) :
    Option (Except Event Comparison) :=
  match found.lookup pair.left, found.lookup pair.right with
  | some left, some right =>
    match storedTotals d left, storedTotals d right with
    | .ok left, .ok right => some (.ok (of pair.leftLabel pair.rightLabel left right))
    | _, _ => some (.error (.warning "skipping comparison with unreadable summary"))
  | _, _ => none

/-- What comes of comparing the newest summaries, pair by pair. -/
def outcomes (d : Disk) (runs : Path) : List (Except Event Comparison) :=
  let found := available d runs
  if found.length < 2 then
    [.error (.warning "need at least 2 summaries to compare; generate more runs first")]
  else pairs.filterMap (ofPair d found)

/-- The comparisons among what came of comparing. -/
def comparisonsOf (outcomes : List (Except Event Comparison)) : List Comparison :=
  outcomes.filterMap Except.toOption

/-- The comparisons of the newest summaries. -/
def latest (d : Disk) (runs : Path) : List Comparison :=
  comparisonsOf (outcomes d runs)

/-- The warnings among what came of comparing. -/
def warningsOf (outcomes : List (Except Event Comparison)) : List Event :=
  outcomes.filterMap fun outcome =>
    match outcome with
    | .ok _ => none
    | .error event => some event

/-- Compares the newest summaries and tells of those that cannot be read. -/
def compareNewest (runs : Path) : Action (List Comparison) := do
  let found ← Action.look fun d => outcomes d runs
  (warningsOf found).forM Action.tell
  return comparisonsOf found

/-- A row of the table of a comparison. -/
def row (metric left right diff : String) : String :=
  "║ " ++ Text.padRight 14 metric ++ " ║ " ++ Text.padLeft 8 left ++ " ║ " ++ Text.padLeft 8 right
    ++ " ║ " ++ Text.padLeft 9 diff ++ " ║"

/-- The row of a metric. -/
def metricRow (metric : String) (delta : CountPair) : String :=
  row metric (toString delta.left) (toString delta.right) (toString delta.diff)

/-- The lines in which a comparison is told. -/
def table (comparison : Comparison) : List String :=
  [comparison.leftLabel ++ " vs " ++ comparison.rightLabel ++ ":",
    "╔════════════════╦══════════╦══════════╦═══════════╗",
    row "Metric" "Left" "Right" "Diff",
    "╠════════════════╬══════════╬══════════╬═══════════╣",
    metricRow "Tests" comparison.tests,
    metricRow "Failures" comparison.failures,
    metricRow "Skipped" comparison.skipped,
    "╚════════════════╩══════════╩══════════╩═══════════╝"]

end Comparison

end DialectBench

import DialectBench.Json.Field
import DialectBench.Number.Shortest

/-! Counts of a test suite, their sums, and their JSON form. -/

namespace DialectBench

/-- The counts of one or more test suites and the time they took in seconds. -/
structure Totals where
  /-- The number of result files. -/
  files : Nat := 0
  /-- The number of tests. -/
  tests : Nat := 0
  /-- The number of failed tests. -/
  failures : Nat := 0
  /-- The number of tests that ended in an error. -/
  errors : Nat := 0
  /-- The number of skipped tests. -/
  skipped : Nat := 0
  /-- The time in seconds. -/
  time : Float := 0
  deriving Repr

namespace Totals

/-- Totals with the counts of another suite added. -/
def plus (sum other : Totals) : Totals where
  files := sum.files + other.files
  tests := sum.tests + other.tests
  failures := sum.failures + other.failures
  errors := sum.errors + other.errors
  skipped := sum.skipped + other.skipped
  time := sum.time + other.time

/-- Times are written positionally from 0.00001 up to below ten to the sixteenth. -/
def timeLayout : Number.Layout := ⟨-5, 16, "+"⟩

/-- A time as a JSON value; one that is not finite is left open. -/
def timeJson (time : Float) : JsonValue :=
  if time.isFinite then .number (timeLayout.text time) else .null

/-- Totals as a JSON value. -/
def toJson (totals : Totals) : JsonValue :=
  .ofMembers [
    ("files", .ofNat totals.files), ("tests", .ofNat totals.tests),
    ("failures", .ofNat totals.failures), ("errors", .ofNat totals.errors),
    ("skipped", .ofNat totals.skipped), ("time", timeJson totals.time)]

/-- The names of the counts and of the time. -/
def memberNames : List String := ["files", "tests", "failures", "errors", "skipped", "time"]

/-- A count that is there, or zero. -/
def countOr (value : Option JsonValue) : Option Nat :=
  match value with
  | some value => value.count?
  | none => some 0

/-- Totals from a JSON value; what is left out is zero. -/
def ofJson? (value : JsonValue) : Option Totals :=
  match value.fields? memberNames with
  | some ⟨[files, tests, failures, errors, skipped, time], _⟩ => do
    let files ← countOr files
    let tests ← countOr tests
    let failures ← countOr failures
    let errors ← countOr errors
    let skipped ← countOr skipped
    let time ← match time with
      | some value => value.double?
      | none => some 0
    return { files, tests, failures, errors, skipped, time }
  | _ => none

end Totals

end DialectBench

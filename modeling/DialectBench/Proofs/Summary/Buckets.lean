import DialectBench.Proofs.Summary.Repetition

/-! Under which name the suites of a module are counted: modules of one name share their sums. -/

namespace DialectBench

open Disk Action

namespace Suite

variable {way names : List String}

/-- The name under which the suites of a module are counted: the last one before its first build
output. -/
def bucketOf (names : List String) : String :=
  ((names.takeWhile (· ≠ outputName)).getLast?).getD outputName

/-- The first build output comes behind the names that are none. -/
theorem idxOf?_outputName (front back : List String) :
    (front ++ outputName :: back).idxOf? outputName =
      some (front.takeWhile (· ≠ outputName)).length := by
  induction front with
  | nil => simp [List.idxOf?_cons]
  | cons name front ih =>
    rw [List.cons_append, List.idxOf?_cons, ih]
    by_cases output : name = outputName <;> simp [output]

/-- In front of a build output the names tell the module. -/
theorem moduleOf_eq (front back : List String) :
    moduleOf (front ++ outputName :: back) = bucketOf front := by
  unfold moduleOf bucketOf
  rw [idxOf?_outputName]
  obtain ⟨rest, split⟩ := List.takeWhile_prefix (p := (· ≠ outputName)) (l := front)
  cases before : front.takeWhile (· ≠ outputName) using List.reverseRecOn with
  | nil =>
    -- The first name is a build output already.
    cases front with
    | nil => rfl
    | cons name front =>
      have output : name = outputName := by simpa [List.takeWhile_cons] using before
      simp [output]
  | append_singleton before name _ =>
    rw [before] at split
    rw [← split]
    simp

/-- All files of a module count under the name of the module. -/
theorem moduleOf_of_owner (owned : owner? way = some names) : moduleOf way = bucketOf names := by
  obtain ⟨-, -, rest, -, rfl⟩ := owner?_eq_some owned
  exact moduleOf_eq names _

end Suite

namespace Summary

open Collection

variable {d : Disk} {root : Path} {name key : String} {totals : Totals} {sums : TotalsByModule}
  {names : List String} {request : CollectionOrder} {s : Session} {directory : Path}

/-- A new sum is there under its name, and those before it stay. -/
theorem mem_tally :
    key ∈ (tally name totals sums).map Prod.fst ↔ key = name ∨ key ∈ sums.map Prod.fst := by
  induction sums with
  | nil => simp [tally]
  | cons sum rest ih =>
    obtain ⟨other, sum⟩ := sum
    unfold tally
    split
    next same => simp [same]
    next =>
      split
      · simp
      · simp only [List.map_cons, List.mem_cons, ih]
        exact or_left_comm

/-- The names of the sums are those of the suites. -/
theorem mem_modules_sumsBelow :
    key ∈ (sumsBelow d root).modules.map Prod.fst ↔ ∃ totals, (key, totals) ∈ suites d root := by
  have fold (list : List (String × Totals)) (sums : Aggregate) :
      key ∈ (list.foldl (fun sums suite => sums.add suite.1 suite.2) sums).modules.map Prod.fst
        ↔ (∃ totals, (key, totals) ∈ list) ∨ key ∈ sums.modules.map Prod.fst := by
    induction list generalizing sums with
    | nil => simp
    | cons suite list ih =>
      obtain ⟨name, totals⟩ := suite
      refine (ih _).trans ((or_congr_right mem_tally).trans ?_)
      constructor
      · rintro (⟨totals, later⟩ | rfl | before)
        · exact .inl ⟨totals, List.mem_cons_of_mem _ later⟩
        · exact .inl ⟨totals, List.mem_cons_self⟩
        · exact .inr before
      · rintro (⟨other, listed⟩ | before)
        · cases listed with
          | head => exact .inr (.inl rfl)
          | tail _ later => exact .inl ⟨other, later⟩
        · exact .inr (.inr before)
  refine (fold (suites d root) {}).trans ?_
  simp

/-- A file belongs to a module and holds a suite that can be read. -/
def HoldsSuite (d : Disk) (root : Path) (names way : List String) : Prop :=
  way ∈ Suite.resultWays d root ∧ Suite.owner? way = some names ∧
    (SuiteReport.read? d (root.extend way)).isSome

/-- A suite that can be read counts under the name of its module. -/
theorem HoldsSuite.mem_modules {way : List String} (holds : HoldsSuite d root names way) :
    Suite.bucketOf names ∈ (sumsBelow d root).modules.map Prod.fst := by
  obtain ⟨listed, owned, read⟩ := holds
  obtain ⟨report, read⟩ := Option.isSome_iff_exists.mp read
  rw [mem_modules_sumsBelow]
  refine ⟨report.totals, List.mem_filterMap.mpr ⟨way, listed, ?_⟩⟩
  rw [read, Suite.moduleOf_of_owner owned]
  rfl

/-- In a collection the suites of a module count under its name, and those of two modules under one
name exactly when their names are the same. -/
theorem suites_counted_by_module_name (sound : s.scene.disk.Sound)
    (passed : (collect request).outcome s = .ok directory)
    (linkless : ∀ home, (founding request s).scene.disk.Leads request.root home →
      s.scene.disk.Linkless home)
    (outside : ∀ home place, (founding request s).scene.disk.Leads request.root home →
      (founding request s).scene.disk.Leads directory place → ¬ home <+: place) :
    ∃ place manifest, (founding request s).scene.disk.Leads directory place ∧
      Describes request s manifest ∧
      (request.removeSource = false →
        ((collect request).after s).scene.disk.Leads directory place) ∧
      (((collect request).after s).scene.disk.Leads directory place →
        (Manifest.load (directory / Manifest.fileName)).outcome ((collect request).after s) =
          .ok (some manifest)) ∧
      ∀ path, ((collect request).after s).scene.disk.Leads path place →
        (∀ names way, HoldsSuite ((collect request).after s).scene.disk path names way →
          names ∈ Suite.modules (founding request s).scene.disk request.root ∧
            Suite.moduleOf way = Suite.bucketOf names ∧
            Suite.bucketOf names ∈
              (sumsBelow ((collect request).after s).scene.disk path).modules.map Prod.fst) ∧
        ∀ one other first second,
          HoldsSuite ((collect request).after s).scene.disk path one first →
          HoldsSuite ((collect request).after s).scene.disk path other second →
          (Suite.moduleOf first = Suite.moduleOf second ↔ Suite.bucketOf one = Suite.bucketOf other)
            := by
  obtain ⟨rfl, -⟩ := collect_of_ok sound passed
  obtain ⟨-, home, place, made, leads, exact, manifest, describes, load⟩ :=
    collection_exact sound passed linkless fun home place leads founded sub _ inside =>
      outside home place leads founded ((List.prefix_append home sub).trans inside)
  refine ⟨place, manifest, exact.founded.leads, describes, exact.leads, load, fun path here =>
    ⟨fun names way holds => ?_, fun one other first second holds holds' => ?_⟩⟩
  · obtain ⟨listed, owned, -⟩ := id holds
    refine ⟨?_, Suite.moduleOf_of_owner owned, holds.mem_modules⟩
    -- What the collection holds was in the workspace, so its module is one there.
    obtain ⟨there, result⟩ := (Suite.mem_resultWays exact.sound here).mp listed
    obtain ⟨bytes, held⟩ := Option.ne_none_iff_exists'.mp there
    have copied := ((exact.content?_result result).mp held).2
    have some : way ≠ [] := by
      rintro rfl
      exact absurd result (by decide)
    refine Suite.mem_modules.mpr ⟨way, (mem_fileWays_iff exact.founded.sound leads).mpr
      ⟨some, ?_⟩, owned⟩
    rw [exact.makes.content?_eq, copied]
    simp
  · rw [Suite.moduleOf_of_owner holds.2.1, Suite.moduleOf_of_owner holds'.2.1]

end Summary

/-- A workspace with two modules of one name, each with a report of a test. -/
def Disk.twins : Disk where
  entries := [(["ws"], .directory 0), (["ws", "a"], .directory 0),
    (["ws", "a", "core"], .directory 0), (["ws", "a", "core", "target"], .directory 0),
    (["ws", "a", "core", "target", "test-results"], .directory 0),
    (["ws", "a", "core", "target", "test-results", "t.xml"],
      .file (Text.encode "<testsuite tests=\"1\"/>") false 0),
    (["ws", "b"], .directory 0), (["ws", "b", "core"], .directory 0),
    (["ws", "b", "core", "target"], .directory 0),
    (["ws", "b", "core", "target", "test-results"], .directory 0),
    (["ws", "b", "core", "target", "test-results", "t.xml"],
      .file (Text.encode "<testsuite tests=\"2\"/>") false 0)]
  current := []
  clock := 0

/-- A session with that workspace. -/
def Session.twins : Session where
  scene := ⟨Disk.twins, false, ⟨"20250101-000000", "2025-01-01T00:00:00Z"⟩⟩

namespace Summary

open Collection

/-- The workspace is sound. -/
theorem sound_twins : Disk.twins.Sound :=
  ⟨by decide, by decide, by decide, by decide⟩

/-- Both modules are collected, and the collection holds a result of each. -/
theorem evaluated_twins :
    (collect .plain).outcome .twins = .ok ⟨"/out-T"⟩ ∧
      Suite.modules (founding .plain .twins).scene.disk ⟨"/ws"⟩ = [["a", "core"], ["b", "core"]] ∧
      (founding .plain .twins).scene.disk.directory? ⟨"/ws"⟩ = some ["ws"] ∧
      (founding .plain .twins).scene.disk.directory? ⟨"/out-T"⟩ = some ["out-T"] ∧
      Suite.resultWays ((collect .plain).after .twins).scene.disk ⟨"/out-T"⟩ =
        [["a", "core", "target", "test-results", "t.xml"],
          ["b", "core", "target", "test-results", "t.xml"]] ∧
      (SuiteReport.read? ((collect .plain).after .twins).scene.disk
        ((Path.mk "/out-T").extend ["b", "core", "target", "test-results", "t.xml"])).isSome ∧
      (sumsBelow ((collect .plain).after .twins).scene.disk ⟨"/out-T"⟩).overall.files = 2 ∧
      (sumsBelow ((collect .plain).after .twins).scene.disk ⟨"/out-T"⟩).modules.map Prod.fst =
        ["core"] := by
  decide +kernel

/-- The suites of both modules count under the one name that they have. -/
theorem twins_counted_by_module_name :
    Disk.twins.Sound ∧ (collect .plain).outcome .twins = .ok ⟨"/out-T"⟩ ∧
      (∀ home, (founding .plain .twins).scene.disk.Leads ⟨"/ws"⟩ home → Disk.twins.Linkless home) ∧
      (∀ home place, (founding .plain .twins).scene.disk.Leads ⟨"/ws"⟩ home →
        (founding .plain .twins).scene.disk.Leads ⟨"/out-T"⟩ place → ¬ home <+: place) ∧
      ∃ place manifest, (founding .plain .twins).scene.disk.Leads ⟨"/out-T"⟩ place ∧
        Describes .plain .twins manifest ∧
        (Manifest.load (Path.mk "/out-T" / Manifest.fileName)).outcome
          ((collect .plain).after .twins) = .ok (some manifest) ∧
        ["b", "core"] ∈ Suite.modules (founding .plain .twins).scene.disk ⟨"/ws"⟩ ∧
        Suite.moduleOf ["b", "core", "target", "test-results", "t.xml"] =
          Suite.bucketOf ["b", "core"] ∧
        Suite.bucketOf ["b", "core"] ∈
          (sumsBelow ((collect .plain).after .twins).scene.disk ⟨"/out-T"⟩).modules.map Prod.fst := by
  obtain ⟨passed, -, workspace, collection, ways, read, -⟩ := evaluated_twins
  have linkless : ∀ home, (founding .plain .twins).scene.disk.Leads ⟨"/ws"⟩ home →
      Disk.twins.Linkless home := fun _ _ => linkless_of_entries (by decide)
  have outside : ∀ home place, (founding .plain .twins).scene.disk.Leads ⟨"/ws"⟩ home →
      (founding .plain .twins).scene.disk.Leads ⟨"/out-T"⟩ place → ¬ home <+: place := by
    intro home place leads own
    obtain rfl := (directory?_eq_some.mp workspace).unique leads
    obtain rfl := (directory?_eq_some.mp collection).unique own
    decide
  obtain ⟨place, manifest, own, describes, still, load, counted⟩ :=
    suites_counted_by_module_name sound_twins passed linkless outside
  have here := still rfl
  obtain ⟨listed, named, there⟩ := (counted _ here).1 ["b", "core"]
    ["b", "core", "target", "test-results", "t.xml"] ⟨by simp [ways], by decide, read⟩
  exact ⟨sound_twins, passed, linkless, outside, place, manifest, own, describes, load here, listed,
    named, there⟩

/-- Two modules of one name are kept apart in a collection, and their suites have one sum. -/
theorem twins_share_one_sum :
    Disk.twins.Sound ∧ Disk.twins.Linkless [] ∧
      (collect .plain).outcome .twins = .ok ⟨"/out-T"⟩ ∧
      Suite.modules (founding .plain .twins).scene.disk ⟨"/ws"⟩ = [["a", "core"], ["b", "core"]] ∧
      (sumsBelow ((collect .plain).after .twins).scene.disk ⟨"/out-T"⟩).overall.files = 2 ∧
      (sumsBelow ((collect .plain).after .twins).scene.disk ⟨"/out-T"⟩).modules.map Prod.fst =
        ["core"] := by
  obtain ⟨passed, modules, -, -, -, -, files, names⟩ := evaluated_twins
  exact ⟨sound_twins, linkless_of_entries (by decide), passed, modules, files, names⟩

end Summary

end DialectBench

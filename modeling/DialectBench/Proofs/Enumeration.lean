import DialectBench.Bench.Comparison
import DialectBench.Bench.Execute
import DialectBench.Cleanup
import DialectBench.Failing.Selection
import DialectBench.Proofs.Collection.Orderless
import DialectBench.Proofs.Disk.Shuffling
import DialectBench.Proofs.Summary.Buckets

/-!
Results do not depend on the order in which the system lists the entries of directories: what is found,
counted, compared and collected is the same in a tree whose directories list the same entries in another
order.
-/

namespace DialectBench

open Action

/-- Two trees give the same results. -/
structure SameResults (d e : Disk) : Prop where
  /-- The files below a directory, in their order. -/
  files : ∀ root, e.filesBelow root = d.filesBelow root
  /-- The directories below a directory, in their order. -/
  directories : ∀ root, e.directoriesBelow root = d.directoriesBelow root
  /-- The modules of a workspace. -/
  modules : ∀ root, Suite.modules e root = Suite.modules d root
  /-- The result files, in their order. -/
  results : ∀ root, Suite.resultWays e root = Suite.resultWays d root
  /-- The suites in the order in which they are added up. -/
  suites : ∀ root, Summary.suites e root = Summary.suites d root
  /-- The sums in all and of each module, their times included. -/
  sums : ∀ root, Summary.sumsBelow e root = Summary.sumsBelow d root
  /-- The failing tests, in their order. -/
  failures : ∀ root, FailingTest.below e root = FailingTest.below d root
  /-- The test at a position. -/
  selected : ∀ root position overrides,
    Selection.resolveIndex (FailingTest.below e root) position overrides =
      Selection.resolveIndex (FailingTest.below d root) position overrides
  /-- The directories of results that are removed between targets. -/
  transient : ∀ workspace, Suite.transientDirectories e workspace = Suite.transientDirectories d workspace
  /-- The temporary files. -/
  temporary : ∀ temp, Cleanup.temporaryFiles e temp = Cleanup.temporaryFiles d temp
  /-- The report directories of modules. -/
  reports : ∀ workspace, Cleanup.reportDirectories e workspace = Cleanup.reportDirectories d workspace
  /-- The complete collections. -/
  collections : ∀ runs, Cleanup.collectionsIn e runs = Cleanup.collectionsIn d runs
  /-- The newest of several paths, in whatever order they come, no two of which have the same
  components. -/
  newest : ∀ paths others : List Path, others.Perm paths →
    (∀ one ∈ paths, ∀ other ∈ paths, one.components = other.components → one = other) →
    e.newest? others = d.newest? paths
  /-- The newest entry of a directory among those that are wanted. -/
  newestListed : ∀ directory wanted,
    e.newest? ((e.listing directory).filter wanted) = d.newest? ((d.listing directory).filter wanted)
  /-- The newest summary of a target. -/
  summary : ∀ runs identifier,
    Comparison.newestSummary e runs identifier = Comparison.newestSummary d runs identifier
  /-- The newest results of a kind. -/
  runRoot : ∀ directory kind, latestRunRoot e directory kind = latestRunRoot d directory kind
  /-- The log of a collection. -/
  log : ∀ requested root manifest logDirectory,
    Summary.logPath e requested root manifest logDirectory =
      Summary.logPath d requested root manifest logDirectory
  /-- What comes of comparing the newest summaries, warnings included. -/
  comparisons : ∀ runs, Comparison.outcomes e runs = Comparison.outcomes d runs

namespace Disk.Shuffled

variable {d e : Disk}

/-- A report is read in the same way. -/
theorem read?_eq (shuffled : d.Shuffled e) : SuiteReport.read? e = SuiteReport.read? d := by
  funext path
  rw [SuiteReport.read?, SuiteReport.read?, shuffled.relisted.readText?_eq]

/-- The files below a directory are the same. -/
theorem fileWays_eq (shuffled : d.Shuffled e) : e.fileWays = d.fileWays := by
  funext root
  rw [fileWays, fileWays, shuffled.relisted.waysBelow_eq]

/-- The directories below a directory are the same. -/
theorem directoryWays_eq (shuffled : d.Shuffled e) : e.directoryWays = d.directoryWays := by
  funext root
  rw [directoryWays, directoryWays, shuffled.relisted.waysBelow_eq]

/-- The suites below a directory are the same. -/
theorem suites_eq (shuffled : d.Shuffled e) : Summary.suites e = Summary.suites d := by
  funext root
  rw [Summary.suites, Summary.suites, Suite.resultWays, Suite.resultWays, shuffled.fileWays_eq,
    shuffled.read?_eq]

/-- The failing tests are the same. -/
theorem failures_eq (shuffled : d.Shuffled e) : FailingTest.below e = FailingTest.below d := by
  funext root
  have own : FailingTest.atWay e root = FailingTest.atWay d root := by
    funext way
    rw [FailingTest.atWay, FailingTest.atWay, shuffled.read?_eq]
  rw [FailingTest.below, FailingTest.below, Suite.reportWays, Suite.reportWays, shuffled.fileWays_eq,
    own]

/-- The newest log is the same, whatever it is wanted for. -/
theorem newestLog_eq (shuffled : d.Shuffled e) (directory : Path) (wanted : Path → Bool) :
    e.newest? ((Summary.logsIn e directory).filter wanted) =
      d.newest? ((Summary.logsIn d directory).filter wanted) := by
  rw [Summary.logsIn, Summary.logsIn, shuffled.relisted.isFile_eq, List.filter_filter,
    List.filter_filter]
  exact shuffled.newest?_listing directory _

/-- The log of a collection is the same. -/
theorem logPath_eq (shuffled : d.Shuffled e) : Summary.logPath e = Summary.logPath d := by
  funext requested root manifest logDirectory
  have collected : Summary.collectedLog e root = Summary.collectedLog d root := by
    simpa [Summary.collectedLog] using shuffled.newestLog_eq (root / "logs") fun _ => true
  have run : Summary.newestRunLog e = Summary.newestRunLog d := by
    funext directory
    exact shuffled.newestLog_eq directory Summary.isRunLog
  unfold Summary.logPath Summary.requestedLog
  rw [shuffled.relisted.exists?_eq, collected, run]

/-- The newest summary of a target is the same. -/
theorem newestSummary_eq (shuffled : d.Shuffled e) :
    Comparison.newestSummary e = Comparison.newestSummary d := by
  funext runs identifier
  rw [Comparison.newestSummary, Comparison.newestSummary, shuffled.relisted.isFile_eq]
  exact shuffled.newest?_listing runs _

/-- The same comes of comparing the newest summaries. -/
theorem outcomes_eq (shuffled : d.Shuffled e) : Comparison.outcomes e = Comparison.outcomes d := by
  funext runs
  have stored : Comparison.storedTotals e = Comparison.storedTotals d := by
    funext path
    exact shuffled.relisted.readStored_eq path _
  have pair : Comparison.ofPair e = Comparison.ofPair d := by
    funext found pair
    rw [Comparison.ofPair, Comparison.ofPair, stored]
  rw [Comparison.outcomes, Comparison.outcomes, Comparison.available, Comparison.available,
    shuffled.newestSummary_eq, pair]

/-- The newest results of a kind are the same. -/
theorem latestRunRoot_eq (shuffled : d.Shuffled e) : latestRunRoot e = latestRunRoot d := by
  funext directory kind
  unfold latestRunRoot
  rw [shuffled.relisted.isDirectory_eq]
  dsimp only
  rw [shuffled.newest?_listing]

/-- A shuffled tree gives the same results. -/
theorem sameResults (shuffled : d.Shuffled e) : SameResults d e where
  files root := by rw [filesBelow, filesBelow, shuffled.fileWays_eq]
  directories root := by rw [directoriesBelow, directoriesBelow, shuffled.directoryWays_eq]
  modules root := by rw [shuffled.relisted.modules_eq]
  results root := by rw [Suite.resultWays, Suite.resultWays, shuffled.fileWays_eq]
  suites root := by rw [shuffled.suites_eq]
  sums root := by rw [Summary.sumsBelow, Summary.sumsBelow, shuffled.suites_eq]
  failures root := by rw [shuffled.failures_eq]
  selected root position overrides := by rw [shuffled.failures_eq]
  transient workspace := by
    rw [Suite.transientDirectories, Suite.transientDirectories, Suite.transientWays,
      Suite.transientWays, shuffled.directoryWays_eq]
  temporary temp := by
    rw [Cleanup.temporaryFiles, Cleanup.temporaryFiles, shuffled.sortedListing_eq,
      shuffled.relisted.isFile_eq]
  reports workspace := by
    rw [Cleanup.reportDirectories, Cleanup.reportDirectories, shuffled.sortedListing_eq,
      shuffled.relisted.isDirectory_eq]
  collections runs := by
    rw [Cleanup.collectionsIn, Cleanup.collectionsIn, shuffled.sortedListing_eq,
      shuffled.relisted.isFile_eq]
  newest paths others perm apart := by
    rw [shuffled.newest?_eq]
    exact newest?_perm apart perm
  newestListed := shuffled.newest?_listing
  summary runs identifier := by rw [shuffled.newestSummary_eq]
  runRoot directory kind := by rw [shuffled.latestRunRoot_eq]
  log requested root manifest logDirectory := by rw [shuffled.logPath_eq]
  comparisons runs := by rw [shuffled.outcomes_eq]

end Disk.Shuffled

namespace Comparison

/-- Telling several things is orderless. -/
theorem orderless_forM_tell (events : List Event) : (events.forM tell).Orderless := by
  induction events with
  | nil => exact orderless_pure _
  | cons event events ih => exact (orderless_tell event).bind fun _ => ih

/-- In a shuffled tree the newest summaries are compared in the same way. -/
theorem compareNewest_onto {d e : Disk} {s : Session} (shuffled : d.Shuffled e)
    (own : s.scene.disk = d) (runs : Path) :
    (compareNewest runs).outcome (s.onto e) = (compareNewest runs).outcome s ∧
      ∃ f, ((compareNewest runs).after s).scene.disk.Relisted f ∧
        (compareNewest runs).after (s.onto e) = ((compareNewest runs).after s).onto f := by
  subst own
  -- What is told and given back depends on the comparisons alone.
  have onward : ((warningsOf (outcomes s.scene.disk runs)).forM tell >>= fun _ =>
      (pure (comparisonsOf (outcomes s.scene.disk runs)) : Action (List Comparison))).Orderless :=
    (orderless_forM_tell _).bind fun _ => orderless_pure _
  have same : outcomes (s.onto e).scene.disk runs = outcomes s.scene.disk runs := by
    rw [← shuffled.outcomes_eq]
    rfl
  unfold compareNewest
  rw [outcome_bind_of_ok (outcome_look _ _), outcome_bind_of_ok (outcome_look _ _),
    after_bind_of_ok (outcome_look _ _), after_bind_of_ok (outcome_look _ _), same]
  exact onward s e shuffled.relisted

end Comparison

/-- In whatever order the directories of a tree list their entries, the same is found, counted, selected
and compared, and collecting leaves the same tree with the same manifest. -/
theorem results_listed_in_any_order {d e : Disk} (shuffled : d.Shuffled e) :
    SameResults d e ∧ ∀ s : Session, s.scene.disk = d →
      (∀ request,
        (Collection.collect request).outcome (s.onto e) = (Collection.collect request).outcome s ∧
        (∀ place, ((Collection.collect request).after (s.onto e)).scene.disk.find? place =
          ((Collection.collect request).after s).scene.disk.find? place) ∧
        ((Collection.collect request).after (s.onto e)).scene.disk.entries.Perm
          ((Collection.collect request).after s).scene.disk.entries ∧
        ((Collection.collect request).after (s.onto e)).changes =
          ((Collection.collect request).after s).changes ∧
        ((Collection.collect request).after (s.onto e)).events =
          ((Collection.collect request).after s).events ∧
        ∀ path, (Manifest.load path).outcome ((Collection.collect request).after (s.onto e)) =
          (Manifest.load path).outcome ((Collection.collect request).after s)) ∧
      ∀ runs,
        (Comparison.compareNewest runs).outcome (s.onto e) =
          (Comparison.compareNewest runs).outcome s ∧
        ((Comparison.compareNewest runs).after (s.onto e)).events =
          ((Comparison.compareNewest runs).after s).events := by
  refine ⟨shuffled.sameResults, fun s own => ⟨fun request => ?_, fun runs => ?_⟩⟩
  · obtain ⟨outcome, f, relisted, after⟩ :=
      Collection.orderless_collect request s e (own ▸ shuffled.relisted)
    rw [after]
    exact ⟨outcome, fun place => congrFun relisted.find?_eq place, relisted.perm, rfl, rfl,
      fun path => (orderless_load path _ f relisted).1⟩
  · obtain ⟨outcome, f, -, after⟩ := Comparison.compareNewest_onto shuffled own runs
    rw [after]
    exact ⟨outcome, rfl⟩

/-- The workspace with two modules of one name, listed backwards. -/
def Disk.twinsBackwards : Disk :=
  { Disk.twins with entries := Disk.twins.entries.reverse }

/-- The workspace that is listed backwards has the same entries in its directories. -/
theorem shuffled_twinsBackwards : Disk.twins.Shuffled Disk.twinsBackwards where
  sound := Summary.sound_twins
  sound' := ⟨by decide, by decide, by decide, by decide⟩
  current := rfl
  clock := rfl
  children place := ((Disk.twins.entries.reverse_perm.filterMap _).filterMap _)

/-- Listed backwards the workspace has the same modules in the same order, and they are collected. -/
theorem twins_listed_backwards :
    Disk.twins.Shuffled Disk.twinsBackwards ∧
      Disk.twinsBackwards.listing ⟨"/ws"⟩ = [⟨"/ws/b"⟩, ⟨"/ws/a"⟩] ∧
      Disk.twins.listing ⟨"/ws"⟩ = [⟨"/ws/a"⟩, ⟨"/ws/b"⟩] ∧
      Suite.modules Disk.twinsBackwards ⟨"/ws"⟩ = [["a", "core"], ["b", "core"]] ∧
      (Collection.collect .plain).outcome (Session.twins.onto Disk.twinsBackwards) =
        .ok ⟨"/out-T"⟩ := by
  obtain ⟨same, sessions⟩ := results_listed_in_any_order shuffled_twinsBackwards
  refine ⟨shuffled_twinsBackwards, by decide +kernel, by decide +kernel,
    (same.modules ⟨"/ws"⟩).trans (by decide +kernel),
    ((sessions .twins rfl).1 .plain).1.trans Summary.evaluated_twins.1⟩

end DialectBench

import DialectBench.Proofs.Bench.Opening
import DialectBench.Proofs.Cleanup.Containers
import DialectBench.Proofs.Cleanup.Parts

/-! A cleanup takes away what it is asked to take away and nothing else, and a second one finds nothing more. -/

namespace DialectBench

open Disk Action

namespace Cleanup

variable {lab : Lab} {options : CleanupScope} {runner : Runner} {d e f : Disk} {p q : Path} {s : Session}
  {place : Location} {counts : CleanupCounts} {removed : List String} {quarry : Quarry}
  {marked first second : Location → Prop}

section Removed

/-- What is under places of two kinds is under one of the first kind or of the second. -/
theorem under_or :
    Under (fun top => first top ∨ second top) place ↔ Under first place ∨ Under second place := by
  constructor
  · rintro ⟨some, top, here, inside⟩
    exact here.imp (fun here => ⟨some, top, here, inside⟩) (fun here => ⟨some, top, here, inside⟩)
  · rintro (under | under)
    · exact under.imp fun _ => .inl
    · exact under.imp fun _ => .inr

/-- Where more was taken away afterwards both are gone, and nothing else. -/
theorem clears_or (one : d.Clears (Under first) e) (two : e.Clears (Under second) f) :
    d.Clears (Under fun top => first top ∨ second top) f := by
  refine ⟨two.sound, two.current.trans one.current, fun place lost => ?_, fun place spared => ?_⟩
  · -- What is gone in the end went at the second time, or was gone before.
    by_cases later : Under second place
    · exact two.free place later
    · exact (two.kept place later).trans (one.free place ((under_or.mp lost).resolve_right later))
  · rw [under_or, not_or] at spared
    exact (two.kept place spared.2).trans (one.kept place spared.1)

/-- What lies in other directories, off the way, is not missed in a directory. -/
theorem spares_of_clears (clears : d.Clears (Under marked) e) (past : d.Bypasses p marked)
    (aside : ∀ top, marked top → ∃ other, d.Separate p other ∧ d.LiesIn other top) : d.Spares p e := by
  refine .of_thins clears.thins fun home leads => ⟨?_, ?_⟩
  · rintro inner member ⟨-, top, here, above⟩
    exact past home leads inner member top here above
  · rintro names ⟨-, top, here, above⟩
    obtain ⟨other, separate, outer, leads', inside⟩ := aside top here
    exact (separate home outer leads leads').symm.outside names (inside.trans above)

/-- A part that takes away what it finds in a directory takes away what was there in the beginning, if the parts
before it spared that. -/
theorem part_after {asked : Bool} {root : Path} {count : Nat} (clears : d.Clears (Under marked) e)
    (spares : d.Spares root e)
    (part : Counts count (fun top => asked = true ∧ quarry.FoundAt e root top) ∧
      e.Clears (Under fun top => asked = true ∧ quarry.FoundAt e root top) f) :
    Counts count (fun top => asked = true ∧ quarry.FoundAt d root top) ∧
      d.Clears (Under fun top => marked top ∨ asked = true ∧ quarry.FoundAt d root top) f := by
  -- In a directory that is spared the same is found as before.
  have same : quarry.FoundAt e root = quarry.FoundAt d root := funext fun _ => propext
    ⟨fun found => found.mono clears.within clears.current, fun found => found.of_spares spares⟩
  rw [same] at part
  exact ⟨part.1, clears_or clears part.2⟩

end Removed

/-- The directories of a cleanup are not nested either in a tree with less in it. -/
theorem Unnested.of_within (unnested : Unnested lab options d) (linkless : d.Linkless [])
    (within : e.Within d) (current : e.current = d.current) : Unnested lab options e := by
  have before {p : Path} {home : Location} (leads : e.Leads p home) : d.Leads p home :=
    leads.mono within current.symm
  refine ⟨unnested.separate.imp fun separate one other leads leads' =>
    separate one other (before leads) (before leads'), fun p listed => ?_, fun p listed => ?_⟩
  · exact ((unnested.cache p listed).of_within linkless within current).mono fun _ => And.imp_right before
  · exact ((unnested.reports p listed).of_within linkless within current).mono fun _ =>
      And.imp_right fun found => found.mono within current

/-- What a cleanup does to the file tree, when some containers were removed. -/
def clearFiles (lab : Lab) (options : CleanupScope) (removed : List String) : Action CleanupCounts := do
  purgeCache lab options
  let tempFilesRemoved ← cleanTemp lab options
  let reportDirsRemoved ← cleanReports lab options
  let collectionsPruned ← pruneCollections lab options
  return { containersRemoved := removed, tempFilesRemoved, reportDirsRemoved, collectionsPruned }

/-- A cleanup runs its commands and then clears files. -/
theorem execute_eq (lab : Lab) (options : CleanupScope) (runner : Runner) :
    execute lab options runner =
      dropContainers runner options.containers >>= fun removed =>
        cleanWorkspace lab options runner >>= fun _ => clearFiles lab options removed :=
  rfl

section Files

variable (real : options.dryRun = false)
include real

/-- Clearing files that succeeds has removed exactly what it was asked, and tells how much of each kind. -/
theorem clearFiles_of_ok (sound : s.scene.disk.Sound) (linkless : s.scene.disk.Linkless [])
    (unnested : Unnested lab options s.scene.disk)
    (passed : (clearFiles lab options removed).outcome s = .ok counts) :
    counts.containersRemoved = removed ∧
      Counts counts.tempFilesRemoved (TemporaryAsked lab options s.scene.disk) ∧
      Counts counts.reportDirsRemoved (ReportsAsked lab options s.scene.disk) ∧
      Counts counts.collectionsPruned (CollectionAsked lab options s.scene.disk) ∧
      s.scene.disk.Clears (Under (Asked lab options s.scene.disk))
        ((clearFiles lab options removed).after s).scene.disk := by
  unfold clearFiles at passed ⊢
  obtain ⟨⟨⟩, purged, passed⟩ := outcome_bind_eq_ok.mp passed
  obtain ⟨temporary, cleaned, passed⟩ := outcome_bind_eq_ok.mp passed
  obtain ⟨directories, reported, passed⟩ := outcome_bind_eq_ok.mp passed
  obtain ⟨collections, pruned, passed⟩ := outcome_bind_eq_ok.mp passed
  obtain rfl := Except.ok.inj passed
  rw [after_bind_of_ok purged, after_bind_of_ok cleaned, after_bind_of_ok reported, after_bind_of_ok pruned,
    after_pure]
  obtain ⟨⟨cacheTemp, cacheWork, cacheRuns⟩, ⟨tempWork, tempRuns⟩, workRuns⟩ := separate_pairs unnested.separate
  obtain ⟨tempCache, workCache, runsCache⟩ : s.scene.disk.Bypasses lab.temp _ ∧
      s.scene.disk.Bypasses lab.workspace _ ∧ s.scene.disk.Bypasses lab.runs _ := by
    simpa using unnested.cache
  obtain ⟨workReports, runsReports⟩ : s.scene.disk.Bypasses lab.workspace _ ∧
      s.scene.disk.Bypasses lab.runs _ := by
    simpa using unnested.reports
  -- Temporary files are on no way, as they are no directories.
  have aside (p : Path) : s.scene.disk.Bypasses p (TemporaryAsked lab options s.scene.disk) :=
    bypasses_of_files sound linkless fun _ => TemporaryAsked.isFile
  have keeps {e : Disk} {gone : Location → Prop} (clears : s.scene.disk.Clears gone e) : e.Linkless [] :=
    linkless_of_within linkless clears.within
  have one := purgeCache_of_ok real sound linkless purged
  -- Each further part finds in its directory what was there in the beginning.
  obtain ⟨tempCount, two⟩ : Counts _ (TemporaryAsked lab options _) ∧ s.scene.disk.Clears _ _ := by
    refine part_after one (spares_of_clears one tempCache fun top cache => ?_)
      (cleanTemp_of_ok real one.sound (keeps one) cleaned)
    exact ⟨_, cacheTemp.symm, cache.liesIn⟩
  have past : Disk.Bypasses _ lab.workspace (ReportsAsked lab options _) :=
    (workReports.of_within linkless two.within two.current).mono fun _ =>
      And.imp_right fun found => found.mono two.within two.current
  obtain ⟨reportCount, three⟩ : Counts _ (ReportsAsked lab options _) ∧ s.scene.disk.Clears _ _ := by
    refine part_after two (spares_of_clears two (workCache.or (aside _)) fun top asked => ?_)
      (cleanReports_of_ok real two.sound (keeps two) past reported)
    rcases asked with cache | temp
    · exact ⟨_, cacheWork.symm, cache.liesIn⟩
    · exact ⟨_, tempWork.symm, temp.2.liesIn⟩
  obtain ⟨collectionCount, four⟩ : Counts _ (CollectionAsked lab options _) ∧ s.scene.disk.Clears _ _ := by
    refine part_after three
      (spares_of_clears three ((runsCache.or (aside _)).or runsReports) fun top asked => ?_)
      (pruneCollections_of_ok real three.sound (keeps three) pruned)
    rcases asked with (cache | temp) | reports
    · exact ⟨_, cacheRuns.symm, cache.liesIn⟩
    · exact ⟨_, tempRuns.symm, temp.2.liesIn⟩
    · exact ⟨_, workRuns.symm, reports.2.liesIn⟩
  have all : (fun top => ((CacheAsked lab options s.scene.disk top ∨
      TemporaryAsked lab options s.scene.disk top) ∨ ReportsAsked lab options s.scene.disk top) ∨
      CollectionAsked lab options s.scene.disk top) = Asked lab options s.scene.disk :=
    funext fun top => by rw [or_assoc, or_assoc, Asked]
  exact ⟨rfl, tempCount, reportCount, collectionCount, all ▸ four⟩

end Files

section Frame

variable {α β : Type}

/-- An action takes away nothing but what is asked, whatever comes of it. -/
def Restrained (lab : Lab) (options : CleanupScope) (action : Action α) : Prop :=
  ∀ s : Session, s.scene.disk.Sound → s.scene.disk.Linkless [] →
    s.scene.disk.Steady (action.after s).scene.disk ∧
      s.scene.disk.Thins (Under (Asked lab options s.scene.disk)) (action.after s).scene.disk

/-- What leaves the tree alone takes nothing away. -/
theorem Restrained.of_leavesTree {action : Action α} (leaves : action.LeavesTree) :
    Restrained lab options action := by
  intro s sound linkless
  rw [leaves s]
  exact ⟨⟨sound, linkless, rfl⟩, .refl _⟩

/-- Two actions that take away nothing else do so in turn. -/
theorem Restrained.bind {action : Action α} {next : α → Action β} (one : Restrained lab options action)
    (other : ∀ value, Restrained lab options (next value)) : Restrained lab options (action >>= next) := by
  intro s sound linkless
  obtain ⟨steady, thins⟩ := one s sound linkless
  rw [after_bind]
  split
  · rename_i value _
    obtain ⟨left, more⟩ := other value _ steady.sound steady.linkless
    -- What is asked for in the tree that is left was asked for before.
    exact ⟨⟨left.sound, left.linkless, left.current.trans steady.current⟩, thins.trans <|
      more.imp fun place under => under.imp fun top asked => asked.mono thins.within thins.current⟩
  · exact ⟨steady, thins⟩

/-- A cleanup takes away nothing but what it was asked, also when it fails. -/
theorem restrained_execute (lab : Lab) (real : options.dryRun = false) (still : runner.LeavesTree) :
    Restrained lab options (execute lab options runner) := by
  -- Each part takes away what is asked for of its own kind.
  have cache : Restrained lab options (purgeCache lab options) := fun s sound linkless => by
    obtain ⟨steady, thins, -⟩ := purgeCache_cases real lab sound linkless
    exact ⟨steady, thins.imp fun place under => under.imp fun _ => .inl⟩
  have temp : Restrained lab options (cleanTemp lab options) := fun s sound linkless => by
    rw [cleanTemp_eq real]
    exact (thins_sweep confined_dropFile sound linkless (lists_temporaryFiles sound linkless _)).imp_right
      fun thins => thins.imp fun place under => under.imp fun _ => .inr ∘ .inl
  have reports : Restrained lab options (cleanReports lab options) := fun s sound linkless => by
    rw [cleanReports_eq real]
    exact (thins_sweep confined_removeIfPresent sound linkless
      (lists_reportDirectories sound linkless _)).imp_right
        fun thins => thins.imp fun place under => under.imp fun _ => .inr ∘ .inr ∘ .inl
  have collections : Restrained lab options (pruneCollections lab options) := fun s sound linkless => by
    rw [pruneCollections_eq real]
    exact (thins_sweep confined_dropCollection sound linkless
      (lists_collectionsIn sound linkless _)).imp_right
        fun thins => thins.imp fun place under => under.imp fun _ => .inr ∘ .inr ∘ .inr
  rw [execute_eq]
  refine (Restrained.of_leavesTree (leavesTree_dropContainers still _)).bind fun removed => ?_
  refine (Restrained.of_leavesTree (leavesTree_cleanWorkspace still _ _)).bind fun _ => ?_
  exact cache.bind fun _ => temp.bind fun _ => reports.bind fun _ => collections.bind fun _ =>
    .of_leavesTree fun _ => rfl

end Frame

/-- Working through paths runs no command if the work runs none. -/
theorem quiet_forEach {work : Path → Action Bool} (quiet : ∀ path, (work path).Quiet) (dryRun : Bool)
    (words : String) (paths : List Path) : (forEach dryRun words work paths).Quiet := by
  induction paths with
  | nil => exact .pure 0
  | cons path paths ih =>
    unfold forEach
    split
    · exact (Quiet.tell _).bind fun _ => ih
    · exact (quiet path).bind fun done => ih.bind fun _ => .pure _

/-- Clearing files runs no command. -/
theorem quiet_clearFiles (lab : Lab) (options : CleanupScope) (removed : List String) :
    (clearFiles lab options removed).Quiet := by
  have file (path : Path) : (dropFile path).Quiet :=
    ((quiet_look _).bind fun _ => (quiet_allowed _ _).bind fun _ => .perform _).bind fun _ => .pure _
  have cache : (purgeCache lab options).Quiet := by
    unfold purgeCache
    split
    · refine (quiet_look _).bind fun found => ?_
      split
      · split
        · exact .tell _
        · exact (quiet_removeIfPresent _).bind fun _ => .pure _
      · exact .pure _
    · exact .pure _
  have temp : (cleanTemp lab options).Quiet := by
    unfold cleanTemp
    split
    · exact (quiet_look _).bind fun _ => quiet_forEach file _ _ _
    · exact .pure _
  have reports : (cleanReports lab options).Quiet := by
    unfold cleanReports
    split
    · exact (quiet_look _).bind fun _ => quiet_forEach quiet_removeIfPresent _ _ _
    · exact .pure _
  have collections : (pruneCollections lab options).Quiet := by
    unfold pruneCollections
    split
    · exact (quiet_look _).bind fun _ => quiet_forEach Stint.quiet_dropCollection _ _ _
    · exact .pure _
  exact cache.bind fun _ => temp.bind fun _ => reports.bind fun _ => collections.bind fun _ => .pure _

/-- A cleanup that succeeds removes containers, runs the build's own cleaning if that is asked, and then clears
the files as they were in the beginning. -/
theorem execute_of_ok (still : runner.LeavesTree)
    (passed : (execute lab options runner).outcome s = .ok counts) :
    ∃ (removed : List String) (t : Session) (calls cleaning : List Exchange),
      t.scene.disk = s.scene.disk ∧ (clearFiles lab options removed).outcome t = .ok counts ∧
        (execute lab options runner).after s = (clearFiles lab options removed).after t ∧
        s.Leads (calls ++ cleaning) ((execute lab options runner).after s) ∧
        Dropped options.containers calls removed ∧
        cleaning.map Exchange.call =
          if options.gradleClean then [.run (Bench.cleanCommand lab.workspace options.image)] else [] := by
  rw [execute_eq] at passed ⊢
  obtain ⟨removed, dropped, passed⟩ := outcome_bind_eq_ok.mp passed
  obtain ⟨⟨⟩, cleaned, passed⟩ := outcome_bind_eq_ok.mp passed
  obtain ⟨calls, led, drops⟩ := dropContainers_of_ok dropped
  obtain ⟨cleaning, leads, -, runs⟩ := runs_cleanWorkspace lab options runner
    ((dropContainers runner options.containers).after s)
  rw [after_bind_of_ok dropped, after_bind_of_ok cleaned]
  refine ⟨removed, _, calls, cleaning, ?_, passed, rfl, ?_, drops, ?_⟩
  · -- Neither the calls for the containers nor that for the build change the tree.
    exact (leavesTree_cleanWorkspace still lab options _).trans (leavesTree_dropContainers still _ s)
  · have quiet := (quiet_clearFiles lab options removed).leads
      ((cleanWorkspace lab options runner).after ((dropContainers runner options.containers).after s))
    simpa using (led.trans leads).trans quiet
  · rw [(runs () cleaned).1]
    split <;> rfl

/-- A cleanup that succeeds on a tree without links, in directories that lie in none of each other and on ways
to them that do not lead through what is removed, has taken away exactly what it was asked: the cache of the
build, the temporary files, the reports of the modules and the complete collections, each if that was chosen,
with all in it. Everything else is as it was, and it tells how much of each kind there was. The containers that
it tells are those that were named, found and removed, in the order of their names. A second one with the same
options takes nothing more away. -/
theorem cleanup_exact (real : options.dryRun = false) (still : runner.LeavesTree)
    (sound : s.scene.disk.Sound) (linkless : s.scene.disk.Linkless [])
    (unnested : Unnested lab options s.scene.disk)
    (passed : (execute lab options runner).outcome s = .ok counts) :
    s.scene.disk.Clears (Under (Asked lab options s.scene.disk))
        ((execute lab options runner).after s).scene.disk ∧
      Counts counts.tempFilesRemoved (TemporaryAsked lab options s.scene.disk) ∧
      Counts counts.reportDirsRemoved (ReportsAsked lab options s.scene.disk) ∧
      Counts counts.collectionsPruned (CollectionAsked lab options s.scene.disk) ∧
      (∃ calls cleaning, s.Leads (calls ++ cleaning) ((execute lab options runner).after s) ∧
        Dropped options.containers calls counts.containersRemoved ∧
        cleaning.map Exchange.call =
          if options.gradleClean then [.run (Bench.cleanCommand lab.workspace options.image)] else []) ∧
      counts.containersRemoved.Sublist options.containers ∧
      ∀ (other : Runner) (t : Session), other.LeavesTree →
        t.scene.disk = ((execute lab options runner).after s).scene.disk →
          (∀ place, ((execute lab options other).after t).scene.disk.view place = t.scene.disk.view place) ∧
            ∀ again, (execute lab options other).outcome t = .ok again →
              again.tempFilesRemoved = 0 ∧ again.reportDirsRemoved = 0 ∧ again.collectionsPruned = 0 := by
  obtain ⟨removed, u, calls, cleaning, tree, cleared, ends, led, drops, runs⟩ := execute_of_ok still passed
  rw [← tree] at sound linkless unnested ⊢
  obtain ⟨rfl, temp, reports, collections, clears⟩ := clearFiles_of_ok real sound linkless unnested cleared
  rw [← ends] at clears
  refine ⟨clears, temp, reports, collections, ⟨calls, cleaning, led, drops, runs⟩, drops.sublist, ?_⟩
  intro other t quiet same
  rw [← same] at clears
  have solid := linkless_of_within linkless clears.within
  have before {top : Location} (asked : Asked lab options t.scene.disk top) :
      Asked lab options u.scene.disk top := asked.mono clears.within clears.current
  refine ⟨fun place => ?_, fun again passed => ?_⟩
  · -- What is still asked for is gone already.
    obtain ⟨-, thins⟩ := restrained_execute lab real quiet t clears.sound solid
    rcases thins.seen place with same | ⟨lost, gone⟩
    · exact same
    · rw [gone, clears.free place (lost.imp fun _ => before)]
  · obtain ⟨removed, v, -, -, alike, cleared, -⟩ := execute_of_ok quiet passed
    have still : Unnested lab options v.scene.disk :=
      alike ▸ unnested.of_within linkless clears.within clears.current
    obtain ⟨-, temp, reports, collections, -⟩ :=
      clearFiles_of_ok real (alike ▸ clears.sound) (alike ▸ solid) still cleared
    rw [alike] at temp reports collections
    -- Whatever the second one found would have been taken away by the first.
    have none {quarry : Quarry} {root : Path} {top : Location} (found : quarry.FoundAt t.scene.disk root top)
        (asked : Asked lab options t.scene.disk top) : False :=
      found.view_ne_none clears.sound (clears.free top ⟨found.ne_nil, top, before asked, List.prefix_refl top⟩)
    exact ⟨temp.eq_zero fun top asked => none asked.2 (.inr (.inl asked)),
      reports.eq_zero fun top asked => none asked.2 (.inr (.inr (.inl asked))),
      collections.eq_zero fun top asked => none asked.2 (.inr (.inr (.inr asked)))⟩

/-- A lab in which a comparison was made: a cache, temporary files, a module with reports and results, and a
collection that is complete beside one that is not. -/
def used : Disk :=
  .around [(["caches"], .directory 0), (["caches", "a.jar"], .file [] false 0),
    (["tmp", "a.log"], .file [] false 0), (["tmp", "a.txt"], .file [] false 0),
    (["ws"], .directory 0), (["ws", "m"], .directory 0), (["ws", "m", "target"], .directory 0),
    (["ws", "m", "target", "reports"], .directory 0), (["ws", "m", "target", "test-results"], .directory 0),
    (["runs", "c"], .directory 0), (["runs", "c", "a.xml"], .file [] false 0),
    (["runs", "c", "collection.json"], .file [] false 0), (["runs", "d"], .directory 0)]

/-- All is to be cleaned up. -/
def everything : CleanupScope where
  containers := ["mysql"]
  image := "eclipse-temurin:21-jdk"
  gradleClean := true
  purgeCache := true
  cleanTemp := true
  cleanReports := true
  pruneCollections := true
  dryRun := false

/-- A runner that leaves the file tree alone and finds every container. -/
def finding : Runner where
  run _ _ scene := { outcome := .ok ⟨0, "1\n", ""⟩, scene }
  stream _ _ _ _ scene := { outcome := .ok ⟨0, false⟩, scene }

/-- Of the used lab the results, the other temporary file and the other collection are left. -/
theorem used_cleaned :
    (execute .sample everything finding).outcome (.at used) = .ok ⟨["mysql"], 1, 1, 1⟩ ∧
      used.Clears (Under (Asked .sample everything used))
        ((execute .sample everything finding).after (.at used)).scene.disk ∧
      ((execute .sample everything finding).after (.at used)).scene.disk.places =
        [["tmp"], ["log"], ["out"], ["runs"], ["tmp", "a.txt"], ["ws"], ["ws", "m"], ["ws", "m", "target"],
          ["ws", "m", "target", "test-results"], ["runs", "d"]] := by
  have passed : (execute .sample everything finding).outcome (.at used) = .ok ⟨["mysql"], 1, 1, 1⟩ := by
    decide +kernel
  have linkless : used.Linkless [] := linkless_of_entries (by decide)
  have unnested : Unnested .sample everything used :=
    .of_straight linkless (by decide +kernel) (by decide +kernel)
  exact ⟨passed, (cleanup_exact rfl (fun _ _ _ => rfl) ⟨by decide, by decide, by decide, by decide⟩ linkless
    unnested passed).1, by decide +kernel⟩

/-- A cleanup that succeeds, on a tree without links and in directories that lie in none of each other, does not
take away exactly what it was asked. -/
structure Misses (lab : Lab) (options : CleanupScope) (runner : Runner) (s : Session) : Prop where
  /-- It is not a rehearsal. -/
  real : options.dryRun = false
  /-- The commands leave the tree alone. -/
  still : runner.LeavesTree
  /-- The entries of the tree fit together. -/
  sound : s.scene.disk.Sound
  /-- It has no links. -/
  linkless : s.scene.disk.Linkless []
  /-- The directories lie in none of each other. -/
  separate : [lab.gradleCache, lab.temp, lab.workspace, lab.runs].Pairwise s.scene.disk.Separate
  /-- It succeeds. -/
  passed : ∃ counts, (execute lab options runner).outcome s = .ok counts
  /-- Something else is gone than what was asked, or something of that is left. -/
  missed : ¬ s.scene.disk.Clears (Under (Asked lab options s.scene.disk))
    ((execute lab options runner).after s).scene.disk

/-- A lab with two modules that have reports, and with a complete collection beside the cache. -/
def crossed : Disk :=
  .around [(["caches"], .directory 0), (["ws"], .directory 0), (["ws", "m"], .directory 0),
    (["ws", "m", "target"], .directory 0), (["ws", "m", "target", "reports"], .directory 0),
    (["ws", "n"], .directory 0), (["ws", "n", "target"], .directory 0),
    (["ws", "n", "target", "reports"], .directory 0), (["runs", "c"], .directory 0),
    (["runs", "c", "collection.json"], .file [] false 0)]

/-- What is asked for is missed when the way to it leads through what is removed before: the reports of the
second module when the workspace is given by way of those of the first, and the collection when the directory of
runs is given by way of the cache. -/
theorem crossed_missed :
    Misses { Lab.sample with workspace := "ws/m/target/reports/../../.." } everything finding (.at crossed) ∧
      Misses { Lab.sample with runs := "caches/../runs" } everything finding (.at crossed) := by
  have sound : crossed.Sound := ⟨by decide, by decide, by decide, by decide⟩
  have linkless : crossed.Linkless [] := linkless_of_entries (by decide)
  constructor
  · refine ⟨rfl, fun _ _ _ => rfl, sound, linkless, by decide +kernel,
      ⟨⟨["mysql"], 0, 1, 1⟩, by decide +kernel⟩, fun clears => ?_⟩
    have leads : crossed.Leads "ws/m/target/reports/../../.." ["ws"] :=
      directory?_eq_some.mp (by decide +kernel)
    have found : reports.FoundAt crossed "ws/m/target/reports/../../.." ["ws", "n", "target", "reports"] :=
      ⟨["ws"], "n", leads, ⟨trivial, .directory 0, by decide, rfl⟩, rfl⟩
    -- The reports of the second module are asked for, and they are still there.
    have gone := clears.free _ ⟨found.ne_nil, _, .inr (.inr (.inl ⟨rfl, found⟩)), List.prefix_refl _⟩
    exact absurd gone (by decide +kernel)
  · refine ⟨rfl, fun _ _ _ => rfl, sound, linkless, by decide +kernel,
      ⟨⟨["mysql"], 0, 2, 0⟩, by decide +kernel⟩, fun clears => ?_⟩
    have leads : crossed.Leads "caches/../runs" ["runs"] := directory?_eq_some.mp (by decide +kernel)
    have found : collection.FoundAt crossed "caches/../runs" ["runs", "c"] :=
      ⟨["runs"], "c", leads, ⟨trivial, .file [] false 0, by decide, rfl⟩, rfl⟩
    -- The collection is asked for, and it is still there.
    have gone := clears.free _ ⟨found.ne_nil, _, .inr (.inr (.inr ⟨rfl, found⟩)), List.prefix_refl _⟩
    exact absurd gone (by decide +kernel)

end Cleanup

end DialectBench

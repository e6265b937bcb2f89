import DialectBench.Proofs.Cleanup.Sweep
import DialectBench.Proofs.Disk.Trail

/-! What a cleanup is asked to take away, and its parts: each that succeeds has taken away exactly that. -/

namespace DialectBench

open Disk Action

namespace Disk

variable {d e : Disk} {p q : Path} {home place : Location}

/-- A way without links that leads nowhere up passes only what lies above its goal. -/
theorem Goes.prefix_of_mem {budget left : Nat} {goal : Location} {steps : List Step}
    (goes : d.Goes budget place steps left goal) (linkless : d.Linkless []) (straight : .up ∉ steps) :
    ∀ inner ∈ d.trailFrom budget place steps, inner <+: goal := by
  -- The first place on the rest of the way lies above the goal, and what lies above that place does so, too.
  induction goes with
  | done =>
    rw [trailFrom_nil]
    exact List.forall_mem_singleton.mpr (List.prefix_refl _)
  | here there _ ih =>
    have further := ih (fun up => straight (List.mem_cons_of_mem _ up))
    rw [trailFrom_cons, view_eq_directory.mpr there]
    exact List.forall_mem_cons.mpr ⟨further _ (mem_trailFrom_self ..), further⟩
  | up => exact absurd List.mem_cons_self straight
  | @down _ _ _ _ _ node _ there seen solid _ ih =>
    have further := ih (fun up => straight (List.mem_cons_of_mem _ up))
    rw [trailFrom_cons, view_eq_directory.mpr there]
    dsimp only
    rw [seen]
    cases node with
    | link target => exact absurd rfl (solid target)
    | file | directory =>
      have next := further _ (mem_trailFrom_self ..)
      exact List.forall_mem_cons.mpr ⟨(List.prefix_append _ _).trans next, further⟩
  | link _ seen _ _ => exact absurd seen (linkless _ _)

/-- A way without links to a directory passes only directories. -/
theorem Goes.isDirectoryAt_of_mem {budget left : Nat} {goal : Location} {steps : List Step}
    (goes : d.Goes budget place steps left goal) (linkless : d.Linkless [])
    (stands : d.isDirectoryAt goal = true) :
    ∀ inner ∈ d.trailFrom budget place steps, d.isDirectoryAt inner = true := by
  induction goes with
  | done =>
    rw [trailFrom_nil]
    exact List.forall_mem_singleton.mpr stands
  | here there _ ih | up there _ ih =>
    rw [trailFrom_cons, view_eq_directory.mpr there]
    exact List.forall_mem_cons.mpr ⟨there, ih stands⟩
  | @down _ _ _ _ _ node _ there seen solid _ ih =>
    rw [trailFrom_cons, view_eq_directory.mpr there]
    dsimp only
    rw [seen]
    cases node with
    | link target => exact absurd rfl (solid target)
    | file | directory => exact List.forall_mem_cons.mpr ⟨there, ih stands⟩
  | link _ seen _ _ => exact absurd seen (linkless _ _)

/-- Without links a path that leads to a directory passes only directories. -/
theorem Leads.isDirectoryAt_of_mem (leads : d.Leads p home) (linkless : d.Linkless []) :
    ∀ inner ∈ d.trail p, d.isDirectoryAt inner = true := by
  obtain ⟨left, goes⟩ := leads.goes
  exact goes.isDirectoryAt_of_mem linkless leads.stands

/-- Two directories lie in none of each other. -/
def Separate (d : Disk) (p q : Path) : Prop :=
  ∀ one other, d.Leads p one → d.Leads q other → Aloof one other

/-- Two paths are looked up to tell whether their directories lie in each other. -/
theorem separate_iff :
    d.Separate p q ↔ ∀ one ∈ d.directory? p, ∀ other ∈ d.directory? q, Aloof one other := by
  simp only [Separate, Option.mem_def, directory?_eq_some]
  exact ⟨fun separate one leads other leads' => separate one other leads leads',
    fun separate one other leads leads' => separate one leads other leads'⟩

instance (d : Disk) (p q : Path) : Decidable (d.Separate p q) :=
  decidable_of_iff _ separate_iff.symm

/-- Which of two directories comes first makes no difference. -/
theorem Separate.symm (separate : d.Separate p q) : d.Separate q p :=
  fun _ _ leads other => (separate _ _ other leads).symm

/-- The way to a directory does not lead through what is at some places. -/
def Bypasses (d : Disk) (p : Path) (marked : Location → Prop) : Prop :=
  ∀ home, d.Leads p home → ∀ inner ∈ d.trail p, ∀ top, marked top → ¬ top <+: inner

/-- A way that leads past some places leads past fewer of them. -/
theorem Bypasses.mono {marked fewer : Location → Prop} (past : d.Bypasses p marked)
    (implies : ∀ top, fewer top → marked top) : d.Bypasses p fewer :=
  fun home leads inner member top here => past home leads inner member top (implies top here)

/-- A way that leads past places of two kinds leads past all of them. -/
theorem Bypasses.or {first second : Location → Prop} (one : d.Bypasses p first) (two : d.Bypasses p second) :
    d.Bypasses p fun top => first top ∨ second top :=
  fun home leads inner member top here =>
    here.elim (one home leads inner member top) (two home leads inner member top)

/-- A way that is left in a tree with less in it leads past the same places. -/
theorem Bypasses.of_within {marked : Location → Prop} (past : d.Bypasses p marked) (linkless : d.Linkless [])
    (within : e.Within d) (current : e.current = d.current) : e.Bypasses p marked := by
  intro home leads inner member
  -- The directories on the way that is left are there in both trees.
  have solid := linkless_of_within linkless within
  have same : d.trail p = e.trail p := trail_congr current.symm fun inner member => by
    have seen := view_eq_directory.mpr (leads.isDirectoryAt_of_mem solid inner member)
    rw [seen]
    exact within _ _ seen
  exact past home (leads.mono within current.symm) inner (same ▸ member)

/-- Without links no way to a directory leads through files. -/
theorem bypasses_of_files {marked : Location → Prop} (sound : d.Sound) (linkless : d.Linkless [])
    (files : ∀ top, marked top → d.Holds Node.isFile top) : d.Bypasses p marked := by
  rintro home leads inner member top here ⟨names, rfl⟩
  -- Above a directory on the way there are only directories, and none of them is a file.
  have stands := leads.isDirectoryAt_of_mem linkless _ member
  have above : d.isDirectoryAt top = true := by
    by_cases last : names = []
    · simpa [last] using stands
    · exact sound.isDirectoryAt_of_append last (by simp [view_eq_directory.mpr stands])
  obtain ⟨node, seen, file⟩ := files top here
  rw [view_eq_directory.mpr above] at seen
  cases seen
  cases file

/-- Some place lies in the directory that a path leads to. -/
def LiesIn (d : Disk) (p : Path) (place : Location) : Prop :=
  ∃ home, d.Leads p home ∧ home <+: place

/-- Without links a way to a directory that leads nowhere up does not lead through what lies in others, and not
through what is below that directory. -/
theorem bypasses_of_straight {marked : Location → Prop} (linkless : d.Linkless []) (straight : .up ∉ p.steps)
    (aside : ∀ top, marked top → (∃ other, d.Separate p other ∧ d.LiesIn other top) ∨
      ∃ home, d.Leads p home ∧ home.length < top.length) : d.Bypasses p marked := by
  intro home leads inner member top here within
  obtain ⟨left, goes⟩ := leads.goes
  -- What is passed lies above the goal, and so does what it lies in.
  have above := within.trans (goes.prefix_of_mem linkless straight inner member)
  rcases aside top here with ⟨other, separate, outer, leads', inside⟩ | ⟨own, leads', longer⟩
  · exact (separate home outer leads leads').2 (inside.trans above)
  · rw [leads'.unique leads] at longer
    exact absurd above.length_le (by omega)

end Disk

namespace Cleanup

variable {lab : Lab} {options : CleanupScope} {runner : Runner} {d e base : Disk} {s : Session}
  {top place : Location} {counts : CleanupCounts} {removed : List String} {quarry : Quarry}

section Asked

variable (lab : Lab) (options : CleanupScope) (d : Disk) (top : Location)

/-- The cache of the build is to be removed. -/
def CacheAsked : Prop := options.purgeCache = true ∧ d.Leads lab.gradleCache top

/-- A temporary file is to be removed. -/
def TemporaryAsked : Prop := options.cleanTemp = true ∧ temporary.FoundAt d lab.temp top

/-- The reports of a module are to be removed. -/
def ReportsAsked : Prop := options.cleanReports = true ∧ reports.FoundAt d lab.workspace top

/-- A complete collection is to be removed. -/
def CollectionAsked : Prop := options.pruneCollections = true ∧ collection.FoundAt d lab.runs top

/-- Something is to be removed. -/
def Asked : Prop :=
  CacheAsked lab options d top ∨ TemporaryAsked lab options d top ∨ ReportsAsked lab options d top ∨
    CollectionAsked lab options d top

end Asked

/-- More is asked for in a tree with more in it. -/
theorem Asked.mono (asked : Asked lab options e top) (within : e.Within d)
    (current : e.current = d.current) : Asked lab options d top :=
  asked.imp (And.imp_right fun leads => leads.mono within current.symm) <|
    Or.imp (And.imp_right fun found => found.mono within current) <|
      Or.imp (And.imp_right fun found => found.mono within current)
        (And.imp_right fun found => found.mono within current)

/-- What is found lies below the directory in which it was looked for. -/
theorem Quarry.FoundAt.deeper {root : Path} (found : quarry.FoundAt d root place) :
    ∃ home, d.Leads root home ∧ home.length < place.length := by
  obtain ⟨home, name, leads, -, rfl⟩ := found
  exact ⟨home, leads, by simp⟩

/-- So it lies in that directory. -/
theorem Quarry.FoundAt.liesIn {root : Path} (found : quarry.FoundAt d root place) : d.LiesIn root place := by
  obtain ⟨home, name, leads, -, rfl⟩ := found
  exact ⟨home, leads, List.prefix_append _ _⟩

/-- The cache lies in the directory of that path. -/
theorem CacheAsked.liesIn (asked : CacheAsked lab options d top) : d.LiesIn lab.gradleCache top :=
  ⟨top, asked.2, List.prefix_refl top⟩

/-- A temporary file is a file. -/
theorem TemporaryAsked.isFile (asked : TemporaryAsked lab options d top) : d.Holds Node.isFile top := by
  obtain ⟨-, home, name, -, ⟨-, held⟩, rfl⟩ := asked
  simpa [temporary] using held

/-- The directories of a cleanup lie in none of each other, and no way to one of them leads through what is
removed before it is followed. -/
structure Unnested (lab : Lab) (options : CleanupScope) (d : Disk) : Prop where
  /-- They lie in none of each other. -/
  separate : [lab.gradleCache, lab.temp, lab.workspace, lab.runs].Pairwise d.Separate
  /-- The ways lead past the cache. -/
  cache : ∀ p ∈ [lab.temp, lab.workspace, lab.runs], d.Bypasses p (CacheAsked lab options d)
  /-- The ways to the workspace and to the collections lead past the reports. -/
  reports : ∀ p ∈ [lab.workspace, lab.runs], d.Bypasses p (ReportsAsked lab options d)

/-- Each of the directories lies in none of those that are cleared after it, nor they in it. -/
theorem separate_pairs (separate : [lab.gradleCache, lab.temp, lab.workspace, lab.runs].Pairwise d.Separate) :
    (d.Separate lab.gradleCache lab.temp ∧ d.Separate lab.gradleCache lab.workspace ∧
        d.Separate lab.gradleCache lab.runs) ∧
      (d.Separate lab.temp lab.workspace ∧ d.Separate lab.temp lab.runs) ∧
        d.Separate lab.workspace lab.runs := by
  simpa using separate

/-- On ways that lead nowhere up the directories have to lie in none of each other, and nothing else. -/
theorem Unnested.of_straight (linkless : d.Linkless [])
    (separate : [lab.gradleCache, lab.temp, lab.workspace, lab.runs].Pairwise d.Separate)
    (straight : ∀ p ∈ [lab.temp, lab.workspace, lab.runs], .up ∉ p.steps) : Unnested lab options d := by
  obtain ⟨⟨cacheTemp, cacheWork, cacheRuns⟩, -, workRuns⟩ := separate_pairs separate
  refine ⟨separate, fun p listed => ?_, fun p listed => ?_⟩
  · refine bypasses_of_straight linkless (straight p listed) fun top asked => .inl ⟨_, ?_, asked.liesIn⟩
    simp only [List.mem_cons, List.not_mem_nil, or_false] at listed
    rcases listed with rfl | rfl | rfl
    exacts [cacheTemp.symm, cacheWork.symm, cacheRuns.symm]
  · refine bypasses_of_straight linkless (straight p (List.mem_cons_of_mem _ listed)) fun top asked => ?_
    simp only [List.mem_cons, List.not_mem_nil, or_false] at listed
    -- The reports are deep in the workspace itself, and apart from the directory of runs.
    rcases listed with rfl | rfl
    · exact .inr asked.2.deeper
    · exact .inl ⟨_, workRuns.symm, asked.2.liesIn⟩

/-- Under more places there is more. -/
theorem Under.imp {marked more : Location → Prop} (under : Under marked place)
    (implies : ∀ top, marked top → more top) : Under more place :=
  under.imp_right fun ⟨top, here, inside⟩ => ⟨top, implies top here, inside⟩

/-- Reports are behind the entry of a workspace. -/
theorem exists_of_mem_reportDirectories {root path : Path} (sound : d.Sound)
    (listed : path ∈ reportDirectories d root) : ∃ home name, d.Leads root home ∧
      (∀ other ∈ name :: reports.behind, IsPlain other) ∧ path = root.extend (name :: reports.behind) := by
  obtain ⟨entry, member, rfl⟩ := List.mem_map.mp (List.mem_filter.mp listed).1
  obtain ⟨home, name, leads, seen, rfl⟩ := sound.mem_sortedListing.mp member
  exact ⟨home, name, leads, List.forall_mem_cons.mpr ⟨sound.isPlain seen (by simp), by decide⟩, rfl⟩

section Parts

variable (real : options.dryRun = false)
include real

/-- Temporary files are swept. -/
theorem cleanTemp_eq : cleanTemp lab options =
    sweep options.cleanTemp "would remove" dropFile fun d => temporaryFiles d lab.temp := by
  unfold cleanTemp
  rw [real]
  rfl

/-- Reports are swept. -/
theorem cleanReports_eq : cleanReports lab options =
    sweep options.cleanReports "would remove" Action.removeIfPresent fun d =>
      reportDirectories d lab.workspace := by
  unfold cleanReports
  rw [real]
  rfl

/-- Complete collections are swept. -/
theorem pruneCollections_eq : pruneCollections lab options =
    sweep options.pruneCollections "would prune collection" dropCollection fun d =>
      collectionsIn d lab.runs := by
  unfold pruneCollections
  rw [real]
  rfl

/-- Purging takes away the cache and nothing else, and all of it if it succeeds. -/
theorem purgeCache_cases (lab : Lab) (sound : s.scene.disk.Sound) (linkless : s.scene.disk.Linkless []) :
    s.scene.disk.Steady ((purgeCache lab options).after s).scene.disk ∧
      s.scene.disk.Thins (Under (CacheAsked lab options s.scene.disk))
        ((purgeCache lab options).after s).scene.disk ∧
      ((purgeCache lab options).outcome s = .ok () → ∀ place,
        Under (CacheAsked lab options s.scene.disk) place →
          ((purgeCache lab options).after s).scene.disk.view place = none) := by
  have steady : s.scene.disk.Steady s.scene.disk := ⟨sound, linkless, rfl⟩
  cases asked : options.purgeCache with
  | false =>
    have same : purgeCache lab options = pure () := by simp [purgeCache, asked]
    rw [same]
    refine ⟨steady, .refl _, fun _ place ⟨_, top, ⟨wanted, _⟩, _⟩ => ?_⟩
    rw [asked] at wanted
    cases wanted
  | true =>
    have same : purgeCache lab options = do
        if ← Action.look fun d => d.exists? lab.gradleCache then
          let _ ← Action.removeIfPresent lab.gradleCache
        else return () := by
      simp [purgeCache, asked, real]
    rw [same, after_bind_of_ok (outcome_look _ s), outcome_bind_of_ok (outcome_look _ s), after_look]
    -- The cache is not there, or it stays because of a failure, or it is removed.
    rcases removeIfPresent_cases lab.gradleCache s with
      ⟨missing, -⟩ | ⟨found, ⟨failure, failed, still⟩ | ⟨changes, removing, told, tree⟩⟩
    · rw [missing]
      refine ⟨steady, .refl _, fun _ place ⟨_, top, ⟨_, leads⟩, _⟩ => ?_⟩
      -- A cache that its path leads to is not missing.
      rw [leads.exists?_eq] at missing
      cases missing
    · rw [found, if_pos rfl, after_bind_of_error failed, outcome_bind_of_error failed, still]
      exact ⟨steady, .refl _, fun passed => by cases passed⟩
    · obtain ⟨leads, rfl⟩ := leads_of_removingTree linkless found removing
      obtain ⟨left, thins⟩ := clear_deletions sound (s.scene.disk.landing lab.gradleCache)
      rw [found, if_pos rfl, after_bind_of_ok told, after_pure, tree]
      refine ⟨steady.thin thins left, thins.inner.imp fun place ⟨inner, inside⟩ =>
        ⟨inner, _, ⟨asked, leads⟩, inside⟩, fun _ place ⟨inner, top, ⟨_, other⟩, inside⟩ => ?_⟩
      obtain rfl := leads.unique other
      exact view_deletions_inside sound inner inside

/-- Purging that succeeds has removed exactly the cache. -/
theorem purgeCache_of_ok (sound : s.scene.disk.Sound) (linkless : s.scene.disk.Linkless [])
    (passed : (purgeCache lab options).outcome s = .ok ()) :
    s.scene.disk.Clears (Under (CacheAsked lab options s.scene.disk))
      ((purgeCache lab options).after s).scene.disk := by
  obtain ⟨steady, thins, gone⟩ := purgeCache_cases real lab sound linkless
  exact .of_thins steady.sound thins (gone passed)

variable {count : Nat} (sound : s.scene.disk.Sound) (linkless : s.scene.disk.Linkless [])
include sound linkless

/-- Cleaning that succeeds has removed exactly the temporary files, and tells how many there were. -/
theorem cleanTemp_of_ok (passed : (cleanTemp lab options).outcome s = .ok count) :
    Counts count (TemporaryAsked lab options s.scene.disk) ∧
      s.scene.disk.Clears (Under (TemporaryAsked lab options s.scene.disk))
        ((cleanTemp lab options).after s).scene.disk := by
  rw [cleanTemp_eq real] at passed ⊢
  have lists := lists_temporaryFiles sound linkless lab.temp
  refine sweep_of_ok confined_dropFile sound linkless lists (fun _ _ => True) ?_ ?_ ?_ passed
  · intro path listed t done steady _ dropped
    have inner := ((lists.mem_iff _).mp (List.mem_map_of_mem listed)).ne_nil
    have lands : t.scene.disk.landing path = s.scene.disk.landing path := landing_congr steady.current
    rcases dropFile_cases path steady.sound steady.linkless with
      ⟨failure, failed, -⟩ | ⟨told, -, tree⟩
    · rw [failed] at dropped
      cases dropped
    · rw [told] at dropped
      refine ⟨(Except.ok.inj dropped).symm, ?_⟩
      rw [tree, lands, view_deletions steady.sound inner, if_pos (List.prefix_refl _)]
  · exact fun _ => List.pairwise_of_forall fun _ _ _ _ _ _ _ still => still
  · exact fun _ _ => trivial

/-- Pruning that succeeds has removed exactly the complete collections, and tells how many there were. -/
theorem pruneCollections_of_ok (passed : (pruneCollections lab options).outcome s = .ok count) :
    Counts count (CollectionAsked lab options s.scene.disk) ∧
      s.scene.disk.Clears (Under (CollectionAsked lab options s.scene.disk))
        ((pruneCollections lab options).after s).scene.disk := by
  rw [pruneCollections_eq real] at passed ⊢
  have lists := lists_collectionsIn sound linkless lab.runs
  refine sweep_of_ok confined_dropCollection sound linkless lists (fun _ _ => True) ?_ ?_ ?_ passed
  · intro path listed t done steady _ dropped
    have inner := ((lists.mem_iff _).mp (List.mem_map_of_mem listed)).ne_nil
    have lands : t.scene.disk.landing path = s.scene.disk.landing path := landing_congr steady.current
    obtain ⟨home, name, leads, seen, rfl⟩ := sound.mem_sortedListing.mp (List.mem_filter.mp listed).1
    have named : (lab.runs / name).IsNamed :=
      Path.isNamed_div leads.named (sound.isPlain seen (by simp))
    rw [← lands] at inner ⊢
    exact dropCollection_of_ok steady.sound steady.linkless inner named dropped
  · exact fun _ => List.pairwise_of_forall fun _ _ _ _ _ _ _ still => still
  · exact fun _ _ => trivial

/-- Cleaning that succeeds has removed exactly the reports, and tells how many there were. -/
theorem cleanReports_of_ok (past : s.scene.disk.Bypasses lab.workspace (ReportsAsked lab options s.scene.disk))
    (passed : (cleanReports lab options).outcome s = .ok count) :
    Counts count (ReportsAsked lab options s.scene.disk) ∧
      s.scene.disk.Clears (Under (ReportsAsked lab options s.scene.disk))
        ((cleanReports lab options).after s).scene.disk := by
  rw [cleanReports_eq real] at passed ⊢
  have lists := lists_reportDirectories sound linkless lab.workspace
  -- The way to the workspace is as it was, so the path of a directory that is left still leads to it.
  refine sweep_of_ok confined_removeIfPresent sound linkless lists
    (fun d path => (∀ inner ∈ s.scene.disk.trail lab.workspace, d.view inner = s.scene.disk.view inner) ∧
      d.isDirectoryAt (s.scene.disk.landing path) = true) ?_ ?_ ?_ passed
  · rintro path listed t done steady ⟨same, stands⟩ dropped
    obtain ⟨home, name, leads, plain, rfl⟩ := exists_of_mem_reportDirectories sound listed
    have lands : t.scene.disk.landing _ = s.scene.disk.landing _ :=
      landing_congr (p := lab.workspace.extend (name :: reports.behind)) steady.current
    have place := leads.landing_extend linkless plain
    have inner := ((lists.mem_iff _).mp (List.mem_map_of_mem listed)).ne_nil
    have still := leads_congr steady.current same leads
    rw [place] at stands
    have found := still.extend steady.sound (Collection.linkless_below steady.linkless _) plain stands
    rw [← place, ← lands] at found
    rw [← lands] at inner ⊢
    exact removeIfPresent_of_leads steady.sound steady.linkless inner found dropped
  · intro asked
    have distinct : (reportDirectories s.scene.disk lab.workspace).Pairwise fun path other =>
        s.scene.disk.landing path ≠ s.scene.disk.landing other := List.pairwise_map.mp lists.distinct
    refine distinct.imp_of_mem fun {path other} listed listed' apart d e _ _ thins ⟨same, stands⟩ => ?_
    obtain ⟨home, name, leads, plain, rfl⟩ := exists_of_mem_reportDirectories sound listed
    obtain ⟨home', name', leads', plain', rfl⟩ := exists_of_mem_reportDirectories sound listed'
    obtain rfl := leads.unique leads'
    have marked : ReportsAsked lab options s.scene.disk _ :=
      ⟨asked, (lists.mem_iff _).mp (List.mem_map_of_mem listed)⟩
    refine ⟨fun inner member => ?_, ?_⟩
    · rw [← same inner member]
      exact (thins.seen inner).resolve_right fun gone => past home leads inner member _ marked gone.1
    · -- Both are as deep in the workspace, so none of them is in the other one.
      rw [← view_eq_directory] at stands ⊢
      rw [← stands]
      refine (thins.seen _).resolve_right fun gone => apart (gone.1.eq_of_length ?_)
      rw [leads.landing_extend linkless plain, leads.landing_extend linkless plain']
      simp
  · intro path listed
    obtain ⟨home, name, leads, plain, rfl⟩ := exists_of_mem_reportDirectories sound listed
    rw [leads.landing_extend linkless plain,
      ← leads.isDirectory_extend sound (Collection.linkless_below linkless _) plain]
    exact ⟨fun _ _ => rfl, (List.mem_filter.mp listed).2⟩

end Parts

end Cleanup

end DialectBench

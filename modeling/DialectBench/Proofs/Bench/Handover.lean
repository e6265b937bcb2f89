import DialectBench.Proofs.Bench.Opening
import DialectBench.Proofs.Bench.Sweep
import DialectBench.Proofs.Collection.Exactness

/-! From a target to the one that follows it: the results of the first are not collected again. -/

namespace DialectBench

open Disk Action

namespace Bench

variable {bench : Bench} {s : Session} {target other : Target}

/-- No target is planned twice. -/
theorem nodup_planned (bench : Bench) : bench.planned.Nodup := by
  have variants : bench.variants.Nodup := by
    unfold variants
    cases bench.options.tidbDialect <;> simp [Target.variants, Target.community, Target.mysqlDialect]
  unfold planned
  split
  · simp
  · split <;> split <;> simp [variants, bench.baseline_not_mem_variants]

/-- Behind the last of several targets that run in turn no other one follows. -/
theorem last_of_parts {targets : List Target} (member : .trying target false ∈ Target.parts targets) :
    ∃ front, targets = front ++ [target] := by
  induction targets with
  | nil => cases member
  | cons first targets ih =>
    rcases List.mem_cons.mp member with own | later
    · obtain ⟨rfl, last⟩ := Part.trying.inj own
      have none : targets = [] := by simpa using last
      exact ⟨[], by rw [none]; rfl⟩
    · obtain ⟨front, rfl⟩ := ih later
      exact ⟨first :: front, rfl⟩

/-- A target that no other one follows is the last that is planned. -/
theorem last_of_planned (member : .trying target false ∈ bench.parts) :
    ∃ front, bench.planned = front ++ [target] := by
  unfold parts at member
  unfold planned
  -- The plan depends on what the options skip, and in each case the last of its parts is found.
  by_cases compares : bench.options.compareOnly = true
  · simp [compares] at member
  · by_cases one : bench.options.skipMysql = true <;>
      by_cases two : bench.options.skipTidb = true <;>
      simp [compares, one, two, variantParts] at member ⊢
    · exact last_of_parts member
    · exact ⟨[], by simp [member]⟩
    · obtain ⟨front, whole⟩ := last_of_parts member
      exact ⟨Target.baseline bench.lab :: front, by rw [whole]; rfl⟩

/-- A list without doubles is split in one way at an element. -/
theorem split_unique {early late front back : List Target} (distinct : (early ++ target :: late).Nodup)
    (same : early ++ target :: late = front ++ target :: back) : early = front ∧ late = back := by
  obtain ⟨-, inner, apart⟩ := List.nodup_append.mp distinct
  have absent : target ∉ early := fun there => apart target there target (by simp) rfl
  obtain ⟨first, -, last⟩ :=
    (List.append_cons_inj_of_notMem absent (List.nodup_cons.mp inner).1).mp same
  exact ⟨first, last⟩

/-- After a target that is planned before another one the workspace is cleaned. -/
theorem follows_of_planned {follows : Bool} (order : [target, other] <:+: bench.planned)
    (member : .trying target follows ∈ bench.parts) : follows = true := by
  rw [← Bool.not_eq_false]
  rintro rfl
  obtain ⟨front, last⟩ := last_of_planned member
  obtain ⟨early, late, split⟩ := order
  have distinct := bench.nodup_planned
  rw [← split, List.append_assoc] at last distinct
  -- The target stands at one place only, and behind that there is another one.
  cases (split_unique distinct last).2

/-- Between a target and the one that is planned behind it the workspace is patched at most. -/
theorem patching_of_between {front between back : List Leg} {leg next : Leg}
    (order : [target, other] <:+: bench.planned)
    (legs : bench.legs s = front ++ leg :: (between ++ next :: back))
    (first : leg.part.targets = [target]) (second : next.part.targets = [other]) :
    ∀ step ∈ between, ∃ plan, step.part = .patching plan := by
  obtain ⟨rest, whole⟩ := bench.parts_prefix s
  obtain ⟨early, late, split⟩ := order
  have distinct := bench.nodup_planned
  -- The targets of the legs in between stand between two that follow one another.
  have planned := bench.flatMap_targets_planned
  rw [← whole, legs, ← split] at planned
  simp only [List.map_append, List.map_cons, List.flatMap_append, List.flatMap_cons, first, second,
    List.append_assoc, List.cons_append] at planned
  rw [← split, List.append_assoc] at distinct
  have inner := (split_unique distinct planned.symm).2
  have none : (between.map Leg.part).flatMap Part.targets = [] := by
    cases targets : (between.map Leg.part).flatMap Part.targets with
    | nil => rfl
    | cons another targets =>
      rw [targets] at inner
      obtain ⟨rfl, rfl⟩ := List.cons.inj inner
      have twice := (List.nodup_cons.mp (List.nodup_append.mp distinct).2.1).2
      exact absurd (by simp) (List.nodup_cons.mp twice).1
  -- A part without a target is a patch, since the opening is only the first of the parts.
  intro step member
  have idle := List.flatMap_eq_nil_iff.mp none step.part (List.mem_map_of_mem member)
  have late : step.part ∈ bench.parts.tail := by
    have behind : step.part ∈ (between ++ next :: back).map Leg.part :=
      List.mem_map_of_mem (List.mem_append_left _ member)
    rw [← whole, legs, List.map_append]
    cases front with
    | nil => exact List.mem_append_left _ behind
    | cons => exact List.mem_append_left _ (List.mem_append_right _ (List.mem_cons_of_mem _ behind))
  cases part : step.part with
  | opening => exact absurd (part ▸ late) bench.opening_not_mem_tail
  | patching plan => exact ⟨plan, rfl⟩
  | trying target follows => simp [part, Part.targets] at idle

end Bench

section Results

variable {d : Disk} {home place : Location} {way : List String}

/-- A result below a place is one below the root. -/
theorem Suite.IsResult.append (result : Suite.IsResult way) (place : Location) :
    Suite.IsResult (place ++ way) := by
  obtain ⟨front, rest, some, rfl, xml⟩ := result
  refine ⟨place ++ front, rest, some, by simp, ?_⟩
  rw [← xml, Suite.isXmlWay, Suite.isXmlWay, List.getLast?_append_of_ne_nil _ (by simp)]

/-- A call makes no result: where there is one after it there was one before. -/
def Exchange.MakesNoResult (exchange : Exchange) : Prop :=
  ∀ way, Suite.IsResult way → exchange.before.disk.content? way = none →
    exchange.after.disk.content? way = none

/-- In a sound tree there are no results below a place. -/
def Disk.Cleared (home : Location) (d : Disk) : Prop :=
  d.Sound ∧ Suite.Resultless d home

/-- In a collection there are, beside its manifest and its logs, files of the workspace alone, and those at
places that were free in an earlier tree. -/
def Disk.HoldsNew (d : Disk) (collection : Path) (workspace earlier : Disk) (home : Location) : Prop :=
  ∃ place, d.Leads collection place ∧ ∀ names bytes, d.content? (place ++ names) = some bytes →
    names = [Manifest.fileName] ∨ (∃ name, names = ["logs", name]) ∨
      workspace.content? (home ++ names) = some bytes ∧ earlier.view (home ++ names) = none

/-- Without results a tree may lose entries. -/
theorem Disk.thinnable_cleared (home : Location) : Disk.Thinnable (Disk.Cleared home) where
  sound := And.left
  thin cleared sound thins := ⟨sound, cleared.2.thin thins⟩

/-- A call that makes no result leaves none where there was none. -/
theorem Exchange.MakesNoResult.keeps {exchange : Exchange} (none : exchange.MakesNoResult)
    (keeps : exchange.Keeps Disk.Sound) (home : Location) : exchange.Keeps (Disk.Cleared home) :=
  fun ⟨sound, resultless⟩ => ⟨keeps sound, fun way result =>
    none _ (result.append home) (resultless way result)⟩

end Results

namespace Leg

/-- The calls of a target before a stage. -/
def callsBefore (bench : Bench) (target : Target) (stage : Stage) (leg : Leg) : List Exchange :=
  ((leg.visits bench target).takeWhile fun visit => visit.stage != stage).flatMap Visit.calls

/-- Where the results of a target are collected, the path of the workspace leads to a directory. -/
def CollectsAt (bench : Bench) (target : Target) (home : Location) (leg : Leg) : Prop :=
  ∀ visit ∈ leg.visits bench target, visit.stage = .collect →
    visit.before.scene.disk.Leads bench.lab.workspace home

end Leg

namespace Bench

variable {bench : Bench} {s : Session} {target : Target} {home : Location}

/-- The results are collected in the visit of that name. -/
theorem collects_of_visit (s : Session) :
    ∀ visit ∈ bench.visits target s, visit.stage = .collect →
      ∃ execution, visit = Visit.of .collect (bench.gatherResults target execution) visit.before :=
  forall_visits (by simp [Visit.of]) (by simp [Visit.of]) (by simp [Visit.of]) (by simp [Visit.of])
    (by simp [Visit.of]) (fun execution s _ => ⟨execution, rfl⟩) (by simp [Visit.of]) s

/-- Without results in the workspace nothing is collected. -/
theorem gatherResults_fails (target : Target) (real : bench.options.dryRun = false)
    (cleared : s.scene.disk.Cleared home) (leads : s.scene.disk.Leads bench.lab.workspace home)
    (execution : FinishedTests) :
    ∃ failure, (bench.gatherResults target execution).outcome s = .error failure := by
  obtain ⟨places, makes⟩ :=
    Collection.founding_makes cleared.1 (bench.collectRequest target execution)
  -- What is gathered is a collection, since this is no rehearsal.
  have same : bench.gatherResults target execution =
      Collection.collect (bench.collectRequest target execution) := by
    simp [gatherResults, real]
  rw [same]
  refine Collection.collect_fails ?_
  exact (Suite.modules_eq_of_makes makes leads).trans
    (cleared.2.modules_eq_nil cleared.1 leads)

end Bench

namespace Leg.Tries

variable {bench : Bench} {target : Target} {leg : Leg}

/-- The calls before a stage are among those of the target. -/
theorem callsBefore_subset (tries : leg.Tries bench target) (stage : Stage) :
    leg.callsBefore bench target stage ⊆ leg.calls := by
  obtain ⟨last, made, -⟩ := tries.calls_eq
  rw [made]
  intro exchange member
  obtain ⟨visit, listed, own⟩ := List.mem_flatMap.mp member
  exact List.mem_append_left _
    (List.mem_flatMap.mpr ⟨visit, (List.takeWhile_prefix _).subset listed, own⟩)

/-- A tree that is sound when the work on a target begins is sound at all its stages. -/
theorem sound_of_mem (tries : leg.Tries bench target) (sound : leg.before.scene.disk.Sound)
    (keeps : ∀ exchange ∈ leg.calls, exchange.Keeps Disk.Sound) {visit : Visit}
    (member : visit ∈ leg.visits bench target) : visit.before.scene.disk.Sound := by
  cases tries with
  | refused asked => simp [visits, asked] at member
  | driven unasked course _ made =>
    rw [made] at keeps
    simp only [visits, unasked] at member
    exact (course.upheld (bench.maintains_sound.visits leg.before)
      (List.forall_mem_append.mp keeps).1 sound).1 visit member

end Leg.Tries

/-- A target whose workspace holds no results when its work begins is given up when they are to be collected, at the
latest, unless its calls make some or the path of the workspace leads elsewhere. -/
theorem Leg.Tries.abandoned {bench : Bench} {target : Target} {leg : Leg} {home : Location}
    {records : List TargetRecord} (tries : leg.Tries bench target)
    (real : bench.options.dryRun = false) (cleared : leg.before.scene.disk.Cleared home)
    (keeps : ∀ exchange ∈ leg.callsBefore bench target .collect, exchange.Keeps (Disk.Cleared home))
    (stays : leg.CollectsAt bench target home)
    (returned : leg.outcome = .ok records) :
    ∃ stage reason, records = [⟨target.identifier, .abandoned stage reason⟩] ∧
      stage ∈ target.openingStages ++ [.startDatabase, .launchTests, .collect] := by
  -- The target is refused at once, or driven through its stages.
  cases tries with
  | refused _ _ stopped => simp [stopped] at returned
  | driven unasked course _ _ outcome =>
    rw [outcome] at returned
    obtain ⟨status, driven, rfl⟩ := map_eq_ok.mp returned
    have visited : leg.visits bench target = bench.visits target leg.before := by
      simp [visits, unasked]
    rw [CollectsAt, visited] at stays
    rw [callsBefore, visited] at keeps
    have stages : target.stages = (target.openingStages ++ [.startDatabase, .launchTests]) ++
        [.collect, .summarize] := by simp [Target.stages]
    rw [stages, driven] at course
    obtain ⟨early, open_⟩ | ⟨earlier, later, u, split, passes, rest⟩ := course.split
    · -- One of the stages before is the last one.
      cases status with
      | completed collection summary code => exact absurd rfl (open_ collection summary code)
      | abandoned stage reason =>
        have member := early.stage_mem rfl
        exact ⟨stage, reason, rfl, by simp at member ⊢; tauto⟩
    · -- The stages before are passed, so there still are no results when they are to be collected.
      have before : ∀ visit ∈ earlier, visit.stage ≠ .collect ∧ visit.stage ≠ .summarize := by
        intro visit member
        have listed := List.mem_map_of_mem (f := Visit.stage) member
        rw [passes.all.1] at listed
        constructor <;> rintro same <;> simp [same, Target.openingStages] at listed
      have subset : earlier.flatMap Visit.calls ⊆
          ((bench.visits target leg.before).takeWhile fun visit => visit.stage != .collect).flatMap
            Visit.calls := by
        rw [split, List.takeWhile_append_of_pos fun visit member => by simp [(before visit member).1],
          List.flatMap_append]
        exact List.subset_append_left _ _
      obtain ⟨_, _, _, first⟩ := passes
      have clears := upholds_removeIfPresent (Disk.thinnable_cleared home) bench.lab.gradleCache
      have held := (first.upheld (fun visit member => Bench.upholds_early_visits clears leg.before visit
        (split ▸ List.mem_append_left _ member) (before visit member).1 (before visit member).2)
        (fun exchange member => keeps exchange (subset member)) cleared).2
      cases rest with
      | @passed visit _ _ _ _ _ _ _ named began passed =>
        have member : visit ∈ bench.visits target leg.before := by simp [split]
        obtain ⟨execution, same⟩ := Bench.collects_of_visit leg.before visit member named
        have leads := stays visit member named
        rw [began] at same leads
        obtain ⟨failure, failed⟩ := Bench.gatherResults_fails target real held leads execution
        simp [same, Visit.of, failed, failureOf] at passed
      | abandoned => exact ⟨.collect, _, rfl, by simp⟩

namespace Bench

variable {bench : Bench} {target : Target} {home : Location}

/-- Results that are collected from a workspace in which none were left are new ones. -/
theorem collects_new {e : Disk} {u : Session} {execution : FinishedTests} {collection : Path}
    (clean : e.Sound) (swept : Suite.Swept e home) (real : bench.options.dryRun = false)
    (sound : u.scene.disk.Sound) (leads : u.scene.disk.Leads bench.lab.workspace home)
    (passed : (bench.gatherResults target execution).outcome u = .ok collection)
    (linkless : u.scene.disk.Linkless home)
    (outside : ∀ place, (Collection.founding (bench.collectRequest target execution)
      u).scene.disk.Leads collection place → ¬ home <+: place) :
    ((bench.gatherResults target execution).after u).scene.disk.HoldsNew collection
      u.scene.disk e home := by
  have same : bench.gatherResults target execution =
      Collection.collect (bench.collectRequest target execution) := by
    simp [gatherResults, real]
  rw [same] at passed ⊢
  obtain ⟨places, makes⟩ :=
    Collection.founding_makes sound (bench.collectRequest target execution)
  have still := leads.mono makes.within makes.current_eq
  have own : collection = Collection.directoryOf (bench.collectRequest target execution) :=
    (Collection.collect_of_ok sound passed).1
  rw [own] at outside
  -- The workspace is the only directory that the root leads to, and the collection is outside of it.
  obtain ⟨-, other, place, made, there, exact, -⟩ := Collection.collection_exact sound passed
    (fun other there => there.unique still ▸ linkless)
    (fun other place there founded sub _ inside => outside place founded
      (there.unique still ▸ (List.prefix_append other sub).trans inside))
  obtain rfl := there.unique still
  refine ⟨place, own ▸ exact.leads rfl, fun names bytes held => ?_⟩
  cases (exact.files names bytes).mp held with
  | manifest => exact .inl rfl
  | @log name => exact .inr (.inl ⟨name, rfl⟩)
  -- What was copied lies in a directory that had been swept, so it is new.
  | result taken found =>
    obtain ⟨way, -, name, copied, rest, some, rfl⟩ := taken
    have known : ∀ name ∈ Collection.copiedNames, name ∈ Suite.transientNames := by decide
    exact .inr (.inr ⟨found, swept.view_eq_none clean (known name copied) some⟩)

end Bench

/-- After a target that another one follows no module has results. While the workspace is the same
directory, the next target collects new results alone, and without new ones it is given up. -/
theorem results_left_behind (bench : Bench) (s : Session) {front back : List Leg} {leg : Leg}
    {target other : Target} {records : List TargetRecord} (real : bench.options.dryRun = false)
    (sound : s.scene.disk.Sound)
    (keeps : ∀ exchange ∈ bench.execute.trace s, exchange.Keeps Disk.Sound)
    (order : [target, other] <:+: bench.planned) (legs : bench.legs s = front ++ leg :: back)
    (tried : leg.part.targets = [target]) (returned : leg.outcome = .ok records) :
    Suite.modules leg.after.scene.disk bench.lab.workspace = [] ∧
      ∀ between next later home, back = between ++ next :: later →
        next.part.targets = [other] → leg.after.scene.disk.Leads bench.lab.workspace home →
        next.CollectsAt bench other home →
        ((∀ exchange ∈ between.flatMap Leg.calls ++ next.callsBefore bench other .collect,
            exchange.MakesNoResult) →
          ∀ reported, next.outcome = .ok reported →
            ∃ stage reason, reported = [⟨other.identifier, .abandoned stage reason⟩] ∧
              stage ∈ other.openingStages ++ [.startDatabase, .launchTests, .collect]) ∧
        ∀ execution u collection,
          Visit.of .collect (bench.gatherResults other execution) u ∈ next.visits bench other →
          (bench.gatherResults other execution).outcome u = .ok collection →
          u.scene.disk.Linkless home →
          (∀ place, (Collection.founding (bench.collectRequest other execution)
            u).scene.disk.Leads collection place → ¬ home <+: place) →
          ((bench.gatherResults other execution).after u).scene.disk.HoldsNew collection
            u.scene.disk leg.after.scene.disk home := by
  obtain ⟨t, journey, -⟩ := bench.journey s
  -- The calls of all legs keep the tree sound, those in front of the leg as well as those behind it.
  have all : ∀ exchange ∈ (bench.legs s).flatMap Leg.calls, exchange.Keeps Disk.Sound := by
    have same : bench.execute.trace s = _ := (bench.leads_execute s).since_eq
    rwa [same] at keeps
  rw [legs, List.flatMap_append, List.flatMap_cons] at all
  obtain ⟨early, all⟩ := List.forall_mem_append.mp all
  obtain ⟨own, late⟩ := List.forall_mem_append.mp all
  -- The target is one that is cleaned up after.
  have member : leg ∈ bench.legs s := by simp [legs]
  obtain ⟨follows, part⟩ : ∃ follows, leg.part = .trying target follows := by
    cases part : leg.part <;> simp [part, Part.targets] at tried
    exact ⟨_, by rw [tried]⟩
  obtain rfl := Bench.follows_of_planned order
    (part ▸ (bench.parts_prefix s).subset (List.mem_map_of_mem member))
  have is := part ▸ journey.eq_of member
  have begins := bench.maintains_sound.leg legs early sound
  have clean : leg.after.scene.disk.Sound := by
    have kept := (bench.maintains_sound.part leg.part).after begins (journey.eq_of member ▸ own)
    rw [journey.eq_of member]
    exact kept
  -- The leg has returned, so the workspace has been swept at its end.
  have swept (home : Location) (there : leg.after.scene.disk.Leads bench.lab.workspace home) :
      Suite.Swept leg.after.scene.disk home := Leg.swept is real begins own returned there
  refine ⟨Suite.modules_of_swept clean swept, ?_⟩
  rintro between next later home rfl second there stays
  -- The next leg tries the other target.
  obtain ⟨again, finish⟩ : ∃ again, next.part = .trying other again := by
    cases part : next.part <;> simp [part, Part.targets] at second
    exact ⟨_, by rw [second]⟩
  have met : next ∈ bench.legs s := by simp [legs]
  have tries := (Bench.fits_of_mem met).tries finish
  rw [List.flatMap_append, List.flatMap_cons] at late
  obtain ⟨middle, late⟩ := List.forall_mem_append.mp late
  obtain ⟨last, -⟩ := List.forall_mem_append.mp late
  -- What the calls in between keep holds until the work on the next target begins.
  have arrives {holds : Disk → Prop} (held : holds leg.after.scene.disk)
      (kept : ∀ exchange ∈ between.flatMap Leg.calls, exchange.Keeps holds) :
      holds next.before.scene.disk := by
    obtain ⟨_, _, rest⟩ := journey.behind legs (by simp)
    refine rest.upheld rfl (fun step member => ?_) kept held
    obtain ⟨plan, patches⟩ := Bench.patching_of_between order legs tried second step member
    exact patches ▸ Bench.upholds_patching plan
  refine ⟨fun none reported came => ?_, fun execution u collection visited passed linkless outside =>
    Bench.collects_new clean (swept home there) real ?_ (stays _ visited rfl) passed linkless outside⟩
  · obtain ⟨first, then_⟩ := List.forall_mem_append.mp none
    refine tries.abandoned real (arrives ⟨clean, (swept home there).resultless clean⟩
      fun exchange member => (first exchange member).keeps (middle exchange member) home)
      (fun exchange member => (then_ exchange member).keeps ?_ home) stays came
    exact last exchange (tries.callsBefore_subset _ member)
  · exact tries.sound_of_mem (arrives clean middle) last visited

/-- A call makes no result if every file after it was one before. -/
theorem Exchange.makesNoResult_of_files {exchange : Exchange}
    (files : ∀ place ∈ exchange.after.disk.places, exchange.after.disk.content? place = none ∨
      exchange.before.disk.content? place ≠ none) : exchange.MakesNoResult := by
  rintro way ⟨front, rest, -, rfl, -⟩ none
  by_contra held
  have seen : exchange.after.disk.view (front ++ Suite.outputName :: Suite.resultsName :: rest) ≠
      Option.none := fun free => held (by rw [Disk.content?_eq, free]; rfl)
  exact (files _ (mem_places (by simp) seen)).elim held fun before => before none

namespace Bench

variable (runner : Runner) (s : Session)

/-- Its opening. -/
def pairOpening : Leg := Leg.of (pair runner) .opening s

/-- The work on MySQL. -/
def pairMysql : Leg :=
  Leg.of (pair runner) (.trying (Target.baseline .sample) true) (pairOpening runner s).after

/-- The patch of the workspace. -/
def pairPatch : Leg :=
  Leg.of (pair runner) (.patching [Target.community .sample]) (pairMysql runner s).after

/-- The work on TiDB. -/
def pairTidb : Leg :=
  Leg.of (pair runner) (.trying (Target.community .sample) false) (pairPatch runner s).after

variable {runner s}

/-- A comparison of both that comes to TiDB has these legs. -/
theorem legs_pair (on : (pairOpening runner s).goesOn = true ∧ (pairMysql runner s).goesOn = true ∧
    (pairPatch runner s).goesOn = true) :
    (pair runner).legs s = [pairOpening runner s] ++ pairMysql runner s ::
      ([pairPatch runner s] ++ pairTidb runner s :: []) := by
  have parts : (pair runner).parts = [.opening, .trying (Target.baseline .sample) true,
      .patching [Target.community .sample], .trying (Target.community .sample) false] := rfl
  unfold pairTidb pairPatch pairMysql pairOpening at *
  simp only [legs, parts, legsFrom, on.1, on.2.1, on.2.2, if_true, ite_self]
  rfl

end Bench

/-- A workspace with a result in it. -/
def Disk.littered : Disk :=
  .around [(["ws"], .directory 0), (["ws", "m"], .directory 0), (["ws", "m", "target"], .directory 0),
    (["ws", "m", "target", "test-results"], .directory 0),
    (["ws", "m", "target", "test-results", "t.xml"], .file [] false 0)]

/-- A runner that finds the container service and nothing else, and changes nothing. -/
def Runner.bare : Runner where
  run calls _ scene := { outcome := .ok ⟨if calls.isEmpty then 0 else 1, "", ""⟩, scene }
  stream _ _ _ _ scene := { outcome := .ok ⟨1, false⟩, scene }

/-- MySQL is given up at once, and the result that was in the workspace is gone when TiDB follows. -/
theorem littered_left_behind :
    (∀ exchange ∈ (Bench.pair .bare).execute.trace (.at .littered), exchange.Keeps Disk.Sound) ∧
      Suite.modules Disk.littered (Bench.pair .bare).lab.workspace ≠ [] ∧
      Suite.modules (Bench.pairMysql .bare (.at .littered)).after.scene.disk
        (Bench.pair .bare).lab.workspace = [] := by
  have legs := @Bench.legs_pair .bare (.at .littered) (by decide +kernel)
  have keeps : ∀ exchange ∈ (Bench.pair .bare).execute.trace (.at .littered),
      exchange.Keeps Disk.Sound := by
    have same : (Bench.pair .bare).execute.trace (.at .littered) = _ :=
      ((Bench.pair .bare).leads_execute _).since_eq
    -- None of the calls changes the tree.
    have still : ∀ exchange ∈ ([Bench.pairOpening .bare (.at .littered)] ++
        Bench.pairMysql .bare (.at .littered) :: ([Bench.pairPatch .bare (.at .littered)] ++
          Bench.pairTidb .bare (.at .littered) :: [])).flatMap Leg.calls,
        exchange.after.disk = exchange.before.disk := by decide +kernel
    rw [same, legs]
    exact fun exchange member sound => still exchange member ▸ sound
  obtain ⟨records, returned⟩ : ∃ records,
      (Bench.pairMysql .bare (.at .littered)).outcome = .ok records := by
    have passed : (Bench.pairMysql .bare (.at .littered)).outcome.toBool = true := by decide +kernel
    cases result : (Bench.pairMysql .bare (.at .littered)).outcome with
    | ok records => exact ⟨records, rfl⟩
    | error failure => simp [result, Except.toBool] at passed
  refine ⟨keeps, by decide +kernel, ?_⟩
  exact (results_left_behind (Bench.pair .bare) (.at .littered) rfl
    ⟨by decide, by decide, by decide, by decide⟩ keeps ⟨[], [], rfl⟩ legs rfl returned).1

/-- The directory of the workspace, or a link in its place, and another directory beside it, with a
configuration and an old result. -/
def Disk.beside (workspace : Node) : Disk :=
  .around [(["ws"], workspace), (["b"], .directory 0), (["b", "local-build-plugins"], .directory 0),
    (["b", "local-build-plugins", "src"], .directory 0),
    (["b", "local-build-plugins", "src", "main"], .directory 0),
    (["b", "local-build-plugins", "src", "main", "groovy"], .directory 0),
    (["b", "local-build-plugins", "src", "main", "groovy", "local.databases.gradle"],
      .file (Text.encode "tidb: []") false 0),
    (["b", "m"], .directory 0), (["b", "m", "target"], .directory 0),
    (["b", "m", "target", "test-results"], .directory 0),
    (["b", "m", "target", "test-results", "t.xml"], .file [] false 0)]

/-- A runner whose commands succeed; a script puts a link in the place of the workspace. -/
def Runner.relinking : Runner where
  run _ command scene :=
    { outcome := .ok Output.silent
      scene := if command.program = "python3" then { scene with disk := .beside (.link "b") }
        else scene }
  stream _ _ _ _ scene := { outcome := .ok ⟨0, false⟩, scene }

/-- A single record that is not given up is all that an outcome tells, if it is evaluated to be. -/
theorem exists_record_of_evaluated {outcome : Except Failure (List TargetRecord)}
    (evaluated : outcome.toOption.map (fun records => records.map TargetRecord.isGivenUp) =
      some [false]) : ∃ record, outcome = .ok [record] ∧ record.isGivenUp = false := by
  cases outcome with
  | error failure => simp [Except.toOption] at evaluated
  | ok records =>
    obtain ⟨record, rfl, given⟩ := List.map_eq_singleton_iff.mp (Option.some.inj evaluated)
    exact ⟨record, rfl, given⟩

/-- No call before the results of TiDB are collected leaves a file where there was none, and TiDB is
completed. -/
theorem relinked_completed :
    (∀ exchange ∈ [Bench.pairPatch .relinking (.at (.beside (.directory 0)))].flatMap Leg.calls ++
      (Bench.pairTidb .relinking (.at (.beside (.directory 0)))).callsBefore (Bench.pair .relinking)
        (Target.community .sample) .collect,
      ∀ place ∈ exchange.after.disk.places, exchange.after.disk.content? place = none ∨
        exchange.before.disk.content? place ≠ none) ∧
    (Bench.pairTidb .relinking (.at (.beside (.directory 0)))).outcome.toOption.map
      (fun records => records.map TargetRecord.isGivenUp) = some [false] := by
  decide +kernel

/-- Where a link is put in the place of the workspace the old results behind it are collected: TiDB is
completed, although no call makes a result after MySQL was given up and the workspace cleaned. -/
theorem old_results_collected :
    let mysql := Bench.pairMysql .relinking (.at (.beside (.directory 0)))
    let patch := Bench.pairPatch .relinking (.at (.beside (.directory 0)))
    let tidb := Bench.pairTidb .relinking (.at (.beside (.directory 0)))
    (Disk.beside (.directory 0)).Sound ∧ (Bench.pair .relinking).options.dryRun = false ∧
      [Target.baseline .sample, Target.community .sample] <:+: (Bench.pair .relinking).planned ∧
      (Bench.pair .relinking).legs (.at (.beside (.directory 0))) =
        [Bench.pairOpening .relinking (.at (.beside (.directory 0)))] ++ mysql :: ([patch] ++ tidb :: []) ∧
      mysql.outcome.toBool = true ∧
      (∀ exchange ∈ [patch].flatMap Leg.calls ++
        tidb.callsBefore (Bench.pair .relinking) (Target.community .sample) .collect,
        exchange.MakesNoResult) ∧
      ∃ record, tidb.outcome = .ok [record] ∧ record.isGivenUp = false := by
  intro mysql patch tidb
  obtain ⟨checked, completed⟩ := relinked_completed
  exact ⟨⟨by decide, by decide, by decide, by decide⟩, rfl, ⟨[], [], rfl⟩,
    Bench.legs_pair (by decide +kernel), by decide +kernel, fun exchange member =>
      Exchange.makesNoResult_of_files (checked exchange member), exists_record_of_evaluated completed⟩

end DialectBench

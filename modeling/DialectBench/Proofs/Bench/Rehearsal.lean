import DialectBench.Cleanup
import DialectBench.Proofs.Bench.Journey
import DialectBench.Proofs.Session.Foretold
import DialectBench.Rerun
import Mathlib.Data.List.Forall2

/-! Rehearsals touch nothing, and what they call and report is known beforehand. -/

namespace DialectBench

/-- A configuration that cannot be read does not look like a stopped run. -/
theorem Dialect.settings_not_interrupted {d : Disk} {workspace : Path} {backend : Backend}
    {failure : Failure} (failed : settings d workspace backend = .error failure) :
    failure.isInterruption = false := by
  -- The text cannot be read, or there is no block in it.
  unfold settings at failed
  dsimp only at failed
  split at failed
  · obtain rfl := Except.error.inj failed
    rfl
  · split at failed
    · obtain rfl := Except.error.inj failed
      rfl
    · cases failed

/-- A setting that does not fit is no request to stop. -/
theorem Dialect.misfit?_not_interrupted {backend : Backend} {settings : ConfiguredDialect}
    {fault : Fault} (misfit : misfit? backend settings = some fault) :
    (Failure.of fault).isInterruption = false := by
  cases backend with
  | mysql => cases misfit
  | tidb =>
    unfold misfit? at misfit
    dsimp only at misfit
    split at misfit <;> cases misfit <;> rfl

/-- A configuration that cannot be used does not look like a stopped run. -/
theorem Dialect.checked_not_interrupted {d : Disk} {workspace : Path} {backend : Backend}
    {failure : Failure} (failed : checked d workspace backend = .error failure) :
    failure.isInterruption = false := by
  -- Either reading fails, or what was read does not fit.
  unfold checked at failed
  cases read : settings d workspace backend with
  | error cause =>
    rw [read] at failed
    obtain rfl := Except.error.inj failed
    exact settings_not_interrupted read
  | ok found =>
    rw [read] at failed
    dsimp only at failed
    cases misfit : misfit? backend found with
    | none =>
      rw [misfit] at failed
      cases failed
    | some fault =>
      rw [misfit] at failed
      obtain rfl := Except.error.inj failed
      exact misfit?_not_interrupted misfit

namespace Bench

open Action

/-- The same comparison as a rehearsal. -/
def rehearsed (bench : Bench) : Bench :=
  { bench with options := { bench.options with dryRun := true }, runner := .rehearsal }

/-- The calls for a target up to the check of its configuration. -/
def openingCalls (bench : Bench) (target : Target) : List Call :=
  bench.cleanCommands.map .run ++ target.preset.toList.map fun preset =>
    .run (bench.presetCommand preset)

/-- The calls for a target behind the check of its configuration, with the stamp of its tests. -/
def backendCalls (bench : Bench) (stamp : String) (target : Target) : List Call :=
  [.run (removeCommand target.container), .run (bench.startCommand target),
    .run (inspectCommand target),
    .stream (bench.testCommand target) (target.logPath bench.lab.logs stamp)
      bench.options.timing.idle,
    .run (removeCommand target.container)]

/-- The calls for a target, given which configurations fit. -/
def targetCalls (bench : Bench) (fits : Backend → Bool) (stamp : String) (target : Target) :
    List Call :=
  bench.openingCalls target ++ if fits target.backend then bench.backendCalls stamp target else []

/-- The calls of a whole comparison in which no call fails, given which configurations fit. -/
def script (bench : Bench) (fits : Backend → Bool) (stamp : String) : List Call :=
  .run infoCommand :: if bench.options.compareOnly then []
    else (if bench.options.skipMysql then []
        else bench.targetCalls fits stamp (Target.baseline bench.lab)) ++
      if bench.options.skipTidb then []
      else bench.patchCommands.map .run ++ bench.variants.flatMap (bench.targetCalls fits stamp)

/-- The configuration in a tree fits a database. -/
def fits (bench : Bench) (d : Disk) (backend : Backend) : Bool :=
  (Dialect.checked d bench.lab.workspace backend).isOk

/-- What becomes of a target in a rehearsal: it is completed if its configuration fits. -/
def rehearsedFate (bench : Bench) (scene : Scene) (target : Target) : TargetFate :=
  match Dialect.checked scene.disk bench.lab.workspace target.backend with
  | .ok _ => .completed
      (Collection.directoryFor (target.collectionStart bench.lab.runs) scene.moment.stamp)
      (Summary.jsonPath (target.summaryStart bench.lab.runs) scene.moment.stamp) 0
  | .error failure => .abandoned .checkDialect failure.account

/-- The record of a target in a rehearsal. -/
def rehearsedRecord (bench : Bench) (scene : Scene) (target : Target) : TargetRecord :=
  ⟨target.identifier, bench.rehearsedFate scene target⟩

variable {bench : Bench} {scene : Scene} {target : Target}

section Stages

variable {α : Type} {action : Action α} {calls more : List Call} {name : Stage}
  {next : α → Action TargetFate} {last : Except Failure TargetFate}

/-- A stage that is passed is followed by the next one. -/
theorem foretold_stage {value : α} (passed : Foretold scene action calls (.ok value))
    (onward : Foretold scene (next value) more last) :
    Foretold scene (stage name action next) (calls ++ more) last :=
  passed.attempt.bind onward rfl

/-- A stage that fails gives the target up. -/
theorem foretold_stage_of_error {failure : Failure}
    (failed : Foretold scene action calls (.error failure))
    (ordinary : failure.isInterruption = false) :
    Foretold scene (stage name action next) calls (.ok (.abandoned name failure.account)) := by
  refine failed.attempt.bind ?_ (List.append_nil calls)
  simp only [Progress.ofResult, ordinary]
  exact .pure _

end Stages

/-- Directories that would be made are told. -/
theorem foretold_prepareDirectories (bench : Bench) (paths : List Path) :
    Foretold scene (bench.rehearsed.prepareDirectories paths) [] (.ok ()) := by
  induction paths with
  | nil => exact .pure ()
  | cons path paths ih => exact (Foretold.tell _).bind ih rfl

/-- A tree that would be removed is told. -/
theorem foretold_deleteTree (bench : Bench) (path : Path) :
    Foretold scene (bench.rehearsed.deleteTree path) [] (.ok ()) :=
  .tell _

/-- A rehearsal begins as a comparison does. -/
theorem foretold_prepareRun (bench : Bench) :
    Foretold scene bench.rehearsed.prepareRun [.run infoCommand] (.ok ()) :=
  (foretold_prepareDirectories bench _).bind (((Foretold.run _).within _).bind (.pure ()) rfl) rfl

/-- The caches are said to have been cleaned. -/
theorem foretold_clearCaches (bench : Bench) :
    Foretold scene bench.rehearsed.clearCaches (bench.cleanCommands.map .run) (.ok ()) := by
  unfold clearCaches cleanCommands
  by_cases skipped : bench.options.skipClean = true
  · rw [if_pos skipped, if_pos (show bench.rehearsed.options.skipClean = true from skipped)]
    exact .warn _
  · rw [if_neg skipped, if_neg (show ¬ bench.rehearsed.options.skipClean = true from skipped)]
    exact (Foretold.runToSuccess _).bind (foretold_deleteTree bench _) rfl

/-- The workspace is said to have been patched. -/
theorem foretold_adaptWorkspace (bench : Bench) :
    Foretold scene bench.rehearsed.adaptWorkspace (bench.patchCommands.map .run) (.ok ()) := by
  unfold adaptWorkspace patchCommands
  by_cases skipped : bench.options.skipTidbPatch = true
  · rw [if_pos skipped, if_pos (show bench.rehearsed.options.skipTidbPatch = true from skipped)]
    exact .warn _
  · rw [if_neg skipped, if_neg (show ¬ bench.rehearsed.options.skipTidbPatch = true from skipped)]
    exact (Foretold.runToSuccess _).bind (.pure ()) rfl

/-- The configuration is really checked. -/
theorem foretold_checkDialect (bench : Bench) (target : Target) :
    Foretold scene (bench.rehearsed.checkDialect target) []
      ((Dialect.checked scene.disk bench.lab.workspace target.backend).map fun _ => ()) := by
  -- The check looks at the tree, which a rehearsal does as well.
  have looked : Foretold scene
      (Action.look fun d => Dialect.checked d bench.lab.workspace target.backend) []
      (.ok (Dialect.checked scene.disk bench.lab.workspace target.backend)) := .look _
  cases checked : Dialect.checked scene.disk bench.lab.workspace target.backend with
  | ok settings =>
    rw [checked] at looked
    exact looked.bind ((Foretold.ofExcept (.ok settings)).bind (.pure ()) rfl) rfl
  | error failure =>
    rw [checked] at looked
    exact looked.bind (Foretold.ofExcept (.error failure)).bind_of_error rfl

/-- A database is said to have been started. -/
theorem foretold_startDatabase (bench : Bench) (target : Target) :
    Foretold scene (bench.rehearsed.startDatabase target)
      [.run (removeCommand target.container), .run (bench.startCommand target),
        .run (inspectCommand target)] (.ok ()) :=
  (Foretold.run _).bind (((Foretold.runToSuccess _).within _).bind
    ((Foretold.run _).bind (.pure ()) rfl) rfl) rfl

/-- Tests are said to have run. -/
theorem foretold_launchTests (bench : Bench) (target : Target)
    (unasked : scene.interrupted = false) :
    Foretold scene (bench.rehearsed.launchTests target)
      [.stream (bench.testCommand target) (target.logPath bench.lab.logs scene.moment.stamp)
        bench.options.timing.idle]
      (.ok ⟨scene.moment.stamp, target.logPath bench.lab.logs scene.moment.stamp, 0⟩) := by
  have goes := Foretold.stopIfAsked_of_unasked unasked
  rw [launchTests_eq]
  -- A command that ended by itself leaves no container behind.
  have concluded : Foretold scene (concludeTests scene.moment.stamp
      (target.logPath bench.lab.logs scene.moment.stamp) (.ok ⟨0, false⟩)) []
      (.ok ⟨scene.moment.stamp, target.logPath bench.lab.logs scene.moment.stamp, 0⟩) := by
    unfold concludeTests
    exact (Foretold.ofExcept (.ok _)).bind (goes.bind ((Foretold.pure ()).bind (.pure _) rfl) rfl) rfl
  exact Foretold.stamp.bind ((Foretold.stream _ _ _).attempt.bind
    ((Foretold.pure ()).bind concluded rfl) rfl) rfl

/-- The stages behind the check are said to have been passed, and the container is said to be gone. -/
theorem foretold_withBackend (bench : Bench) (target : Target)
    (unasked : scene.interrupted = false) :
    Foretold scene (bench.rehearsed.withBackend target)
      (bench.backendCalls scene.moment.stamp target)
      (.ok (.completed
        (Collection.directoryFor (target.collectionStart bench.lab.runs) scene.moment.stamp)
        (Summary.jsonPath (target.summaryStart bench.lab.runs) scene.moment.stamp) 0)) := by
  -- Each stage is told to have succeeded, so the next one is entered.
  have stages : Foretold scene (bench.rehearsed.backendStages target) _ _ :=
    foretold_stage (foretold_startDatabase bench target) <|
    foretold_stage (foretold_launchTests bench target unasked) <|
    foretold_stage ((Foretold.tell _).bind (.pure _) rfl) <|
    foretold_stage ((Foretold.tell _).bind (.pure _) rfl) (.pure _)
  -- The container is told to be gone, however the stages went.
  have drops : Foretold scene (bench.rehearsed.dropContainer target.container)
      [.run (removeCommand target.container)] (.ok ()) :=
    (Foretold.run _).attempt.bind (.pure ()) rfl
  exact stages.attempt.bind (drops.bind (.ofExcept _) rfl) rfl

/-- A target is driven as far as the check, and behind it if its configuration fits. -/
theorem foretold_drive (bench : Bench) (target : Target) (unasked : scene.interrupted = false) :
    Foretold scene (bench.rehearsed.drive target)
      (bench.targetCalls (bench.fits scene.disk) scene.moment.stamp target)
      (.ok (bench.rehearsedFate scene target)) := by
  have checks : Foretold scene
      (stage .checkDialect (bench.rehearsed.checkDialect target) fun _ =>
        bench.rehearsed.withBackend target)
      (if bench.fits scene.disk target.backend then bench.backendCalls scene.moment.stamp target
        else [])
      (.ok (bench.rehearsedFate scene target)) := by
    have checked : Foretold scene _ [] _ := foretold_checkDialect bench target
    unfold fits rehearsedFate
    -- The two cases are those of the fate that is foretold: the stages behind the check are entered
    -- or not.
    cases settings : Dialect.checked scene.disk bench.lab.workspace target.backend with
    | ok settings =>
      rw [settings] at checked
      exact foretold_stage checked (foretold_withBackend bench target unasked)
    | error failure =>
      rw [settings] at checked
      exact foretold_stage_of_error checked (Dialect.checked_not_interrupted settings)
  unfold drive targetCalls openingCalls
  rw [List.append_assoc]
  -- The caches and the preset are told to have been set, so the check is reached.
  refine foretold_stage (foretold_clearCaches bench) ?_
  unfold presetStage
  cases target.preset with
  | none => exact checks
  | some preset => exact foretold_stage ((Foretold.runToSuccess _).bind (.pure ()) rfl) checks

/-- A target is tried unless a request to stop was made. -/
theorem foretold_tryTarget (bench : Bench) (target : Target) (follows : Bool)
    (unasked : scene.interrupted = false) :
    Foretold scene (bench.rehearsed.tryTarget target follows)
      (bench.targetCalls (bench.fits scene.disk) scene.moment.stamp target)
      (.ok (bench.rehearsedRecord scene target)) := by
  have goes := Foretold.stopIfAsked_of_unasked unasked
  -- What would be swept is only told.
  have cleans : Foretold scene (if follows then bench.rehearsed.cleanResults else pure ()) []
      (.ok ()) := by
    cases follows with
    | true => exact (Foretold.look _).bind (.tell _) rfl
    | false => exact .pure ()
  rw [tryTarget_eq]
  exact goes.bind ((foretold_drive bench target unasked).bind
    (cleans.bind (.pure (bench.rehearsedRecord scene target)) rfl) (List.append_nil _)) rfl

/-- Targets are tried in turn. -/
theorem foretold_tryTargets (bench : Bench) (targets : List Target)
    (unasked : scene.interrupted = false) :
    Foretold scene (bench.rehearsed.tryTargets targets)
      (targets.flatMap (bench.targetCalls (bench.fits scene.disk) scene.moment.stamp))
      (.ok (targets.map (bench.rehearsedRecord scene))) := by
  induction targets with
  | nil => exact .pure []
  | cons target targets ih =>
    exact (foretold_tryTarget bench target (!targets.isEmpty) unasked).bind
      (ih.bind (.pure _) (List.append_nil _)) rfl

/-- With a request to stop no target is tried. -/
theorem foretold_tryTargets_of_asked (bench : Bench) {targets : List Target} (some : targets ≠ [])
    (asked : scene.interrupted = true) :
    Foretold scene (bench.rehearsed.tryTargets targets) [] (.error Failure.interruption) := by
  obtain ⟨target, rest, rfl⟩ := List.exists_cons_of_ne_nil some
  have stops := Foretold.stopIfAsked_of_asked asked
  exact Foretold.bind_of_error stops.bind_of_error

/-- MySQL is tried unless it is left out. -/
theorem foretold_tryBaseline (bench : Bench) (unasked : scene.interrupted = false) :
    Foretold scene bench.rehearsed.tryBaseline
      (if bench.options.skipMysql then [] else bench.targetCalls (bench.fits scene.disk)
        scene.moment.stamp (Target.baseline bench.lab))
      (.ok ((if bench.options.skipMysql then [] else [Target.baseline bench.lab]).map
        (bench.rehearsedRecord scene))) := by
  unfold tryBaseline
  -- Every branch on an option is taken alike by the comparison and its rehearsal.
  by_cases skipped : bench.options.skipMysql = true
  · rw [if_pos skipped, if_pos skipped,
      if_pos (show bench.rehearsed.options.skipMysql = true from skipped)]
    exact .pure []
  · rw [if_neg skipped, if_neg skipped,
      if_neg (show ¬ bench.rehearsed.options.skipMysql = true from skipped)]
    exact (foretold_tryTarget bench _ _ unasked).bind (.pure _) (List.append_nil _)

/-- The workspace is said to have been patched, and the TiDB targets are tried. -/
theorem foretold_tryVariants {calls : List Call} {last : Except Failure (List TargetRecord)}
    (bench : Bench) (tried : Foretold scene (bench.rehearsed.tryTargets bench.variants) calls last) :
    Foretold scene bench.rehearsed.tryVariants (bench.patchCommands.map .run ++ calls) last :=
  (foretold_adaptWorkspace bench).attempt.bind tried rfl

/-- All planned targets are tried. -/
theorem foretold_tryAll (bench : Bench) (unasked : scene.interrupted = false) :
    Foretold scene bench.rehearsed.tryAll
      (bench.script (bench.fits scene.disk) scene.moment.stamp).tail
      (.ok (bench.planned.map (bench.rehearsedRecord scene))) := by
  unfold tryAll script planned
  rw [List.tail_cons]
  -- The options decide between the same branches as in the plan.
  by_cases compared : bench.options.compareOnly = true
  · rw [if_pos compared, if_pos compared,
      if_pos (show bench.rehearsed.options.compareOnly = true from compared)]
    exact .pure []
  · rw [if_neg compared, if_neg compared,
      if_neg (show ¬ bench.rehearsed.options.compareOnly = true from compared), List.map_append]
    refine (foretold_tryBaseline bench unasked).bind ?_ rfl
    by_cases skipped : bench.options.skipTidb = true
    · rw [if_pos skipped, if_pos skipped,
        if_pos (show bench.rehearsed.options.skipTidb = true from skipped), List.map_nil,
        List.append_nil]
      exact .pure _
    · rw [if_neg skipped, if_neg skipped,
        if_neg (show ¬ bench.rehearsed.options.skipTidb = true from skipped)]
      exact (foretold_tryVariants bench (foretold_tryTargets bench _ unasked)).bind (.pure _)
        (List.append_nil _)

/-- With a request to stop no planned target is tried. -/
theorem foretold_tryAll_of_asked (bench : Bench) (asked : scene.interrupted = true) :
    ∃ calls, Foretold scene bench.rehearsed.tryAll calls
      (if bench.planned = [] then .ok [] else .error Failure.interruption) := by
  -- The first target that is planned ends the run; if none is, nobody is asked to stop.
  unfold tryAll tryBaseline planned
  by_cases compared : bench.options.compareOnly = true
  · rw [if_pos compared, if_pos rfl,
      if_pos (show bench.rehearsed.options.compareOnly = true from compared)]
    exact ⟨_, .pure []⟩
  rw [if_neg compared, if_neg (show ¬ bench.rehearsed.options.compareOnly = true from compared)]
  by_cases first : bench.options.skipMysql = true
  · rw [if_pos first, if_pos (show bench.rehearsed.options.skipMysql = true from first)]
    by_cases second : bench.options.skipTidb = true
    · simp only [if_pos second, if_pos (show bench.rehearsed.options.skipTidb = true from second)]
      exact ⟨_, (Foretold.pure []).bind (.pure []) rfl⟩
    · simp only [if_neg second,
        if_neg (show ¬ bench.rehearsed.options.skipTidb = true from second)]
      rw [List.nil_append, if_neg bench.variants_ne_nil]
      have tried := foretold_tryVariants bench
        (foretold_tryTargets_of_asked bench bench.variants_ne_nil asked)
      exact ⟨_, (Foretold.pure []).bind tried.bind_of_error rfl⟩
  -- MySQL is planned, and the request is noticed before anything of it is done.
  · have stops := Foretold.stopIfAsked_of_asked asked
    rw [if_neg first, if_neg (show ¬ bench.rehearsed.options.skipMysql = true from first),
      if_neg (by simp)]
    exact ⟨_, Foretold.bind_of_error (Foretold.bind_of_error stops.bind_of_error)⟩

/-- The newest summaries are really compared. -/
theorem foretold_compareNewest (runs : Path) :
    ∃ comparisons, Foretold scene (Comparison.compareNewest runs) [] (.ok comparisons) :=
  ⟨_, (Foretold.look _).bind ((Foretold.forM_tell _).bind (.pure _) rfl) rfl⟩

/-- Targets that were given up are told. -/
theorem foretold_tellGivenUp (records : List TargetRecord) :
    Foretold scene (tellGivenUp records) [] (.ok ()) := by
  unfold tellGivenUp
  induction records.filter TargetRecord.isGivenUp with
  | nil => exact .pure ()
  | cons record rest ih => exact (Foretold.warn _).bind ih rfl

/-- Behind its targets a rehearsal reports them. -/
theorem foretold_execute {calls : List Call} {records : List TargetRecord}
    (tried : Foretold scene bench.rehearsed.tryAll calls (.ok records)) :
    ∃ report : BenchReport, report.targets = records ∧
      Foretold scene bench.rehearsed.execute (.run infoCommand :: calls) (.ok report) := by
  have concluded : ∀ comparisons, Foretold scene (tellGivenUp records >>= fun _ =>
      pure (⟨records, comparisons⟩ : BenchReport)) [] (.ok ⟨records, comparisons⟩) :=
    fun comparisons => (foretold_tellGivenUp records).bind (.pure _) rfl
  obtain ⟨comparisons, compared⟩ : ∃ comparisons, Foretold scene _ [] (.ok comparisons) :=
    foretold_compareNewest bench.lab.runs
  have opened : Foretold scene _ _ _ := foretold_prepareRun bench
  -- The newest summaries are compared in a rehearsal, too.
  unfold execute
  by_cases both : compares bench.rehearsed.options = true
  · simp only [if_pos both]
    exact ⟨_, rfl, opened.bind (tried.bind (compared.bind (concluded comparisons) rfl)
      (List.append_nil _)) rfl⟩
  · simp only [if_neg both]
    exact ⟨_, rfl, opened.bind (tried.bind ((Foretold.pure []).bind (concluded []) rfl)
      (List.append_nil _)) rfl⟩

/-- Without a request to stop a rehearsal calls its script and reports every planned target. -/
theorem foretold_execute_of_unasked (bench : Bench) (scene : Scene)
    (unasked : scene.interrupted = false) :
    ∃ report : BenchReport, report.targets = bench.planned.map (bench.rehearsedRecord scene) ∧
      Foretold scene bench.rehearsed.execute
        (bench.script (bench.fits scene.disk) scene.moment.stamp) (.ok report) :=
  foretold_execute (foretold_tryAll bench unasked)

/-- A rehearsal touches nothing, and when it returns, every planned target is reported as the check
of its configuration decides. -/
theorem foretold_rehearsal (bench : Bench) (scene : Scene) :
    ∃ calls result, Foretold scene bench.rehearsed.execute calls result ∧
      ∀ report, result = .ok report →
        report.targets = bench.planned.map (bench.rehearsedRecord scene) := by
  -- Without a request all targets are reported; with one nothing is, unless none was planned.
  cases asked : scene.interrupted with
  | false =>
    obtain ⟨report, same, foretold⟩ := bench.foretold_execute_of_unasked scene asked
    refine ⟨_, _, foretold, ?_⟩
    rintro _ ⟨⟩
    exact same
  | true =>
    obtain ⟨calls, tried⟩ := foretold_tryAll_of_asked bench asked
    by_cases none : bench.planned = []
    · rw [if_pos none] at tried
      obtain ⟨report, same, foretold⟩ := foretold_execute tried
      refine ⟨_, _, foretold, ?_⟩
      rintro _ ⟨⟩
      rw [same, none, List.map_nil]
    · rw [if_neg none] at tried
      exact ⟨_, _, (foretold_prepareRun bench).bind tried.bind_of_error rfl, by simp⟩

/-- A target is completed in a rehearsal exactly when its configuration fits. -/
theorem rehearsedRecord_spec (bench : Bench) (scene : Scene) (target : Target) :
    (bench.rehearsedRecord scene target).identifier = target.identifier ∧
      ((bench.rehearsedRecord scene target).isGivenUp = false ↔ ∃ settings,
        Dialect.checked scene.disk bench.lab.workspace target.backend = .ok settings) := by
  refine ⟨rfl, ?_⟩
  unfold rehearsedRecord rehearsedFate TargetRecord.isGivenUp
  cases Dialect.checked scene.disk bench.lab.workspace target.backend <;> simp

end Bench

end DialectBench

import DialectBench.Proofs.Bench.Opening
import DialectBench.Proofs.Bench.Rehearsal
import DialectBench.Proofs.Bench.Shelter
import DialectBench.Proofs.Session.Enacted
import DialectBench.Proofs.Session.Ordinary

/-! The rehearsal of a comparison makes the calls that the comparison makes, as long as these succeed and
spare the configuration. -/

namespace DialectBench

open Action

/-- The command succeeded, and it was not stopped for being silent. -/
def Reply.flawless : Reply → Bool
  | output (.ok result) => result.succeeded
  | ending (.ok result) => result.exitCode == 0 && !result.timedOut
  | _ => false

namespace Bench

/-- Two calls are the same up to the stamp in the name of a log. -/
inductive Resembles (bench : Bench) : Call → Call → Prop where
  /-- They are the same. -/
  | same (call : Call) : Resembles bench call call
  /-- They run the tests of a target at different times. -/
  | stamped (target : Target) (first second : String) :
      Resembles bench
        (.stream (bench.testCommand target) (target.logPath bench.lab.logs first)
          bench.options.timing.idle)
        (.stream (bench.testCommand target) (target.logPath bench.lab.logs second)
          bench.options.timing.idle)

/-- A call succeeds without a request to stop, and spares the configuration: what that is read by is the
same behind the call, and what the comparison does next by itself will not touch it. -/
structure Spares (bench : Bench) (base : Disk) (exchange : Exchange) : Prop where
  /-- The command succeeds in time. -/
  flawless : exchange.reply.flawless = true
  /-- Nobody has asked to stop. -/
  unasked : exchange.after.interrupted = false
  /-- The stamp of the time is the part of a file name. -/
  stamped : '/' ∉ exchange.after.moment.stamp.toList
  /-- The entries of the tree fit together. -/
  sound : exchange.after.disk.Sound
  /-- The current directory stays the same. -/
  current : exchange.after.disk.current = exchange.before.disk.current
  /-- What the configuration is read by stays the same. -/
  seen : ∀ place ∈ bench.way base, exchange.after.disk.view place = exchange.before.disk.view place
  /-- No link bears the name of a summary. -/
  unlinked : exchange.after.disk.Unlinked bench.NamesSummary
  /-- The results are beside the configuration. -/
  beside : bench.Beside base exchange.after.disk
  /-- The cache can be removed. -/
  yields : bench.Yields base exchange.after.disk

/-- A world in which a comparison may go on. -/
structure Ready (bench : Bench) (base : Disk) (scene : Scene) : Prop where
  /-- The configuration is read as before. -/
  shelters : bench.Shelters base scene.disk
  /-- The results are beside it. -/
  beside : bench.Beside base scene.disk
  /-- Nobody has asked to stop. -/
  unasked : scene.interrupted = false
  /-- The stamp of the time is the part of a file name. -/
  stamped : '/' ∉ scene.moment.stamp.toList

/-- Makes sure that containers can be started. -/
def askService (bench : Bench) : Action Unit := do
  let output ← Action.within .dockerMissing (Action.run bench.runner infoCommand)
  if output.succeeded then return ()
  else Action.refuse (.daemonUnavailable output.status)

/-- What a comparison does once its directories are there. -/
def afterDirectories (bench : Bench) : Action BenchReport := do
  bench.askService
  let targets ← bench.tryAll
  bench.concludeReport targets

/-- A comparison makes its directories first. -/
theorem execute_eq (bench : Bench) :
    bench.execute = bench.prepareDirectories bench.lab.workingDirectories >>= fun _ =>
      bench.afterDirectories := by
  unfold execute prepareRun
  rw [bind_assoc]
  rfl

variable {bench : Bench} {base : Disk} {target : Target} {s : Session} {α : Type}

/-- An action makes calls that are announced as long as these spare the configuration. -/
abbrev Announces (bench : Bench) (base : Disk) (before : Scene → Prop) (action : Action α)
    (script : List Call) (after : Except Failure α → Scene → Prop) : Prop :=
  Enacts (bench.Spares base) bench.Resembles before action script after

/-- Behind a call that spares the configuration the comparison may go on. -/
theorem Spares.ready {call : Call} {reply : Reply} {here there : Scene}
    (spares : bench.Spares base ⟨call, reply, here, there⟩) (keeps : bench.Keeps base here.disk) :
    bench.Ready base there where
  shelters := ⟨spares.sound, ⟨spares.current.trans keeps.current, fun place member =>
    (spares.seen place member).trans (keeps.seen place member)⟩, spares.unlinked⟩
  beside := spares.beside
  unasked := spares.unasked
  stamped := spares.stamped

/-- Behind quiet work that leaves the configuration as it is the comparison may go on. -/
theorem Ready.after_of_quiet {action : Action α} (ready : bench.Ready base s.scene)
    (quiet : action.Quiet)
    (spared : bench.Shelters base (action.after s).scene.disk ∧
      bench.Beside base (action.after s).scene.disk) :
    bench.Ready base (action.after s).scene where
  shelters := spared.1
  beside := spared.2
  unasked := (quiet.leads s).interrupted_eq.trans ready.unasked
  stamped := by
    rw [quiet.moment_eq]
    exact ready.stamped

section Stages

/-- A command that is run succeeds, and the cache can be removed behind it. -/
theorem announces_run (bench : Bench) (base : Disk) (command : Command) :
    bench.Announces base (fun scene => bench.Keeps base scene.disk)
      (Action.run bench.runner command) [.run command]
      (Gives fun output scene => output.succeeded = true ∧ bench.Ready base scene ∧
        bench.Yields base scene.disk) := by
  refine .run _ _ (.same _) fun outcome here there keeps spares => ?_
  cases outcome with
  | error failure => cases spares.flawless
  | ok output => exact ⟨spares.flawless, spares.ready keeps, spares.yields⟩

/-- A command that is run where the comparison may go on succeeds, and it may go on behind it. -/
theorem announces_run_of_ready (bench : Bench) (base : Disk) (command : Command) :
    bench.Announces base (bench.Ready base) (Action.run bench.runner command) [.run command]
      (Gives fun output scene => output.succeeded = true ∧ bench.Ready base scene ∧
        bench.Yields base scene.disk) :=
  (bench.announces_run base command).narrow fun _ ready => ready.shelters.keeps

/-- A command that must succeed does. -/
theorem announces_runToSuccess (bench : Bench) (base : Disk) (command : Command) :
    bench.Announces base (bench.Ready base) (Action.runToSuccess bench.runner command) [.run command]
      (Gives fun _ scene => bench.Ready base scene ∧ bench.Yields base scene.disk) := by
  refine (bench.announces_run_of_ready base command).bind (fun output => ?_) rfl
  by_cases succeeded : output.succeeded = true
  -- Under a flawless reply the demand is met, and a reply that does not succeed cannot come about.
  · have demands : bench.Announces base
        (fun scene => bench.Ready base scene ∧ bench.Yields base scene.disk)
        (Action.ofExcept (output.demandSuccess command)) [] _ :=
      .of_still (quiet_ofExcept _) (fun s => by rw [after_ofExcept])
        fun s => ⟨(), by rw [outcome_ofExcept, Output.demandSuccess, if_pos succeeded]⟩
    exact (demands.bind (fun _ => .pure output fun _ => id) rfl).narrow fun _ held => held.2
  · exact .unreached
      (fun s => ⟨[], ((quiet_ofExcept _).bind fun _ => .pure output).leads s⟩)
      fun _ held => succeeded held.1

/-- A warning changes nothing. -/
theorem enacts_warn {harmless : Exchange → Prop} {alike : Call → Call → Prop} {before : Scene → Prop}
    (words : String) : Enacts harmless alike before (Action.warn words) [] (Gives fun _ => before) :=
  .of_still (quiet_warn words) (fun _ => rfl) fun _ => ⟨(), rfl⟩

/-- A stage is passed, or gives the target up for an ordinary reason behind its last call. -/
theorem enacts_stage {harmless : Exchange → Prop} {alike : Call → Call → Prop}
    {before : Scene → Prop} {action : Action α} {calls more all : List Call}
    {after : Except Failure α → Scene → Prop} {fine : TargetFate → Scene → Prop} {name : Stage}
    {next : α → Action TargetFate} (first : Enacts harmless alike before action calls after)
    (onward : ∀ value, Enacts harmless alike (after (.ok value)) (next value) more (Gives fine))
    (fails : ∀ failure scene, after (.error failure) scene →
      failure.isInterruption = false ∧ more = [] ∧ fine (.abandoned name failure.account) scene)
    (same : calls ++ more = all) :
    Enacts harmless alike before (stage name action next) all (Gives fine) := by
  -- The attempt hands on either a value, behind which the next calls follow, or a failure.
  refine first.attempt.bind (fun outcome => ?_) same
  cases outcome with
  | ok value => exact onward value
  | error failure =>
    by_cases possible : ∃ scene, after (.error failure) scene
    · -- The target is given up, and no call was left.
      obtain ⟨scene, reached⟩ := possible
      obtain ⟨ordinary, rfl, -⟩ := fails failure scene reached
      simp only [Progress.ofResult, ordinary]
      exact .pure _ fun scene reached => (fails failure scene reached).2.2
    · refine .unreached (fun s => ⟨[], ?_⟩) fun scene reached => possible ⟨scene, reached⟩
      unfold Progress.ofResult
      dsimp only
      cases failure.isInterruption with
      | true => exact (Quiet.throw failure).leads s
      | false => exact (Quiet.pure _).leads s

/-- The caches are cleaned. -/
theorem announces_clearCaches (base : Disk) (real : bench.options.dryRun = false) :
    bench.Announces base (bench.Ready base) bench.clearCaches
      (bench.cleanCommands.map .run) (Gives fun _ => bench.Ready base) := by
  -- Both sides leave the cleaning out together.
  unfold clearCaches cleanCommands
  by_cases skipped : bench.options.skipClean = true
  · rw [if_pos skipped, if_pos skipped]
    exact enacts_warn _
  · rw [if_neg skipped, if_neg skipped]
    -- Right behind the command the cache can be removed.
    have removes : bench.Announces base
        (fun scene => bench.Ready base scene ∧ bench.Yields base scene.disk)
        (Action.removeIfPresent bench.lab.gradleCache) [] (Gives fun _ => bench.Ready base) := by
      refine .of_quiet (quiet_removeIfPresent _) fun s here => ?_
      obtain ⟨⟨removed, passed⟩, spared⟩ := here.1.shelters.removeCache here.1.beside here.2
      rw [passed]
      exact here.1.after_of_quiet (quiet_removeIfPresent _) spared
    refine (bench.announces_runToSuccess base _).bind (fun _ => ?_) rfl
    unfold deleteTree
    rw [real]
    exact removes.bind (fun _ => .pure () fun _ => id) rfl

/-- The workspace is patched. -/
theorem announces_adaptWorkspace (bench : Bench) (base : Disk) :
    bench.Announces base (bench.Ready base) bench.adaptWorkspace
      (bench.patchCommands.map .run) (Gives fun _ => bench.Ready base) := by
  unfold adaptWorkspace patchCommands
  by_cases skipped : bench.options.skipTidbPatch = true
  · rw [if_pos skipped, if_pos skipped]
    exact enacts_warn _
  · rw [if_neg skipped, if_neg skipped]
    exact (bench.announces_runToSuccess base _).bind (fun _ => .pure () fun _ held => held.1) rfl

/-- The configuration is patched. -/
theorem announces_setPreset (bench : Bench) (base : Disk) (preset : String) :
    bench.Announces base (bench.Ready base) (bench.setPreset preset)
      [.run (bench.presetCommand preset)] (Gives fun _ => bench.Ready base) :=
  (bench.announces_runToSuccess base _).bind (fun _ => .pure () fun _ held => held.1) rfl

/-- The check of the configuration ends as before everything. -/
theorem announces_checkDialect (bench : Bench) (base : Disk) (target : Target) :
    bench.Announces base (bench.Ready base) (bench.checkDialect target) []
      fun result scene => bench.Ready base scene ∧
        result = (Dialect.checked base bench.lab.workspace target.backend).map fun _ => () := by
  -- The check only looks at the tree, and what it reads there is the same as before everything.
  refine .of_quiet ((quiet_look _).bind fun found => (quiet_ofExcept found).bind fun _ => .pure ())
    fun s ready => ?_
  have same := ready.shelters.keeps.checked_eq target.backend
  have looked := outcome_look
    (fun d => Dialect.checked d bench.lab.workspace target.backend) s
  unfold checkDialect
  rw [after_bind_of_ok looked, outcome_bind_of_ok looked, after_look, same, bind_pure_comp, after_map,
    outcome_map, after_ofExcept, outcome_ofExcept]
  exact ⟨ready, rfl⟩

/-- The database is started. -/
theorem announces_startDatabase (bench : Bench) (base : Disk) (target : Target) :
    bench.Announces base (bench.Ready base) (bench.startDatabase target)
      [.run (removeCommand target.container), .run (bench.startCommand target),
        .run (inspectCommand target)] (Gives fun _ => bench.Ready base) := by
  have starts := ((bench.announces_runToSuccess base (bench.startCommand target)).widen
    fun _ _ held => held.1).within (.scriptFailed target.backend.name)
  refine (bench.announces_run_of_ready base _).bind (fun _ => ?_) rfl
  refine (starts.narrow fun _ held => held.2.1).bind (fun _ => ?_) rfl
  refine (bench.announces_run_of_ready base _).bind (fun output => ?_) rfl
  -- The container is up, since the question after it succeeds.
  cases succeeded : output.succeeded with
  | true => exact .pure () fun _ held => held.2.1
  | false =>
    exact .unreached (fun s => ⟨[], (Quiet.throw _).leads s⟩) fun _ held => by simp at held

/-- The tests are watched until they end, and not stopped. -/
theorem announces_watchTests (bench : Bench) (base : Disk) (target : Target) (stamp now : String) :
    bench.Announces base (fun scene => '/' ∉ now.toList ∧ bench.Ready base scene)
      (bench.watchTests target now)
      [.stream (bench.testCommand target) (target.logPath bench.lab.logs stamp)
        bench.options.timing.idle]
      (Gives fun ending scene => ending = ⟨0, false⟩ ∧ '/' ∉ now.toList ∧ bench.Ready base scene) := by
  -- The reply of a harmless exchange is an ending with the code zero that was not forced.
  refine .stream _ _ _ _ (.stamped target stamp now) fun outcome here there held spares => ?_
  have flawless := spares.flawless
  cases outcome with
  | error failure => cases flawless
  | ok ending =>
    obtain ⟨code, late⟩ := ending
    simp only [Reply.flawless, Bool.and_eq_true, beq_iff_eq, Bool.not_eq_true'] at flawless
    obtain ⟨rfl, rfl⟩ := flawless
    exact ⟨rfl, held.1, spares.ready held.2.shelters.keeps⟩

/-- Behind tests that ended well there is nothing to do. -/
theorem concludeTests_of_ended (stamp : String) (log : Path) (unasked : s.scene.interrupted = false) :
    (concludeTests stamp log (.ok ⟨0, false⟩)).outcome s = .ok ⟨stamp, log, 0⟩ ∧
      (concludeTests stamp log (.ok ⟨0, false⟩)).after s = s := by
  have goes : Action.stopIfAsked.outcome s = .ok () := by simp [unasked]
  refine ⟨by rw [outcome_concludeTests, unasked]; rfl, ?_⟩
  unfold concludeTests
  rw [after_bind_of_ok (outcome_ofExcept _ s), after_ofExcept, after_bind_of_ok goes,
    after_stopIfAsked]
  rfl

/-- The tests are run, and they leave no container behind. -/
theorem announces_launchTests (bench : Bench) (base : Disk) (target : Target) (stamp : String) :
    bench.Announces base (bench.Ready base) (bench.launchTests target)
      [.stream (bench.testCommand target) (target.logPath bench.lab.logs stamp)
        bench.options.timing.idle]
      (Gives fun execution scene => '/' ∉ execution.stamp.toList ∧ bench.Ready base scene) := by
  -- The stamp is taken in front of the call, so it is the stamp of a scene that is ready.
  have stamps : bench.Announces base (bench.Ready base) Action.stamp []
      (Gives fun now scene => '/' ∉ now.toList ∧ bench.Ready base scene) :=
    .of_quiet .stamp fun s ready => ⟨ready.stamped, ready⟩
  rw [launchTests_eq]
  refine stamps.bind (fun now => ?_) rfl
  refine (bench.announces_watchTests base target stamp now).attempt.bind (fun outcome => ?_)
    (List.append_nil _)
  by_cases ended : outcome = .ok ⟨0, false⟩
  · -- A command that ended by itself leaves no container behind.
    subst ended
    refine .of_quiet ((Quiet.pure ()).bind fun _ => quiet_concludeTests _ _ _) fun s held => ?_
    obtain ⟨same, still⟩ :=
      concludeTests_of_ended now (target.logPath bench.lab.logs now) held.2.2.unasked
    rw [after_bind_of_ok rfl, outcome_bind_of_ok rfl]
    show Gives _ ((concludeTests _ _ _).outcome s) ((concludeTests _ _ _).after s).scene
    rw [still, same]
    exact held.2
  · -- The tests do not end in any other way.
    refine .unreached (fun s => ?_) fun scene reached => ?_
    · obtain ⟨-, made, led, -⟩ := bench.leads_dropContainer_if (s := s) (isStranded outcome)
        target.testContainer
      exact ⟨made, leads_bind_quiet led fun _ => quiet_concludeTests _ _ _⟩
    · cases outcome with
      | ok ending => exact ended (congrArg Except.ok reached.1)
      | error failure => exact reached

/-- Collecting leaves the configuration as it is, and fails for ordinary reasons. -/
theorem announces_gatherResults (real : bench.options.dryRun = false)
    (there : ∀ place ∈ bench.way base, base.view place ≠ none) (execution : FinishedTests) :
    bench.Announces base (fun scene => '/' ∉ execution.stamp.toList ∧ bench.Ready base scene)
      (bench.gatherResults target execution) [] fun result scene =>
        ('/' ∉ execution.stamp.toList ∧ bench.Shelters base scene.disk) ∧
          ∀ failure, result = .error failure → failure.isInterruption = false := by
  unfold gatherResults
  rw [real]
  exact .of_quiet (Collection.quiet_collect _) fun s ⟨slashless, ready⟩ =>
    ⟨⟨slashless, ready.shelters.grow (Collection.grows_collect ready.shelters.sound rfl) there⟩,
      Collection.ordinary_collect _ s⟩

/-- Summarizing leaves the configuration as it is, and fails for ordinary reasons. -/
theorem announces_summarizeResults (real : bench.options.dryRun = false)
    (there : ∀ place ∈ bench.way base, base.view place ≠ none)
    (unnamed : bench.Unnamed base) (planned : target ∈ bench.planned) (collection : Path)
    (stamp : String) :
    bench.Announces base (fun scene => '/' ∉ stamp.toList ∧ bench.Shelters base scene.disk)
      (bench.summarizeResults target collection stamp) [] fun result scene =>
        bench.Keeps base scene.disk ∧ ∀ failure, result = .error failure →
          failure.isInterruption = false := by
  unfold summarizeResults
  dsimp only
  rw [if_neg (by simp [real])]
  -- Printing the account changes no file and does not fail.
  have told (value : Summary.Result) : (Action.printLines (Summary.accountLines value) >>= fun _ =>
      pure (value.jsonPath.getD (Summary.jsonPath (target.summaryStart bench.lab.runs) stamp)) :
        Action Path).Quiet := (quiet_printLines _).bind fun _ => .pure _
  refine .of_quiet ((Summary.quiet_summarize _).bind told) fun s ⟨slashless, shelters⟩ => ⟨?_, ?_⟩
  · have keeps := shelters.keeps_summarize there unnamed planned collection slashless
    cases summarized :
        (Summary.summarize (bench.summaryRequest target collection stamp)).outcome s with
    | error failure =>
      rw [after_bind_of_error summarized]
      exact keeps
    | ok value =>
      rw [after_bind_of_ok summarized]
      exact ((Upholds.printLines _).bind fun _ => .pure _).after_of_quiet (told value) keeps
  · exact (Summary.ordinary_summarize _).bind
      (fun value => (Ordinary.printLines _).bind fun _ => .pure _) s

/-- The container is removed, and the comparison may go on. -/
theorem announces_dropContainer (bench : Bench) (base : Disk) (container : String) :
    bench.Announces base (fun scene => bench.Keeps base scene.disk)
      (bench.dropContainer container) [.run (removeCommand container)]
      (Gives fun _ => bench.Ready base) := by
  -- The reply succeeds, so there is nothing to warn of.
  refine ((bench.announces_run base _).attempt).bind (fun outcome => ?_) rfl
  cases outcome with
  | error failure => exact (enacts_warn _).narrow fun _ => False.elim
  | ok output =>
    dsimp only
    split
    · exact .pure () fun _ held => held.2.1
    · exact (enacts_warn _).narrow fun _ held => held.2.1

/-- The stages behind the check are gone through as far as the calls go. -/
theorem announces_backendStages (real : bench.options.dryRun = false)
    (there : ∀ place ∈ bench.way base, base.view place ≠ none)
    (unnamed : bench.Unnamed base) (planned : target ∈ bench.planned) (stamp : String) :
    bench.Announces base (bench.Ready base) (bench.backendStages target)
      [.run (removeCommand target.container), .run (bench.startCommand target),
        .run (inspectCommand target),
        .stream (bench.testCommand target) (target.logPath bench.lab.logs stamp)
          bench.options.timing.idle]
      (Gives fun _ scene => bench.Keeps base scene.disk) := by
  -- The stages that make calls come first, and none of them fails.
  refine enacts_stage (bench.announces_startDatabase base target) (fun _ => ?_)
    (fun _ _ => False.elim) rfl
  refine enacts_stage (bench.announces_launchTests base target stamp) (fun execution => ?_)
    (fun _ _ => False.elim) (List.append_nil _)
  -- From here on there are no calls, so what goes wrong changes nothing about them.
  refine enacts_stage (announces_gatherResults real there execution) (fun collection => ?_)
    (fun failure scene held => ⟨held.2 failure rfl, rfl, held.1.2.keeps⟩) rfl
  have summarizes := announces_summarizeResults real there unnamed planned collection execution.stamp
  exact enacts_stage (summarizes.narrow fun _ held => held.1)
    (fun summary => .pure _ fun _ held => held.1)
    (fun failure scene held => ⟨held.2 failure rfl, rfl, held.1⟩) rfl

/-- The stages behind the check are gone through, and the container is removed whatever comes of them. -/
theorem announces_withBackend (real : bench.options.dryRun = false)
    (there : ∀ place ∈ bench.way base, base.view place ≠ none)
    (unnamed : bench.Unnamed base) (planned : target ∈ bench.planned) (stamp : String) :
    bench.Announces base (bench.Ready base) (bench.withBackend target)
      (bench.backendCalls stamp target) (Gives fun _ => bench.Ready base) := by
  refine (announces_backendStages real there unnamed planned stamp).attempt.bind (fun outcome => ?_)
    rfl
  cases outcome with
  | ok fate => exact (bench.announces_dropContainer base _).bind (fun _ => .pure fate fun _ => id) rfl
  | error failure =>
    -- No stage is interrupted.
    refine .unreached (fun s => ?_) fun _ => False.elim
    obtain ⟨removal, led, -⟩ := bench.leads_dropContainer target.container s
    exact ⟨[removal], leads_bind_quiet led fun _ => quiet_ofExcept _⟩

/-- A target is driven as far as its configuration allows. -/
theorem announces_drive (real : bench.options.dryRun = false)
    (unnamed : bench.Unnamed base) (planned : target ∈ bench.planned) (stamp : String) :
    bench.Announces base (bench.Ready base) (bench.drive target)
      (bench.targetCalls (bench.fits base) stamp target) (Gives fun _ => bench.Ready base) := by
  have checks : bench.Announces base (bench.Ready base)
      (stage .checkDialect (bench.checkDialect target) fun _ => bench.withBackend target)
      (if bench.fits base target.backend then bench.backendCalls stamp target else [])
      (Gives fun _ => bench.Ready base) := by
    have checked := bench.announces_checkDialect base target
    unfold fits
    cases settings : Dialect.checked base bench.lab.workspace target.backend with
    | ok found =>
      rw [settings] at checked
      -- A configuration that fits was read, so something is everywhere on the way to it.
      obtain ⟨content, read⟩ := Dialect.exists_read_of_checked settings
      refine enacts_stage checked (fun _ => ?_) (fun failure _ held => by cases held.2) rfl
      exact (announces_withBackend real (Disk.view_ne_none_of_read read) unnamed planned stamp).narrow
        fun _ held => held.1
    | error failure =>
      -- A configuration that does not fit ends the work on the target, as it does in the rehearsal.
      rw [settings] at checked
      have leads := bench.maintains_sound.withBackend target
      refine enacts_stage checked (fun _ => .unreached (fun s => ?_) fun _ held => by cases held.2)
        (fun reason _ held => ?_) rfl
      · exact (leads s).imp fun _ held => held.1
      · obtain rfl := Except.error.inj held.2
        exact ⟨Dialect.checked_not_interrupted settings, rfl, held.1⟩
  -- In front of the check there are the caches and the preset, both of which succeed.
  unfold drive targetCalls openingCalls
  rw [List.append_assoc]
  refine enacts_stage (announces_clearCaches base real) (fun _ => ?_) (fun _ _ => False.elim) rfl
  unfold presetStage
  cases target.preset with
  | none => exact checks
  | some preset =>
    exact enacts_stage (bench.announces_setPreset base preset) (fun _ => checks)
      (fun _ _ => False.elim) rfl

end Stages

section Runs

variable (real : bench.options.dryRun = false) (unnamed : bench.Unnamed base)
include real unnamed

/-- A target is tried, and the workspace is cleaned behind it. -/
theorem announces_tryTarget (planned : target ∈ bench.planned) (follows : Bool) (stamp : String) :
    bench.Announces base (bench.Ready base) (bench.tryTarget target follows)
      (bench.targetCalls (bench.fits base) stamp target) (Gives fun _ => bench.Ready base) := by
  -- Nobody has asked to stop, so the target is taken up.
  have goes : bench.Announces base (bench.Ready base) Action.stopIfAsked []
      (Gives fun _ => bench.Ready base) :=
    .of_quiet .stopIfAsked fun s ready => by
      rw [outcome_stopIfAsked, after_stopIfAsked, ready.unasked]
      exact ready
  -- The sweep makes no calls, and what it removes lies beside the configuration.
  have cleans : bench.Announces base (bench.Ready base)
      (if follows then bench.cleanResults else pure ()) [] (Gives fun _ => bench.Ready base) := by
    cases follows with
    | true =>
      refine .of_quiet bench.quiet_cleanResults fun s ready => ?_
      rw [if_pos rfl, bench.outcome_cleanResults]
      exact ready.after_of_quiet bench.quiet_cleanResults
        (ready.shelters.cleanResults ready.beside real)
    | false => exact .pure () fun _ => id
  rw [tryTarget_eq]
  exact goes.bind (fun _ => (announces_drive real unnamed planned stamp).bind
    (fun status => cleans.bind (fun _ => .pure _ fun _ => id) rfl) (List.append_nil _)) rfl

/-- Targets are tried in turn. -/
theorem announces_tryTargets {targets : List Target} (planned : targets ⊆ bench.planned)
    (stamp : String) :
    bench.Announces base (bench.Ready base) (bench.tryTargets targets)
      (targets.flatMap (bench.targetCalls (bench.fits base) stamp))
      (Gives fun _ => bench.Ready base) := by
  induction targets with
  | nil => exact .pure [] fun _ => id
  | cons target targets ih =>
    obtain ⟨own, others⟩ := List.cons_subset.mp planned
    exact (announces_tryTarget real unnamed own _ stamp).bind
      (fun report => (ih others).bind (fun reports => .pure _ fun _ => id) (List.append_nil _)) rfl

/-- The workspace is patched, and the TiDB targets are tried. -/
theorem announces_tryVariants (planned : bench.variants ⊆ bench.planned) (stamp : String) :
    bench.Announces base (bench.Ready base) bench.tryVariants
      (bench.patchCommands.map .run ++
        bench.variants.flatMap (bench.targetCalls (bench.fits base) stamp))
      (Gives fun _ => bench.Ready base) := by
  -- The variants follow the patch, and their calls follow its calls.
  refine (bench.announces_adaptWorkspace base).attempt.bind (fun outcome => ?_) rfl
  cases outcome with
  | ok value => exact announces_tryTargets real unnamed planned stamp
  | error failure =>
    -- The patch does not fail.
    refine .unreached (fun s => ⟨[], ?_⟩) fun _ => False.elim
    unfold Progress.ofResult
    dsimp only
    cases failure.isInterruption with
    | true => exact (Quiet.throw failure).leads s
    | false => exact ((quiet_warn _).bind fun _ => .pure _).leads s

/-- MySQL is tried unless it is left out. -/
theorem announces_tryBaseline (compared : ¬ bench.options.compareOnly = true) (stamp : String) :
    bench.Announces base (bench.Ready base) bench.tryBaseline
      (if bench.options.skipMysql then []
        else bench.targetCalls (bench.fits base) stamp (Target.baseline bench.lab))
      (Gives fun _ => bench.Ready base) := by
  -- Both sides leave MySQL out together.
  unfold tryBaseline
  by_cases skipped : bench.options.skipMysql = true
  · rw [if_pos skipped, if_pos skipped]
    exact .pure [] fun _ => id
  · rw [if_neg skipped, if_neg skipped]
    have planned : Target.baseline bench.lab ∈ bench.planned := by
      simp [Bench.planned, compared, skipped]
    exact (announces_tryTarget real unnamed planned _ stamp).bind (fun _ => .pure _ fun _ => id)
      (List.append_nil _)

/-- All planned targets are tried. -/
theorem announces_tryAll (stamp : String) :
    bench.Announces base (bench.Ready base) bench.tryAll
      (bench.script (bench.fits base) stamp).tail (Gives fun _ => bench.Ready base) := by
  -- The script starts with the call that asks for the service, and its tail is what the targets add.
  unfold tryAll script
  rw [List.tail_cons]
  by_cases compared : bench.options.compareOnly = true
  · rw [if_pos compared, if_pos compared]
    exact .pure [] fun _ => id
  · rw [if_neg compared, if_neg compared]
    refine (announces_tryBaseline real unnamed compared stamp).bind (fun first => ?_) rfl
    by_cases skipped : bench.options.skipTidb = true
    · rw [if_pos skipped, if_pos skipped]
      exact .pure first fun _ => id
    · rw [if_neg skipped, if_neg skipped]
      have planned : bench.variants ⊆ bench.planned := by simp [Bench.planned, compared, skipped]
      exact (announces_tryVariants real unnamed planned stamp).bind (fun _ => .pure _ fun _ => id)
        (List.append_nil _)

/-- Behind the working directories a comparison goes on to its end. -/
theorem announces_afterDirectories (stamp : String) :
    bench.Announces base (fun scene => bench.Keeps base scene.disk)
      bench.afterDirectories (bench.script (bench.fits base) stamp) fun _ _ => True := by
  -- The service answers, as every call does that spares the configuration.
  have asks : bench.Announces base (fun scene => bench.Keeps base scene.disk)
      bench.askService [.run infoCommand] (Gives fun _ => bench.Ready base) := by
    refine ((bench.announces_run base infoCommand).within .dockerMissing).bind (fun output => ?_) rfl
    cases succeeded : output.succeeded with
    | true => exact .pure () fun _ held => held.2.1
    | false =>
      exact .unreached (fun s => ⟨[], (Quiet.throw _).leads s⟩) fun _ held => by simp at held
  refine asks.bind (fun _ => (announces_tryAll real unnamed stamp).bind (fun records => ?_)
    (List.append_nil _)) rfl
  exact .of_quiet (bench.quiet_concludeReport records) fun _ _ => trivial

end Runs

/-- A rehearsal announces the calls of the comparison, whatever comes of collecting and summarizing: in the
same tree, the calls of both are the same in the same order up to the stamps in the names of the logs. The
working directories can be made without making anything that the configuration was missing, nothing that
it is read by is named like a summary, and every call succeeds and spares it. -/
theorem rehearsal_announces_calls {bench : Bench} {s t : Session}
    (real : bench.options.dryRun = false) (tree : t.scene.disk = s.scene.disk)
    (unasked : t.scene.interrupted = false)
    (prepared : (bench.prepareDirectories bench.lab.workingDirectories).outcome s = .ok ())
    (keeps : bench.Keeps s.scene.disk
      ((bench.prepareDirectories bench.lab.workingDirectories).after s).scene.disk)
    (unnamed : bench.Unnamed s.scene.disk)
    (spares : ∀ exchange ∈ bench.execute.trace s, bench.Spares s.scene.disk exchange) :
    List.Forall₂ bench.Resembles ((bench.rehearsed.execute.trace t).map Exchange.call)
      ((bench.execute.trace s).map Exchange.call) := by
  -- The calls of the rehearsal are foretold from the tree, and both begin in the same one.
  obtain ⟨report, -, foretold⟩ := bench.foretold_execute_of_unasked t.scene unasked
  rw [foretold.trace rfl, tree]
  have enacts : Enacts (bench.Spares s.scene.disk) bench.Resembles
      (fun scene => bench.Keeps s.scene.disk scene.disk) bench.afterDirectories _ _ :=
    announces_afterDirectories real unnamed t.scene.moment.stamp
  -- Making the directories calls nothing, so all calls are those that follow.
  have begins := (bench.quiet_prepareDirectories bench.lab.workingDirectories).leads s
  obtain ⟨made, led⟩ := enacts.leads
    ((bench.prepareDirectories bench.lab.workingDirectories).after s)
  have whole : bench.execute.trace s = bench.afterDirectories.trace
      ((bench.prepareDirectories bench.lab.workingDirectories).after s) := by
    rw [execute_eq, trace, trace, after_bind_of_ok prepared, led.since_eq]
    exact (begins.trans led).since_eq
  -- What the calls of the whole comparison do is what those behind the directories do.
  rw [whole] at spares ⊢
  exact (enacts.does _ keeps spares).1

/-- A configuration that is read by nothing in a build output is beside the results. -/
theorem beside_of_not_mem {d : Disk} (apart : ∀ place ∈ bench.way base, Suite.outputName ∉ place) :
    bench.Beside base d := fun _ _ _ transient place member inside =>
  apart place member (inside.subset (List.mem_append_right _ (Suite.outputName_mem transient)))

/-- The name of a summary ends like that of every JSON file. -/
theorem NamesSummary.suffix {name : String} (names : bench.NamesSummary name) :
    ".json".toList <:+ name.toList := by
  obtain ⟨target, -, stamp, -, rfl⟩ := names
  refine ⟨(target.identifier ++ "-summary" ++ ("-" ++ stamp)).toList, ?_⟩
  simp [Target.summaryName]

end Bench

/-- A workspace with a configuration and an empty directory of results in it. -/
def Disk.untested : Disk :=
  .around [(["ws"], .directory 0), (["ws", "local-build-plugins"], .directory 0),
    (["ws", "local-build-plugins", "src"], .directory 0),
    (["ws", "local-build-plugins", "src", "main"], .directory 0),
    (["ws", "local-build-plugins", "src", "main", "groovy"], .directory 0),
    (["ws", "local-build-plugins", "src", "main", "groovy", "local.databases.gradle"],
      .file (Text.encode "mysql: []\ntidb: []") false 0),
    (["ws", "m"], .directory 0), (["ws", "m", "target"], .directory 0),
    (["ws", "m", "target", "test-results"], .directory 0)]

/-- A workspace whose configuration lies among its results, behind a link. -/
def Disk.entangled : Disk :=
  .around [(["ws"], .directory 0),
    (["ws", "local-build-plugins"], .link "target/test-results/p"),
    (["ws", "target"], .directory 0), (["ws", "target", "test-results"], .directory 0),
    (["ws", "target", "test-results", "p"], .directory 0),
    (["ws", "target", "test-results", "p", "src"], .directory 0),
    (["ws", "target", "test-results", "p", "src", "main"], .directory 0),
    (["ws", "target", "test-results", "p", "src", "main", "groovy"], .directory 0),
    (["ws", "target", "test-results", "p", "src", "main", "groovy", "local.databases.gradle"],
      .file (Text.encode "mysql: []\ntidb: []") false 0)]

/-- A runner whose commands succeed and change nothing. -/
def Runner.obliging : Runner where
  run _ _ scene := { outcome := .ok Output.silent, scene }
  stream _ _ _ _ scene := { outcome := .ok ⟨0, false⟩, scene }

/-- In a workspace without links the rehearsal announces all twelve calls, although the directory of results
is removed behind MySQL, and neither target has anything to collect. -/
theorem rehearsal_announces_calls_untested :
    ((Bench.pair .obliging).execute.trace (.at .untested)).length = 12 ∧
      List.Forall₂ (Bench.pair .obliging).Resembles
        (((Bench.pair .obliging).rehearsed.execute.trace (.at .untested)).map Exchange.call)
        (((Bench.pair .obliging).execute.trace (.at .untested)).map Exchange.call) := by
  -- The facts about the configuration, the calls and the trees behind them are each computed once.
  have way : ∀ place ∈ (Bench.pair .obliging).way Disk.untested, Suite.outputName ∉ place ∧
      ∀ name ∈ place.getLast?, ¬ ".json".toList <:+ name.toList := by decide
  have calls : ∀ exchange ∈ (Bench.pair .obliging).execute.trace (.at .untested),
      exchange.reply.flawless = true ∧ exchange.after.interrupted = false ∧
        '/' ∉ exchange.after.moment.stamp.toList ∧ exchange.after.disk = exchange.before.disk := by
    decide +kernel
  have trees : ∀ exchange ∈ (Bench.pair .obliging).execute.trace (.at .untested),
      exchange.after.disk.places.Nodup ∧ (∀ place ∈ exchange.after.disk.places, place ≠ []) ∧
        (∀ place ∈ exchange.after.disk.places, ∀ name ∈ place, IsPlain name) ∧
        (∀ place ∈ exchange.after.disk.places,
          exchange.after.disk.isDirectoryAt place.dropLast = true) ∧
        (∀ entry ∈ exchange.after.disk.entries, entry.2.isFile || entry.2.isDirectory) ∧
        exchange.after.disk.exists? (Bench.pair .obliging).lab.gradleCache = false := by
    decide +kernel
  refine ⟨by decide +kernel, Bench.rehearsal_announces_calls rfl rfl rfl (by decide +kernel)
    ⟨by decide +kernel, by decide +kernel⟩ (fun place member outer name names same => ?_)
    fun exchange member => ?_⟩
  -- No configuration bears the name of a summary.
  · refine (way place member).2 name ?_ names.suffix
    simp [same]
  -- Each exchange has to spare the configuration, and none of them changes the tree.
  · obtain ⟨flawless, unasked, stamped, same⟩ := calls exchange member
    obtain ⟨distinct, inner, plain, housed, solid, free⟩ := trees exchange member
    have linkless : exchange.after.disk.Linkless [] := Disk.linkless_of_entries solid
    exact {
      flawless, unasked, stamped
      sound := ⟨distinct, inner, plain, housed⟩
      current := by rw [same]
      seen := fun place _ => by rw [same]
      unlinked := fun place name _ target => linkless (place ++ [name]) target
      beside := Bench.beside_of_not_mem fun place member => (way place member).1
      yields := fun there => by simp [free] at there }

/-- Where the configuration lies among the results it goes with them: TiDB is given up at the check, and
the rehearsal has announced calls that are never made. -/
theorem swept_configuration_unannounced :
    Disk.entangled.Sound ∧ (Bench.pair .obliging).options.dryRun = false ∧
      ((Bench.pair .obliging).prepareDirectories (Bench.pair .obliging).lab.workingDirectories).outcome
        (.at .entangled) = .ok () ∧
      Disk.entangled.exists? (Bench.pair .obliging).lab.gradleCache = false ∧
      (∀ exchange ∈ (Bench.pair .obliging).execute.trace (.at .entangled),
        exchange.reply.flawless = true ∧ exchange.after = exchange.before ∧
          exchange.after.interrupted = false) ∧
      ¬ List.Forall₂ (Bench.pair .obliging).Resembles
        (((Bench.pair .obliging).rehearsed.execute.trace (.at .entangled)).map Exchange.call)
        (((Bench.pair .obliging).execute.trace (.at .entangled)).map Exchange.call) := by
  refine ⟨⟨by decide, by decide, by decide +kernel, by decide +kernel⟩, rfl, by decide +kernel,
    by decide +kernel, by decide +kernel, fun announced => ?_⟩
  -- The two lists of calls differ in length.
  have lengths := announced.length_eq
  revert lengths
  decide +kernel

end DialectBench

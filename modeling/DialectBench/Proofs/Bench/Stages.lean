import DialectBench.Bench.Execute
import DialectBench.Proofs.Session.Quiet

/-! The stages of a target one by one: the calls that each of them makes, and when it fails. -/

namespace DialectBench

/-- The reason why there is no result. -/
def failureOf {α : Type} : Except Failure α → Option Failure
  | .ok _ => none
  | .error failure => some failure

/-- A stage that was gone through. -/
structure Visit where
  /-- The stage. -/
  stage : Stage
  /-- The session in which it began. -/
  before : Session
  /-- Why it failed, if it did. -/
  failure : Option Failure
  /-- The session in which it ended. -/
  after : Session

namespace Bench

/-- The commands that clean the caches. -/
def cleanCommands (bench : Bench) : List Command :=
  if bench.options.skipClean then [] else [cleanCommand bench.lab.workspace bench.lab.runnerImage]

/-- The commands that patch the workspace for TiDB. -/
def patchCommands (bench : Bench) : List Command :=
  if bench.options.skipTidbPatch then [] else [bench.patchCommand]

end Bench

namespace Visit

/-- A stage that consists of an action. -/
def of {α : Type} (stage : Stage) (action : Action α) (s : Session) : Visit :=
  ⟨stage, s, failureOf (action.outcome s), action.after s⟩

/-- The calls of a stage, the oldest first. -/
def calls (visit : Visit) : List Exchange :=
  visit.after.since visit.before

/-- Calls of a stage run commands in turn: all of them and with success if it is passed, and else as
many as it came to. -/
def Performs (visit : Visit) (commands : List Command) (calls : List Exchange) : Prop :=
  calls.map Exchange.call <+: commands.map .run ∧
    (visit.failure = none → calls.map Exchange.call = commands.map .run ∧
      ∀ exchange ∈ calls, exchange.reply.succeeded = true)

/-- A stage starts the database of a target: it removes a leftover container in the world that it
finds, whatever comes of that, and then runs the script and asks for the new container. -/
def Starts (bench : Bench) (target : Target) (visit : Visit) : Prop :=
  ∃ removal rest, visit.calls = removal :: rest ∧
    removal.call = .run (Bench.removeCommand target.container) ∧
    removal.before = visit.before.scene ∧
    visit.Performs [bench.startCommand target, Bench.inspectCommand target] rest

/-- A stage runs the tests of a target: their container is removed right after them if it may still
be there, and a request to stop counts as a failure once they have ended. -/
def Tests (bench : Bench) (target : Target) (visit : Visit) : Prop :=
  ∃ stream ending rest, visit.calls = stream :: rest ∧
    stream.call = .stream (bench.testCommand target)
      (target.logPath bench.lab.logs visit.before.scene.moment.stamp) bench.options.timing.idle ∧
    stream.reply = .ending ending ∧
    rest.map Exchange.call =
      (if Bench.isStranded ending then [.run (Bench.removeCommand target.testContainer)] else []) ∧
    visit.failure =
      match ending with
      | .error failure => some failure
      | .ok _ => if visit.after.scene.interrupted then some .interruption else none

/-- What a stage of a target does: its calls, and what a failure says about them. -/
def Does (bench : Bench) (target : Target) (visit : Visit) : Prop :=
  match visit.stage with
  | .clearCaches => visit.Performs bench.cleanCommands visit.calls
  | .adaptWorkspace => visit.Performs bench.patchCommands visit.calls
  | .setPreset => visit.Performs (target.preset.toList.map bench.presetCommand) visit.calls
  | .checkDialect =>
    visit.calls = [] ∧ visit.after = visit.before ∧
      visit.failure =
        failureOf (Dialect.checked visit.before.scene.disk bench.lab.workspace target.backend)
  | .startDatabase => visit.Starts bench target
  | .launchTests => visit.Tests bench target
  | .collect | .summarize => visit.calls = []

/-- A stage leads through its calls and does what it should. -/
structure Fits (bench : Bench) (target : Target) (visit : Visit) : Prop where
  /-- The calls lead from its start to its end. -/
  leads : visit.before.Leads visit.calls visit.after
  /-- They are the calls of the stage. -/
  does : visit.Does bench target

namespace Fits

variable {bench : Bench} {target : Target} {visit : Visit}

/-- The check of the dialect makes no call and decides from the configuration as it is. -/
theorem checks (fits : visit.Fits bench target) (named : visit.stage = .checkDialect) :
    visit.after = visit.before ∧ visit.failure =
      failureOf (Dialect.checked visit.before.scene.disk bench.lab.workspace target.backend) := by
  have does := fits.does
  rw [Does, named] at does
  exact does.2

/-- The start of the database starts it. -/
theorem starts (fits : visit.Fits bench target) (named : visit.stage = .startDatabase) :
    visit.Starts bench target := by
  have does := fits.does
  rwa [Does, named] at does

/-- The launch of the tests runs them. -/
theorem tests (fits : visit.Fits bench target) (named : visit.stage = .launchTests) :
    visit.Tests bench target := by
  have does := fits.does
  rwa [Does, named] at does

end Fits

variable {α β : Type} {stage : Stage} {action : Action α} {s : Session} {calls : List Exchange}

/-- The calls of a stage are those that its action makes. -/
theorem calls_of (led : s.Leads calls (action.after s)) : (of stage action s).calls = calls :=
  led.since_eq

/-- A stage leads through its calls when its action does. -/
theorem leads_of (led : s.Leads calls (action.after s)) :
    (of stage action s).before.Leads (of stage action s).calls (of stage action s).after := by
  rw [calls_of led]
  exact led

/-- A stage is passed when its action succeeds. -/
theorem failure_of_eq_none :
    (of stage action s).failure = none ↔ ∃ value, action.outcome s = .ok value := by
  show failureOf (action.outcome s) = none ↔ _
  -- The reason is read off the result, and only a failure gives one.
  cases action.outcome s <;> simp [failureOf]

/-- A stage performs the commands that its action runs. -/
theorem performs_of_runs (stage : Stage) {commands : List Command} (runs : action.Runs commands)
    (s : Session) :
    s.Leads (of stage action s).calls (action.after s) ∧
      (of stage action s).Performs commands (of stage action s).calls := by
  -- What the action runs are the calls between the two sessions of the visit.
  obtain ⟨calls, led, made, all⟩ := runs s
  rw [calls_of led]
  refine ⟨led, made, fun passed => ?_⟩
  -- A passed stage has a value, and then all commands were run.
  obtain ⟨value, passed⟩ := failure_of_eq_none.mp passed
  exact all value passed

end Visit

namespace Bench

open DialectBench.Action

/-- Making a directory of a run is quiet. -/
theorem quiet_prepareDirectory (bench : Bench) (path : Path) :
    (bench.prepareDirectory path).Quiet := by
  unfold prepareDirectory
  -- A rehearsal only tells of the directory.
  split
  · exact Quiet.tell _
  · exact Action.quiet_prepareDirectory path

/-- Making the directories of a run is quiet. -/
theorem quiet_prepareDirectories (bench : Bench) (paths : List Path) :
    (bench.prepareDirectories paths).Quiet := by
  induction paths with
  | nil => exact Quiet.pure ()
  | cons path paths ih => exact (bench.quiet_prepareDirectory path).bind fun _ => ih

/-- Removing a tree of a run is quiet. -/
theorem quiet_deleteTree (bench : Bench) (path : Path) : (bench.deleteTree path).Quiet := by
  unfold deleteTree
  split
  · exact Quiet.tell _
  · exact (quiet_removeIfPresent path).bind fun _ => Quiet.pure ()

/-- Collecting the results of a target is quiet. -/
theorem quiet_gatherResults (bench : Bench) (target : Target) (execution : FinishedTests) :
    (bench.gatherResults target execution).Quiet := by
  unfold gatherResults
  -- A rehearsal only tells where the results would go.
  split
  · exact (Quiet.tell _).bind fun _ => Quiet.pure _
  · exact Collection.quiet_collect _

/-- Summarizing the collection of a target is quiet. -/
theorem quiet_summarizeResults (bench : Bench) (target : Target) (collection : Path)
    (stamp : String) : (bench.summarizeResults target collection stamp).Quiet := by
  unfold summarizeResults
  split
  · exact (Quiet.tell _).bind fun _ => Quiet.pure _
  · exact (Summary.quiet_summarize _).bind fun _ => (quiet_printLines _).bind fun _ => Quiet.pure _

/-- Telling how a command ended is quiet. -/
theorem quiet_describeEnding (ending : Ending) : (describeEnding ending).Quiet := by
  unfold describeEnding
  split
  · exact Quiet.pure ()
  · split <;> exact quiet_warn _

/-- Telling how a command ended always succeeds. -/
@[simp] theorem outcome_describeEnding (ending : Ending) (s : Session) :
    (describeEnding ending).outcome s = .ok () := by
  unfold describeEnding
  -- There is something to tell only of a failure, and telling never fails.
  split
  · rfl
  · split <;> rfl

/-- Removing a container is one call, whatever comes of it. -/
theorem leads_dropContainer (bench : Bench) (container : String) (s : Session) :
    ∃ exchange, s.Leads [exchange] ((bench.dropContainer container).after s) ∧
      exchange.call = .run (removeCommand container) := by
  -- The removal is the call, and what follows only warns.
  obtain ⟨exchange, led, call, -⟩ := leads_run bench.runner (removeCommand container) s
  refine ⟨exchange, leads_bind_quiet (by simpa using led) fun result => ?_, call⟩
  cases result with
  | error failure => exact quiet_warn _
  | ok output =>
    dsimp only
    split
    · exact Quiet.pure ()
    · exact quiet_warn _

/-- Removing a container never fails. -/
@[simp] theorem outcome_dropContainer (bench : Bench) (container : String) (s : Session) :
    (bench.dropContainer container).outcome s = .ok () := by
  unfold dropContainer
  -- A removal that fails is told, and a failure to launch it as well.
  cases removed : (run bench.runner (removeCommand container)).outcome s with
  | error failure => simp [removed]
  | ok output => by_cases success : output.succeeded = true <;> simp [removed, success]

variable (bench : Bench) (target : Target) (s : Session)

/-- Cleaning the caches runs its commands. -/
theorem runs_clearCaches : bench.clearCaches.Runs bench.cleanCommands := by
  unfold clearCaches cleanCommands
  -- Skipping the cleaning is told, and runs nothing.
  split
  · exact (quiet_warn _).runs
  -- The cache of the build goes only after the command succeeded.
  · exact (runs_runToSuccess _ _).bind fun _ => (bench.quiet_deleteTree _).runs

/-- Patching the workspace runs its commands. -/
theorem runs_adaptWorkspace : bench.adaptWorkspace.Runs bench.patchCommands := by
  unfold adaptWorkspace patchCommands
  -- Skipping the patch is told, and runs nothing.
  split
  · exact (quiet_warn _).runs
  · exact (runs_runToSuccess _ _).bind fun _ => (Quiet.pure ()).runs

/-- Patching the configuration runs one command. -/
theorem runs_setPreset (preset : String) :
    (bench.setPreset preset).Runs [bench.presetCommand preset] :=
  (runs_runToSuccess _ _).bind fun _ => (Quiet.pure ()).runs

/-- Checking the dialect of a target is quiet. -/
theorem quiet_checkDialect : (bench.checkDialect target).Quiet :=
  (quiet_look _).bind fun _ => (quiet_ofExcept _).bind fun _ => Quiet.pure ()

/-- Cleaning the caches is at most one call. -/
theorem fits_clearCaches : (Visit.of .clearCaches bench.clearCaches s).Fits bench target :=
  have performs := Visit.performs_of_runs .clearCaches bench.runs_clearCaches s
  ⟨performs.1, performs.2⟩

/-- Patching the configuration is a call for the preset of the target. -/
theorem fits_setPreset {preset : String} (own : target.preset = some preset) :
    (Visit.of .setPreset (bench.setPreset preset) s).Fits bench target := by
  have performs := Visit.performs_of_runs .setPreset (bench.runs_setPreset preset) s
  refine ⟨performs.1, ?_⟩
  show Visit.Performs _ (target.preset.toList.map _) _
  -- The command is the one for the preset that the target has.
  rw [own]
  exact performs.2

/-- Checking the dialect makes no call and looks at the configuration as it is. -/
theorem fits_checkDialect :
    (Visit.of .checkDialect (bench.checkDialect target) s).Fits bench target := by
  have quiet := bench.quiet_checkDialect target
  refine ⟨Visit.leads_of (quiet.leads s), Visit.calls_of (quiet.leads s), ?_, ?_⟩
  -- Looking and deciding leave the session alone.
  · show (bench.checkDialect target).after s = s
    unfold checkDialect
    cases checked : Dialect.checked s.scene.disk bench.lab.workspace target.backend <;>
      simp [checked]
  -- The stage fails for the reason for which the check does.
  · show failureOf ((bench.checkDialect target).outcome s) = failureOf _
    unfold checkDialect
    cases checked : Dialect.checked s.scene.disk bench.lab.workspace target.backend <;>
      simp [checked, Visit.of, failureOf, Except.map]

/-- Making sure that containers can be started runs one command. -/
theorem runs_prepareRun : bench.prepareRun.Runs [infoCommand] := by
  -- Making the directories comes first, and calls nothing.
  refine (bench.quiet_prepareDirectories _).runs.bind fun _ =>
    Runs.within_bind (runs_run_bind _ _ (fun output => ?_) ?_) _
  · split
    · exact Quiet.pure ()
    · exact Quiet.throw _
  · intro output s value passed
    -- A service that does not answer with success is refused.
    cases success : output.succeeded with
    | true => rfl
    | false =>
      rw [success] at passed
      cases passed

/-- The part of starting a database that follows the removal of a leftover container. -/
theorem runs_afterRemoval :
    (Action.within (.scriptFailed target.backend.name)
        (Action.runToSuccess bench.runner (bench.startCommand target)) >>= fun _ =>
      Action.run bench.runner (inspectCommand target) >>= fun inspected =>
        if inspected.succeeded then pure () else Action.refuse (.containerDown target.container)
      ).Runs [bench.startCommand target, inspectCommand target] := by
  -- The step that names a failure of the script does not change what is run.
  refine Runs.within_bind ((runs_runToSuccess _ _).bind fun _ =>
    runs_run_bind _ _ (fun output => ?_) ?_) _
  · split
    · exact Quiet.pure ()
    · exact Quiet.throw _
  · intro output s value passed
    -- A container that is not there is refused.
    cases success : output.succeeded with
    | true => rfl
    | false =>
      rw [success] at passed
      cases passed

/-- Starting a database is a removal first, and then as much of the rest as succeeds. -/
theorem fits_startDatabase :
    (Visit.of .startDatabase (bench.startDatabase target) s).Fits bench target := by
  obtain ⟨removal, cleared, removes, -, found⟩ :=
    leads_run bench.runner (removeCommand target.container) s
  -- The removal need not succeed, but it must be launched.
  cases removed : (run bench.runner (removeCommand target.container)).outcome s with
  -- Nothing else is run when the removal cannot be launched.
  | error failure =>
    have led : s.Leads [removal] ((bench.startDatabase target).after s) := by
      rw [startDatabase, after_bind_of_error removed]
      exact cleared
    refine ⟨Visit.leads_of led, removal, [], Visit.calls_of led, removes, found, by simp, ?_⟩
    intro passed
    obtain ⟨value, passed⟩ := Visit.failure_of_eq_none.mp passed
    rw [startDatabase, outcome_bind_of_error removed] at passed
    cases passed
  -- After a removal that was launched the script and the question follow.
  | ok output =>
    obtain ⟨rest, goes, made, all⟩ := bench.runs_afterRemoval target
      ((run bench.runner (removeCommand target.container)).after s)
    have led : s.Leads (removal :: rest) ((bench.startDatabase target).after s) := by
      rw [startDatabase, after_bind_of_ok removed]
      exact cleared.trans goes
    refine ⟨Visit.leads_of led, removal, rest, Visit.calls_of led, removes, found, made, ?_⟩
    intro passed
    obtain ⟨value, passed⟩ := Visit.failure_of_eq_none.mp passed
    rw [startDatabase, outcome_bind_of_ok removed] at passed
    exact all value passed

/-- Watches the tests of a target in a run with a stamp. -/
def watchTests (bench : Bench) (target : Target) (stamp : String) : Action Ending :=
  Action.stream bench.runner (bench.testCommand target) (target.logPath bench.lab.logs stamp)
    bench.options.timing

/-- What is left to do for the tests once their container is out of the way. -/
def concludeTests (stamp : String) (log : Path) (result : Except Failure Ending) :
    Action FinishedTests := do
  let ending ← Action.ofExcept result
  Action.stopIfAsked
  describeEnding ending
  return { stamp, log, exitCode := ending.exitCode }

/-- What is left to do for the tests is quiet. -/
theorem quiet_concludeTests (stamp : String) (log : Path) (result : Except Failure Ending) :
    (concludeTests stamp log result).Quiet :=
  (quiet_ofExcept _).bind fun ending => Quiet.stopIfAsked.bind fun _ =>
    (quiet_describeEnding ending).bind fun _ => Quiet.pure _

/-- The tests count only if their command has ended and nobody asked to stop. -/
theorem outcome_concludeTests (stamp : String) (log : Path) (result : Except Failure Ending)
    (s : Session) :
    (concludeTests stamp log result).outcome s =
      match result with
      | .error failure => .error failure
      | .ok ending =>
        if s.scene.interrupted then .error .interruption
        else .ok { stamp, log, exitCode := ending.exitCode } := by
  unfold concludeTests
  -- A failure to watch comes before a request to stop.
  cases result with
  | error failure => simp
  | ok ending => cases asked : s.scene.interrupted <;> simp [asked, Except.map]

/-- The tests of a target are watched, their container is removed if it may still be there, and
only then their end is looked at. -/
theorem launchTests_eq :
    bench.launchTests target = Action.stamp >>= fun stamp =>
      Action.attempt (bench.watchTests target stamp) >>= fun result =>
      (if isStranded result then bench.dropContainer target.testContainer else pure ()) >>= fun _ =>
      concludeTests stamp (target.logPath bench.lab.logs stamp) result := by
  unfold launchTests concludeTests
  refine bind_congr fun stamp => bind_congr fun result => ?_
  -- The removal is the branch of a condition, and everything else stays in its place.
  cases isStranded result <;> simp

/-- A container is removed on a condition, and that never fails. -/
theorem leads_dropContainer_if (condition : Prop) [Decidable condition] (container : String) :
    let action := if condition then bench.dropContainer container else pure ()
    action.outcome s = .ok () ∧ ∃ calls, s.Leads calls (action.after s) ∧
      calls.map Exchange.call = if condition then [.run (removeCommand container)] else [] := by
  -- Either there is one call, or the session is left alone.
  by_cases holds : condition
  · obtain ⟨removal, led, removes⟩ := bench.leads_dropContainer container s
    simp only [if_pos holds]
    exact ⟨bench.outcome_dropContainer container s, [removal], led, by simp [removes]⟩
  · simp only [if_neg holds]
    exact ⟨rfl, [], .refl s, rfl⟩

/-- Running the tests of a target is a call that is watched, and its end decides about the rest. -/
theorem leads_launchTests :
    ∃ stream rest, s.Leads (stream :: rest) ((bench.launchTests target).after s) ∧
      stream.before = s.scene ∧
      stream.call = .stream (bench.testCommand target)
        (target.logPath bench.lab.logs s.scene.moment.stamp) bench.options.timing.idle ∧
      stream.reply = .ending ((bench.watchTests target s.scene.moment.stamp).outcome s) ∧
      rest.map Exchange.call =
        (if isStranded ((bench.watchTests target s.scene.moment.stamp).outcome s) then
          [.run (removeCommand target.testContainer)] else []) ∧
      (bench.launchTests target).outcome s =
        match (bench.watchTests target s.scene.moment.stamp).outcome s with
        | .error failure => .error failure
        | .ok ending =>
          if ((bench.launchTests target).after s).scene.interrupted then .error .interruption
          else .ok { stamp := s.scene.moment.stamp,
                     log := target.logPath bench.lab.logs s.scene.moment.stamp,
                     exitCode := ending.exitCode } := by
  -- The ending is fixed first, since the removal and the outcome both depend on it.
  let result := (bench.watchTests target s.scene.moment.stamp).outcome s
  obtain ⟨stream, watched, call, reply, here⟩ := leads_stream bench.runner
    (bench.testCommand target) (target.logPath bench.lab.logs s.scene.moment.stamp) bench.options.timing s
  obtain ⟨dropped, rest, gone, removes⟩ := bench.leads_dropContainer_if
    ((bench.watchTests target s.scene.moment.stamp).after s) (isStranded result = true)
    target.testContainer
  have concluded := quiet_concludeTests s.scene.moment.stamp
    (target.logPath bench.lab.logs s.scene.moment.stamp) result
  refine ⟨stream, rest, ?_, here, call, reply, removes, ?_⟩
  -- The watched call, the removal and the quiet rest follow one another.
  · rw [launchTests_eq, after_bind_of_ok (outcome_stamp s), after_stamp,
      after_bind_of_ok (outcome_attempt _ s), after_attempt, after_bind_of_ok dropped]
    simpa using (watched.trans gone).trans (concluded.leads _)
  · -- What is left to do finds the request to stop as the calls have left it.
    have kept := (concluded.leads ((if isStranded result = true then
      bench.dropContainer target.testContainer else pure ()).after
        ((bench.watchTests target s.scene.moment.stamp).after s))).interrupted_eq
    rw [launchTests_eq, outcome_bind_of_ok (outcome_stamp s), after_stamp,
      outcome_bind_of_ok (outcome_attempt _ s), after_attempt, outcome_bind_of_ok dropped,
      outcome_concludeTests, after_bind_of_ok (outcome_stamp s), after_stamp,
      after_bind_of_ok (outcome_attempt _ s), after_attempt, after_bind_of_ok dropped, kept]

/-- The tests of a target are watched, and their container is removed if it may still be there. -/
theorem fits_launchTests :
    (Visit.of .launchTests (bench.launchTests target) s).Fits bench target := by
  obtain ⟨stream, rest, led, -, call, reply, removes, decides⟩ := bench.leads_launchTests target s
  refine ⟨Visit.leads_of led, stream, _, rest, Visit.calls_of led, call, reply, removes, ?_⟩
  show failureOf ((bench.launchTests target).outcome s) = _
  rw [decides]
  -- A failure to watch is the failure of the stage, whoever asked to stop.
  cases (bench.watchTests target s.scene.moment.stamp).outcome s with
  | error failure => rfl
  | ok ending =>
    cases asked : ((bench.launchTests target).after s).scene.interrupted <;>
      simp [Visit.of, asked, failureOf]

/-- Collecting the results of a target makes no call. -/
theorem fits_collect (execution : FinishedTests) :
    (Visit.of .collect (bench.gatherResults target execution) s).Fits bench target :=
  have quiet := bench.quiet_gatherResults target execution
  ⟨Visit.leads_of (quiet.leads s), Visit.calls_of (quiet.leads s)⟩

/-- Summarizing the collection of a target makes no call. -/
theorem fits_summarize (collection : Path) (stamp : String) :
    (Visit.of .summarize (bench.summarizeResults target collection stamp) s).Fits bench target :=
  have quiet := bench.quiet_summarizeResults target collection stamp
  ⟨Visit.leads_of (quiet.leads s), Visit.calls_of (quiet.leads s)⟩

end Bench

end DialectBench

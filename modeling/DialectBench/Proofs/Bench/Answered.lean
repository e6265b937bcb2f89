import DialectBench.Proofs.Bench.Journey

/-! Every call of a comparison is answered by its runner, from the world in which it is made. -/

namespace DialectBench

/-- Whatever a runner answers is right, whenever it is called. -/
structure Runner.Answers (runner : Runner) (right : Exchange → Prop) : Prop where
  /-- Commands that are run are answered rightly. -/
  run : ∀ command (s : Session),
    right ⟨.run command, .output (runner.run s.calls command s.scene).outcome, s.scene,
      Action.settled (runner.run s.calls command s.scene) s⟩
  /-- Commands that are watched are answered rightly. -/
  stream : ∀ command log (timing : Watching.Timing) (s : Session),
    right ⟨.stream command log timing.idle,
      .ending (runner.stream s.calls command log timing s.scene).outcome, s.scene,
      Action.settled (runner.stream s.calls command log timing s.scene) s⟩

namespace Action

variable {α β : Type} {right : Exchange → Prop} {action : Action α} {next : α → Action β}
  {runner : Runner}

/-- All calls of an action are answered rightly. -/
def Answered (right : Exchange → Prop) (action : Action α) : Prop :=
  ∀ s : Session, ∃ calls, s.Leads calls (action.after s) ∧ ∀ exchange ∈ calls, right exchange

namespace Answered

/-- The calls are those of the trace. -/
theorem trace (answered : action.Answered right) (s : Session) :
    ∀ exchange ∈ action.trace s, right exchange := by
  obtain ⟨calls, led, all⟩ := answered s
  rwa [Action.trace, led.since_eq]

/-- Quiet work calls nothing. -/
theorem of_quiet (quiet : action.Quiet) : action.Answered right :=
  fun s => ⟨[], quiet.leads s, by simp⟩

/-- A command that is run is answered by the runner. -/
theorem run (answers : runner.Answers right) (command : Command) :
    (Action.run runner command).Answered right := by
  intro s
  refine ⟨_, ?_, List.forall_mem_singleton.mpr (answers.run command s)⟩
  rw [after_run]
  exact ⟨rfl, rfl, fun asked => by simp [settled, asked], rfl⟩

/-- A command that is watched is answered by the runner. -/
theorem stream (answers : runner.Answers right) (command : Command) (log : Path)
    (timing : Watching.Timing) : (Action.stream runner command log timing).Answered right := by
  intro s
  refine ⟨_, ?_, List.forall_mem_singleton.mpr (answers.stream command log timing s)⟩
  rw [after_stream]
  exact ⟨rfl, rfl, fun asked => by simp [settled, asked], rfl⟩

/-- The calls of two actions in turn are those of the one and of the other. -/
theorem bind (first : action.Answered right) (second : ∀ value, (next value).Answered right) :
    (action >>= next).Answered right := by
  intro s
  obtain ⟨calls, led, all⟩ := first s
  rw [after_bind]
  cases action.outcome s with
  | error failure => exact ⟨calls, led, all⟩
  | ok value =>
    obtain ⟨more, onward, others⟩ := second value (action.after s)
    exact ⟨calls ++ more, led.trans onward, List.forall_mem_append.mpr ⟨all, others⟩⟩

/-- An attempt makes the calls of the action. -/
theorem attempt (answered : action.Answered right) : (Action.attempt action).Answered right :=
  fun s => by
    rw [after_attempt]
    exact answered s

/-- A step around an action makes the calls of the action. -/
theorem within (answered : action.Answered right) (step : Fault) :
    (Action.within step action).Answered right := fun s => by
  rw [after_within]
  exact answered s

/-- A command that must succeed is answered by the runner. -/
theorem runToSuccess (answers : runner.Answers right) (command : Command) :
    (Action.runToSuccess runner command).Answered right :=
  (run answers command).bind fun _ => of_quiet ((quiet_ofExcept _).bind fun _ => .pure _)

end Answered

end Action

namespace Bench

open Action

variable {bench : Bench} {right : Exchange → Prop} (answers : bench.runner.Answers right)
include answers

/-- The opening asks whether the container tool works. -/
theorem answered_prepareRun : bench.prepareRun.Answered right := by
  refine (Answered.of_quiet (bench.quiet_prepareDirectories _)).bind fun _ =>
    ((Answered.run answers _).within _).bind fun output => .of_quiet ?_
  split
  · exact .pure ()
  · exact .throw _

/-- Cleaning the caches calls the build. -/
theorem answered_clearCaches : bench.clearCaches.Answered right := by
  unfold clearCaches
  split
  · exact .of_quiet (quiet_warn _)
  · exact (Answered.runToSuccess answers _).bind fun _ => .of_quiet (bench.quiet_deleteTree _)

/-- Patching the workspace calls a script. -/
theorem answered_adaptWorkspace : bench.adaptWorkspace.Answered right := by
  unfold adaptWorkspace
  split
  · exact .of_quiet (quiet_warn _)
  · exact (Answered.runToSuccess answers _).bind fun _ => .of_quiet (.pure ())

/-- Starting a database calls the container tool and a script. -/
theorem answered_startDatabase (target : Target) : (bench.startDatabase target).Answered right := by
  refine (Answered.run answers _).bind fun _ => ((Answered.runToSuccess answers _).within _).bind
    fun _ => (Answered.run answers _).bind fun inspected => .of_quiet ?_
  split
  · exact .pure ()
  · exact .throw _

/-- Removing a container calls the container tool. -/
theorem answered_dropContainer (container : String) :
    (bench.dropContainer container).Answered right := by
  refine (Answered.run answers _).attempt.bind fun result => .of_quiet ?_
  cases result with
  | error failure => exact quiet_warn _
  | ok output =>
    dsimp only
    split
    · exact .pure ()
    · exact quiet_warn _

/-- Running the tests calls the container tool. -/
theorem answered_launchTests (target : Target) : (bench.launchTests target).Answered right := by
  refine (Answered.of_quiet .stamp).bind fun stamp =>
    (Answered.stream answers _ _ _).attempt.bind fun outcome => ?_
  have told (ending : Ending) : (describeEnding ending).Quiet := by
    unfold describeEnding
    split
    · exact .pure ()
    · split <;> exact quiet_warn _
  have rest : (ofExcept outcome >>= fun ending => stopIfAsked >>= fun _ =>
      describeEnding ending >>= fun _ =>
      (pure ⟨stamp, target.logPath bench.lab.logs stamp, ending.exitCode⟩ :
        Action FinishedTests)).Quiet :=
    (quiet_ofExcept _).bind fun ending => Quiet.stopIfAsked.bind fun _ =>
      (told ending).bind fun _ => .pure _
  -- The container of the tests is removed first if it may still be there.
  dsimp only
  split
  · exact (answered_dropContainer answers _).bind fun _ => .of_quiet rest
  · exact (Answered.of_quiet (.pure ())).bind fun _ => .of_quiet rest

omit answers in
/-- A stage makes the calls of its action and of the stages behind it. -/
theorem answered_stage {α : Type} {name : Stage} {action : Action α} {next : α → Action TargetFate}
    (first : action.Answered right) (others : ∀ value, (next value).Answered right) :
    (stage name action next).Answered right := by
  refine first.attempt.bind fun result => ?_
  cases Progress.ofResult result with
  | done value => exact others value
  | failed reason => exact .of_quiet (.pure _)
  | fatal failure => exact .of_quiet (.throw _)

/-- The stages behind the check call for the database and for the tests. -/
theorem answered_withBackend (target : Target) : (bench.withBackend target).Answered right := by
  refine Answered.bind ?_ fun _ => (answered_dropContainer answers _).bind
    fun _ => .of_quiet (quiet_ofExcept _)
  exact (answered_stage (answered_startDatabase answers target) fun _ =>
    answered_stage (answered_launchTests answers target) fun execution =>
    answered_stage (.of_quiet (bench.quiet_gatherResults target execution)) fun collection =>
    answered_stage (.of_quiet (bench.quiet_summarizeResults target collection execution.stamp))
      fun _ => .of_quiet (.pure _)).attempt

/-- The stages of a target call what each of them calls. -/
theorem answered_drive (target : Target) : (bench.drive target).Answered right := by
  have checked : (stage .checkDialect (bench.checkDialect target) fun _ =>
      bench.withBackend target).Answered right :=
    answered_stage (.of_quiet (bench.quiet_checkDialect target)) fun _ =>
      answered_withBackend answers target
  refine answered_stage (answered_clearCaches answers) fun _ => ?_
  unfold presetStage
  split
  · exact answered_stage ((Answered.runToSuccess answers _).bind fun _ => .of_quiet (.pure ()))
      fun _ => checked
  · exact checked

/-- Trying a target calls what its stages call. -/
theorem answered_tryTarget (target : Target) (follows : Bool) :
    (bench.tryTarget target follows).Answered right := by
  rw [tryTarget_eq]
  refine (Answered.of_quiet .stopIfAsked).bind fun _ => (answered_drive answers target).bind
    fun _ => .of_quiet (Quiet.bind ?_ fun _ => .pure _)
  split
  · exact bench.quiet_cleanResults
  · exact .pure ()

/-- Targets that are tried in turn call what each of them calls. -/
theorem answered_tryTargets (targets : List Target) :
    (bench.tryTargets targets).Answered right := by
  induction targets with
  | nil => exact .of_quiet (.pure _)
  | cons target targets ih =>
    exact (answered_tryTarget answers target _).bind fun _ => ih.bind fun _ => .of_quiet (.pure _)

/-- The TiDB targets are tried behind the patch of the workspace. -/
theorem answered_tryVariants : bench.tryVariants.Answered right := by
  refine (answered_adaptWorkspace answers).attempt.bind fun result => ?_
  cases Progress.ofResult result with
  | done value => exact answered_tryTargets answers _
  | failed reason => exact .of_quiet ((quiet_warn _).bind fun _ => .pure _)
  | fatal failure => exact .of_quiet (.throw _)

/-- Trying all targets calls what each of them calls. -/
theorem answered_tryAll : bench.tryAll.Answered right := by
  have first : bench.tryBaseline.Answered right := by
    unfold tryBaseline
    split
    · exact .of_quiet (.pure _)
    · exact (answered_tryTarget answers _ _).bind fun _ => .of_quiet (.pure _)
  unfold tryAll
  split
  · exact .of_quiet (.pure _)
  · refine first.bind fun _ => ?_
    split
    · exact .of_quiet (.pure _)
    · exact (answered_tryVariants answers).bind fun _ => .of_quiet (.pure _)

/-- Every call of a comparison is answered by its runner. -/
theorem answered_execute : bench.execute.Answered right :=
  (answered_prepareRun answers).bind fun _ => (answered_tryAll answers).bind fun targets =>
    .of_quiet (bench.quiet_concludeReport targets)

end Bench

end DialectBench

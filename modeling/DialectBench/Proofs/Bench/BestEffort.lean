import DialectBench.Proofs.Bench.Journey
import DialectBench.Proofs.Session.Agreement

/-! Containers are removed as far as possible once a database was to be started: what comes of such a
removal makes no difference. -/

namespace DialectBench

/-- A call that is made for a target once its database is to be started. -/
inductive Call.ServesTarget : Call → Prop where
  /-- A container is removed. -/
  | removal (container : String) : ServesTarget (.run (Bench.removeCommand container))
  /-- The script that starts databases is run. -/
  | start (bench : Bench) (target : Target) : ServesTarget (.run (bench.startCommand target))
  /-- The new container is asked for. -/
  | inspection (target : Target) : ServesTarget (.run (Bench.inspectCommand target))
  /-- A command is watched. -/
  | tests (command : Command) (log : Path) (idle : Nat) : ServesTarget (.stream command log idle)

/-- A call removes a container as far as possible: it is a removal, and the newest call before it was
made for the same target, so it is not the removal with which the start of a database begins. -/
def IsBestEffort (calls : List Call) (call : Call) : Prop :=
  (∃ container, call = .run (Bench.removeCommand container)) ∧
    ∃ newest, calls.head? = some newest ∧ newest.ServesTarget

/-- No call was made for a target last. -/
def IsFresh (calls : List Call) : Prop :=
  ∀ newest, calls.head? = some newest → ¬ newest.ServesTarget

/-- Right behind a command that is not made for a target the calls are fresh. -/
theorem isFresh_of_head {calls : List Call} {command : Command}
    (newest : calls.head? = some (.run command)) (other : ¬ (Call.run command).ServesTarget) :
    IsFresh calls := by
  intro call head
  rw [newest] at head
  exact Option.some.inj head ▸ other

/-- From fresh calls no removal is a best effort. -/
theorem IsFresh.counts {calls : List Call} (fresh : IsFresh calls) (call : Call) :
    ¬ IsBestEffort calls call := by
  rintro ⟨-, newest, head, serves⟩
  exact fresh newest head serves

/-- A command other than a removal is no best effort. -/
theorem counts_of_ne {command : Command} (other : ∀ container, command ≠ Bench.removeCommand container)
    (calls : List Call) : ¬ IsBestEffort calls (.run command) := by
  rintro ⟨⟨container, same⟩, -⟩
  exact other container (Call.run.inj same)

/-- A command that is watched is no best effort. -/
theorem counts_stream (command : Command) (log : Path) (idle : Nat) (calls : List Call) :
    ¬ IsBestEffort calls (.stream command log idle) := by
  rintro ⟨⟨container, same⟩, -⟩
  cases same

namespace Bench

/-- A command that neither is one of the container tool nor starts a database serves no target. -/
theorem not_servesTarget {command : Command} (script : command.program ≠ "./docker_db.sh")
    (keeps : command.program = docker →
      command.arguments.head? ≠ some "rm" ∧ command.arguments.head? ≠ some "container") :
    ¬ (Call.run command).ServesTarget := by
  intro serves
  -- A call for a target is a removal, the script or the question.
  generalize call : Call.run command = other at serves
  cases serves with
  | removal container =>
    obtain rfl := Call.run.inj call
    exact (keeps rfl).1 rfl
  | start bench target =>
    obtain rfl := Call.run.inj call
    exact script rfl
  | inspection target =>
    obtain rfl := Call.run.inj call
    exact (keeps rfl).2 rfl
  | tests => cases call

variable (bench : Bench)

/-- Asking for the container service serves no target. -/
theorem info_not_servesTarget : ¬ (Call.run infoCommand).ServesTarget :=
  not_servesTarget (by decide) (by decide)

/-- Cleaning the caches serves no target. -/
theorem clean_not_servesTarget (workspace : Path) (image : String) :
    ¬ (Call.run (cleanCommand workspace image)).ServesTarget :=
  not_servesTarget (by simp [cleanCommand, docker]) (by simp [cleanCommand])

/-- Patching the configuration serves no target. -/
theorem preset_not_servesTarget (preset : String) :
    ¬ (Call.run (bench.presetCommand preset)).ServesTarget :=
  not_servesTarget (by simp [presetCommand, scriptCommand])
    (by simp [presetCommand, scriptCommand, docker])

/-- A command whose first word is not that of a removal is none. -/
theorem ne_removeCommand {command : Command}
    (keeps : command.program = docker → command.arguments.head? ≠ some "rm") (container : String) :
    command ≠ removeCommand container := by
  rintro rfl
  exact keeps rfl rfl

end Bench

namespace Bench

open DialectBench.Action

/-- A comparison with another runner. -/
def under (bench : Bench) (runner : Runner) : Bench := { bench with runner }

section Under

variable {bench : Bench} {other : Runner}
  (agrees : bench.runner.Agrees other IsBestEffort)

/-- Making directories has nothing to do with the runner. -/
theorem prepareDirectories_under (bench : Bench) (other : Runner) (paths : List Path) :
    (bench.under other).prepareDirectories paths = bench.prepareDirectories paths := by
  induction paths with
  | nil => rfl
  | cons path paths ih => rw [prepareDirectories, prepareDirectories, ih]; rfl

include agrees

/-- The opening of a comparison ends with fresh calls. -/
theorem matches_prepareRun :
    Matches anyCalls bench.prepareRun (bench.under other).prepareRun IsFresh := by
  unfold prepareRun
  rw [prepareDirectories_under]
  -- The service is asked for last, and that serves no target.
  refine ((bench.quiet_prepareDirectories _).matches anyCalls).bind fun _ =>
    ((matches_run agrees infoCommand fun calls _ => counts_of_ne (ne_removeCommand ?_) calls).within
      .dockerMissing).bind fun output => ?_
  · decide
  · refine Matches.weaken (Quiet.matches ?_ IsFresh)
      (fun calls newest => isFresh_of_head newest info_not_servesTarget) fun _ fresh => fresh
    split
    · exact Quiet.pure ()
    · exact Quiet.throw _

/-- Cleaning the caches keeps what holds of calls, if it also holds behind the call that it makes. -/
theorem matches_clearCaches {holds : List Call → Prop}
    (cleaned : ∀ calls, calls.head? =
      some (.run (cleanCommand bench.lab.workspace bench.lab.runnerImage)) → holds calls) :
    Matches holds bench.clearCaches (bench.under other).clearCaches holds := by
  unfold clearCaches
  refine Matches.ite (fun _ => (quiet_warn _).matches holds) fun _ => ?_
  refine (matches_runToSuccess agrees _ fun calls _ =>
    counts_of_ne (ne_removeCommand ?_) calls).bind fun _ => ?_
  · simp [cleanCommand]
  · exact (Quiet.matches (bench.quiet_deleteTree _) holds).weaken cleaned fun _ held => held

/-- Patching the configuration ends with fresh calls. -/
theorem matches_setPreset (preset : String) :
    Matches anyCalls (bench.setPreset preset) ((bench.under other).setPreset preset) IsFresh := by
  refine (matches_runToSuccess agrees _ fun calls _ =>
    counts_of_ne (ne_removeCommand ?_) calls).bind fun _ => ?_
  · simp [presetCommand, scriptCommand, docker]
  · exact ((Quiet.pure ()).matches IsFresh).weaken
      (fun calls newest => isFresh_of_head newest (bench.preset_not_servesTarget preset))
      fun _ fresh => fresh

/-- Patching the workspace matches. -/
theorem matches_adaptWorkspace :
    Matches anyCalls bench.adaptWorkspace (bench.under other).adaptWorkspace anyCalls := by
  unfold adaptWorkspace
  refine Matches.ite (fun _ => (quiet_warn _).matches anyCalls) fun _ => ?_
  refine (matches_runToSuccess agrees _ fun calls _ =>
    counts_of_ne (ne_removeCommand ?_) calls).bind fun _ =>
      ((Quiet.pure ()).matches anyCalls).weaken (fun _ _ => trivial) fun _ _ => trivial
  simp [patchCommand, scriptCommand, docker]

/-- From fresh calls the start of a database matches: the removal it begins with is no best effort. -/
theorem matches_startDatabase (target : Target) :
    Matches IsFresh (bench.startDatabase target) ((bench.under other).startDatabase target)
      anyCalls := by
  refine (matches_run agrees _ fun calls fresh => fresh.counts _).bind fun _ => ?_
  -- The script is another command than the removal, and so is the question that follows.
  refine ((matches_runToSuccess agrees _ fun calls _ =>
    counts_of_ne (ne_removeCommand ?_) calls).within _).bind fun _ => ?_
  · simp [startCommand, docker]
  refine (matches_run agrees _ fun calls _ =>
    counts_of_ne (ne_removeCommand ?_) calls).bind fun inspected => ?_
  · simp [inspectCommand]
  refine Matches.weaken (Quiet.matches ?_ anyCalls) (fun _ _ => trivial) fun _ _ => trivial
  split
  · exact Quiet.pure ()
  · exact Quiet.throw _

/-- Removing a container as far as possible matches, whatever its removal gives back. -/
theorem matches_dropContainer (container : String) :
    Matches anyCalls (bench.dropContainer container) ((bench.under other).dropContainer container)
      anyCalls := by
  -- The failure of the removal is only told, and that leaves the world and the calls alone.
  have settles : ∀ (one : Bench) (s : Session),
      ((one.dropContainer container).after s).Alike
        ((run one.runner (removeCommand container)).after s) := by
    intro one s
    unfold dropContainer
    rw [after_bind_of_ok (outcome_attempt _ s), after_attempt]
    cases (run one.runner (removeCommand container)).outcome s with
    | error failure => exact ⟨rfl, rfl⟩
    | ok output => cases success : output.succeeded <;> simp only [success] <;> exact ⟨rfl, rfl⟩
  intro s t alike _
  have same := alike_after_run agrees (removeCommand container) alike
  have first := settles bench s
  have second := settles (bench.under other) t
  rw [outcome_dropContainer, outcome_dropContainer]
  exact ⟨rfl, ⟨first.scene.trans (same.scene.trans second.scene.symm),
    first.calls.trans (same.calls.trans second.calls.symm)⟩, fun _ _ => trivial⟩

/-- Running the tests matches. -/
theorem matches_launchTests (target : Target) :
    Matches anyCalls (bench.launchTests target) ((bench.under other).launchTests target)
      anyCalls := by
  rw [launchTests_eq, launchTests_eq]
  refine (Quiet.stamp.matches anyCalls).bind fun stamp => ?_
  refine ((matches_stream agrees _ _ _ (counts_stream _ _ _)).attempt).bind fun result => ?_
  refine (Matches.ite (fun _ => matches_dropContainer agrees _) fun _ =>
    (Quiet.pure ()).matches anyCalls).bind fun _ => ?_
  exact (quiet_concludeTests _ _ _).matches anyCalls

omit agrees in
/-- A stage matches when its action does and what follows goes on from there. -/
theorem matches_stage {α : Type} {name : Stage} {one other : Action α}
    {next further : α → Action TargetFate} {before between : List Call → Prop}
    (first : Matches before one other between)
    (second : ∀ value, Matches between (next value) (further value) anyCalls) :
    Matches before (stage name one next) (stage name other further) anyCalls := by
  intro s t alike holds
  obtain ⟨same, after, passes⟩ := first s t alike holds
  -- A stage that fails decides alone, and one that is passed hands over.
  cases result : one.outcome s with
  | error failure =>
    have also : other.outcome t = .error failure := same ▸ result
    rw [outcome_stage_of_error result, outcome_stage_of_error also, after_stage_of_error result,
      after_stage_of_error also]
    exact ⟨rfl, after, fun _ _ => trivial⟩
  | ok value =>
    have also : other.outcome t = .ok value := same ▸ result
    rw [outcome_stage_of_ok result, outcome_stage_of_ok also, after_stage_of_ok result,
      after_stage_of_ok also]
    exact second value _ _ after (passes value result)

/-- From fresh calls the stages from the start of a database on match, with the removal of its
container in the end. -/
theorem matches_withBackend (target : Target) :
    Matches IsFresh (bench.withBackend target) ((bench.under other).withBackend target)
      anyCalls := by
  have stages : Matches IsFresh (bench.backendStages target)
      ((bench.under other).backendStages target) anyCalls := by
    -- Collecting and summarizing are quiet, and do not know of the runner.
    refine matches_stage (matches_startDatabase agrees target) fun _ =>
      matches_stage (matches_launchTests agrees target) fun execution =>
      matches_stage ((bench.quiet_gatherResults target execution).matches anyCalls)
        fun collection =>
      matches_stage ((bench.quiet_summarizeResults target collection execution.stamp).matches
        anyCalls) fun summary => (Quiet.pure _).matches anyCalls
  exact stages.attempt.bind fun result => (matches_dropContainer agrees _).bind fun _ =>
    (quiet_ofExcept result).matches anyCalls

/-- The stages of a target match. Without a preset they must begin from fresh calls, since nothing
else may be called before the start of its database. -/
theorem matches_drive (target : Target) :
    Matches (fun calls => target.preset = none → IsFresh calls) (bench.drive target)
      ((bench.under other).drive target) anyCalls := by
  have checks : Matches IsFresh
      (stage .checkDialect (bench.checkDialect target) fun _ => bench.withBackend target)
      (stage .checkDialect ((bench.under other).checkDialect target) fun _ =>
        (bench.under other).withBackend target) anyCalls :=
    matches_stage ((bench.quiet_checkDialect target).matches IsFresh)
      fun _ => matches_withBackend agrees target
  refine matches_stage (matches_clearCaches agrees fun calls newest _ =>
    isFresh_of_head newest (clean_not_servesTarget _ _)) fun _ => ?_
  unfold presetStage
  -- Setting a preset is a call of its own that serves no target, so behind it the calls are fresh.
  cases own : target.preset with
  | none => exact checks.weaken (fun _ fresh => fresh rfl) fun _ _ => trivial
  | some preset =>
    exact (matches_stage (matches_setPreset agrees preset) fun _ => checks).weaken
      (fun _ _ => trivial) fun _ _ => trivial

/-- A target that is tried matches. -/
theorem matches_tryTarget (target : Target) (follows : Bool) :
    Matches (fun calls => target.preset = none → IsFresh calls) (bench.tryTarget target follows)
      ((bench.under other).tryTarget target follows) anyCalls := by
  rw [tryTarget_eq, tryTarget_eq]
  refine (Quiet.stopIfAsked.matches _).bind fun _ => (matches_drive agrees target).bind fun status => ?_
  refine (Matches.ite (fun _ => (bench.quiet_cleanResults).matches anyCalls) fun _ =>
    (Quiet.pure ()).matches anyCalls).bind fun _ => (Quiet.pure _).matches anyCalls

/-- Targets with presets match when they are run in turn. -/
theorem matches_tryTargets {targets : List Target}
    (own : ∀ target ∈ targets, target.preset ≠ none) :
    Matches anyCalls (bench.tryTargets targets) ((bench.under other).tryTargets targets)
      anyCalls := by
  induction targets with
  | nil => exact (Quiet.pure []).matches anyCalls
  | cons target targets ih =>
    obtain ⟨mine, others⟩ := List.forall_mem_cons.mp own
    refine ((matches_tryTarget agrees target _).weaken (fun _ _ none => absurd none mine)
      fun _ _ => trivial).bind fun report => ?_
    exact (ih others).bind fun reports => (Quiet.pure _).matches anyCalls

/-- The patch of the workspace and the TiDB targets behind it match. -/
theorem matches_tryVariants :
    Matches anyCalls bench.tryVariants (bench.under other).tryVariants anyCalls := by
  refine (matches_adaptWorkspace agrees).attempt.bind fun result => ?_
  -- Only a patch that succeeded is followed by calls.
  cases Progress.ofResult result with
  | done value =>
    refine matches_tryTargets agrees fun target member => ?_
    obtain ⟨preset, own⟩ := preset_of_mem_variants member
    simp [own]
  | failed reason =>
    exact ((quiet_warn _).bind fun _ => Quiet.pure _).matches anyCalls
  | fatal failure => exact (Quiet.throw failure).matches anyCalls

/-- From fresh calls all targets match. -/
theorem matches_tryAll : Matches IsFresh bench.tryAll (bench.under other).tryAll anyCalls := by
  unfold tryAll
  refine Matches.ite (fun _ => ((Quiet.pure []).matches IsFresh).weaken (fun _ fresh => fresh)
    fun _ _ => trivial) fun _ => ?_
  have first : Matches IsFresh bench.tryBaseline (bench.under other).tryBaseline anyCalls := by
    unfold tryBaseline
    refine Matches.ite (fun _ => ((Quiet.pure []).matches IsFresh).weaken (fun _ fresh => fresh)
      fun _ _ => trivial) fun _ => ?_
    exact ((matches_tryTarget agrees _ _).weaken (fun _ fresh _ => fresh) fun _ _ => trivial).bind
      fun report => (Quiet.pure _).matches anyCalls
  refine first.bind fun reports => ?_
  refine Matches.ite (fun _ => (Quiet.pure _).matches anyCalls) fun _ => ?_
  exact (matches_tryVariants agrees).bind fun others => (Quiet.pure _).matches anyCalls

/-- What removals give back that are made as far as possible makes no difference to a comparison: the
same comes of it, the same calls are made, and it leaves the same world. -/
theorem execute_indifferent (s : Session) :
    bench.execute.outcome s = (bench.under other).execute.outcome s ∧
      (bench.execute.after s).Alike ((bench.under other).execute.after s) := by
  have whole : Matches anyCalls bench.execute (bench.under other).execute anyCalls :=
    (matches_prepareRun agrees).bind fun _ => (matches_tryAll agrees).bind fun targets =>
      (bench.quiet_concludeReport targets).matches anyCalls
  obtain ⟨outcome, after, -⟩ := whole s s (.refl s) trivial
  exact ⟨outcome, after⟩

end Under

end Bench

end DialectBench

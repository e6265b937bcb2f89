import DialectBench.Proofs.Bench.Journey
import DialectBench.Proofs.Session.Upkeep

/-! What a comparison upholds: what holds of the file tree at its start holds at every stage, as long as
the commands keep it. -/

namespace DialectBench

namespace Bench

open DialectBench.Action

variable {bench : Bench} {holds : Disk → Prop}

/-- The work of a comparison on files upholds what holds of the file tree. -/
structure Maintains (bench : Bench) (holds : Disk → Prop) : Prop where
  /-- Directories are made. -/
  prepares : ∀ path ∈ bench.lab.workingDirectories, (Action.prepareDirectory path).Upholds holds
  /-- The cache of the build is removed. -/
  clears : (removeIfPresent bench.lab.gradleCache).Upholds holds
  /-- Results are collected. -/
  gathers : ∀ target execution, (bench.gatherResults target execution).Upholds holds
  /-- Collections are summarized. -/
  summarizes : ∀ target collection stamp,
    (bench.summarizeResults target collection stamp).Upholds holds
  /-- The workspace is cleaned for the next target. -/
  sweeps : bench.cleanResults.Upholds holds

section Stages

/-- Removing a directory upholds what the removal upholds, and a rehearsal removes nothing. -/
theorem upholds_deleteTree {path : Path} (removes : (removeIfPresent path).Upholds holds) :
    (bench.deleteTree path).Upholds holds := by
  unfold deleteTree
  split
  · exact .tell _
  · exact removes.bind fun _ => .pure ()

/-- Cleaning the caches removes that of the build. -/
theorem upholds_clearCaches (clears : (removeIfPresent bench.lab.gradleCache).Upholds holds) :
    bench.clearCaches.Upholds holds := by
  unfold clearCaches
  split
  · exact .tell _
  · exact (Upholds.runToSuccess _ _).bind fun _ => upholds_deleteTree clears

/-- Patching the workspace only runs a command. -/
theorem upholds_adaptWorkspace : bench.adaptWorkspace.Upholds holds := by
  unfold adaptWorkspace
  split
  · exact .tell _
  · exact (Upholds.runToSuccess _ _).bind fun _ => .pure ()

/-- Patching the configuration only runs a command. -/
theorem upholds_setPreset (preset : String) : (bench.setPreset preset).Upholds holds :=
  (Upholds.runToSuccess _ _).bind fun _ => .pure ()

/-- Checking the configuration only reads it. -/
theorem upholds_checkDialect (target : Target) : (bench.checkDialect target).Upholds holds :=
  (Upholds.look _).bind fun _ => (Upholds.ofExcept _).bind fun _ => .pure ()

/-- Starting a database only runs commands. -/
theorem upholds_startDatabase (target : Target) : (bench.startDatabase target).Upholds holds := by
  refine (Upholds.run _ _).bind fun _ => ((Upholds.runToSuccess _ _).within _).bind fun _ =>
    (Upholds.run _ _).bind fun inspected => ?_
  split
  · exact .pure ()
  · exact .throw _

/-- Removing a container only runs a command. -/
theorem upholds_dropContainer (container : String) : (bench.dropContainer container).Upholds holds := by
  refine (Upholds.run _ _).attempt.bind fun result => ?_
  cases result with
  | error failure => exact .tell _
  | ok output =>
    dsimp only
    split
    · exact .pure ()
    · exact .tell _

/-- Running the tests only runs commands. -/
theorem upholds_launchTests (target : Target) : (bench.launchTests target).Upholds holds := by
  -- The tests are streamed into a log, and only the clock has been looked at before.
  refine (Upholds.of_still .stamp fun _ => rfl).bind fun stamp =>
    (Upholds.stream _ _ _ _).attempt.bind fun outcome => ?_
  have told (ending : Ending) : (describeEnding ending).Upholds holds := by
    unfold describeEnding
    split
    · exact .pure ()
    · split <;> exact .tell _
  have rest : (Action.ofExcept outcome >>= fun ending => Action.stopIfAsked >>= fun _ =>
      describeEnding ending >>= fun _ =>
      (pure ⟨stamp, target.logPath bench.lab.logs stamp, ending.exitCode⟩ :
        Action FinishedTests)).Upholds holds :=
    (Upholds.ofExcept _).bind fun ending => Upholds.stopIfAsked.bind fun _ =>
      (told ending).bind fun _ => .pure _
  -- The container of the tests is removed first if it may still be there.
  dsimp only
  split
  · exact (upholds_dropContainer _).bind fun _ => rest
  · exact (Upholds.pure ()).bind fun _ => rest

/-- Removing directories as far as possible upholds what may lose entries. -/
theorem upholds_removeAll (thins : Disk.Thinnable holds) (paths : List Path) :
    (removeAll paths).Upholds holds := by
  induction paths with
  | nil => exact .pure ()
  | cons path paths ih =>
    refine (upholds_removeIfPresent thins path).attempt.bind fun result => ?_
    cases result with
    | ok removed => exact ih
    | error failure => exact (Upholds.tell _).bind fun _ => ih

/-- Cleaning up between targets upholds what may lose entries. -/
theorem upholds_cleanResults (thins : Disk.Thinnable holds) : bench.cleanResults.Upholds holds := by
  unfold cleanResults
  refine (Upholds.look _).bind fun doomed => ?_
  split
  · exact .tell _
  · exact upholds_removeAll thins doomed

/-- Patching the workspace for targets only runs a command, and tells of it. -/
theorem upholds_patching (plan : List Target) : ((Part.patching plan).action bench).Upholds holds := by
  refine upholds_adaptWorkspace.attempt.bind fun result => ?_
  cases Progress.ofResult result with
  | done value => exact .pure _
  | failed reason => exact (Upholds.tell _).bind fun _ => .pure _
  | fatal failure => exact .throw _

/-- A stage upholds what its action and the others uphold. -/
theorem upholds_stage {α : Type} {name : Stage} {action : Action α} {next : α → Action TargetFate}
    (first : action.Upholds holds) (others : ∀ value, (next value).Upholds holds) :
    (stage name action next).Upholds holds := by
  refine first.attempt.bind fun result => ?_
  cases Progress.ofResult result with
  | done value => exact others value
  | failed reason => exact .pure _
  | fatal failure => exact .throw _

end Stages

namespace Maintains

/-- The stages behind the check are maintained. -/
theorem withBackend (maintains : bench.Maintains holds) (target : Target) :
    (bench.withBackend target).Upholds holds := by
  refine Upholds.bind ?_ fun _ => (upholds_dropContainer _).bind fun _ => .ofExcept _
  exact (upholds_stage (upholds_startDatabase target) fun _ =>
    upholds_stage (upholds_launchTests target) fun execution =>
    upholds_stage (maintains.gathers target execution) fun collection =>
    upholds_stage (maintains.summarizes target collection execution.stamp) fun _ =>
    .pure _).attempt

/-- The stages of a target are maintained. -/
theorem drive (maintains : bench.Maintains holds) (target : Target) :
    (bench.drive target).Upholds holds := by
  have backend := maintains.withBackend target
  refine upholds_stage (upholds_clearCaches maintains.clears) fun _ => ?_
  unfold presetStage
  split
  · exact upholds_stage (upholds_setPreset _) fun _ =>
      upholds_stage (upholds_checkDialect target) fun _ => backend
  · exact upholds_stage (upholds_checkDialect target) fun _ => backend

/-- Every part of a comparison is maintained. -/
theorem part (maintains : bench.Maintains holds) (part : Part) :
    (part.action bench).Upholds holds := by
  cases part with
  | opening =>
    -- Each working directory is told of or made.
    have prepared (paths : List Path) (some : paths ⊆ bench.lab.workingDirectories) :
        (bench.prepareDirectories paths).Upholds holds := by
      induction paths with
      | nil => exact .pure ()
      | cons path paths ih =>
        obtain ⟨own, others⟩ := List.cons_subset.mp some
        refine Upholds.bind ?_ fun _ => ih others
        unfold prepareDirectory
        split
        · exact .tell _
        · exact maintains.prepares path own
    refine Upholds.bind ?_ fun _ => .pure []
    refine (prepared _ (List.Subset.refl _)).bind fun _ =>
      ((Upholds.run _ _).within _).bind fun output => ?_
    split
    · exact .pure ()
    · exact .throw _
  | patching plan => exact upholds_patching plan
  -- Trying a target is driving it, with a sweep behind it if another one follows.
  | trying target follows =>
    refine Upholds.bind ?_ fun _ => .pure _
    rw [tryTarget_eq]
    refine Upholds.stopIfAsked.bind fun _ => (maintains.drive target).bind fun _ =>
      Upholds.bind ?_ fun _ => .pure _
    split
    · exact maintains.sweeps
    · exact .pure ()

end Maintains

/-- A sound tree stays sound during a comparison. -/
theorem maintains_sound (bench : Bench) : bench.Maintains Disk.Sound where
  prepares path _ := sound_prepareDirectory path
  clears := upholds_removeIfPresent Disk.thinnable_sound _
  gathers target execution := by
    unfold gatherResults
    split
    · exact (Upholds.tell _).bind fun _ => .pure _
    · exact Collection.sound_collect _
  summarizes target collection stamp := by
    unfold summarizeResults
    split
    · exact (Upholds.tell _).bind fun _ => .pure _
    · exact (Summary.sound_summarize _).bind fun _ => (Upholds.printLines _).bind fun _ => .pure _
  sweeps := upholds_cleanResults Disk.thinnable_sound

end Bench

namespace Journey

variable {bench : Bench} {parts : List Part} {s t : Session} {legs front back : List Leg} {leg : Leg}
  {outcome : Except Failure (List TargetRecord)} {holds : Disk → Prop}

/-- Behind a leg that others follow the journey goes on from where it ended. -/
theorem behind (journey : Journey bench parts s legs outcome t) (split : legs = front ++ leg :: back)
    (more : back ≠ []) : ∃ parts outcome, Journey bench parts leg.after back outcome t := by
  induction journey generalizing front with
  | finished => simp at split
  -- The legs in front are passed one by one.
  | goes _ _ rest ih =>
    cases front with
    | nil =>
      obtain ⟨rfl, rfl⟩ := List.cons.inj split
      exact ⟨_, _, rest⟩
    | cons first front => exact ih (List.cons.inj split).2
  | givenUp | stopped =>
    cases front with
    | nil => exact absurd (List.cons.inj split).2.symm more
    | cons first front => simp at split

/-- What the parts before a leg uphold holds when the leg begins. -/
theorem upheld (journey : Journey bench parts s legs outcome t) (split : legs = front ++ leg :: back)
    (upholds : ∀ other ∈ front, (other.part.action bench).Upholds holds)
    (keeps : ∀ exchange ∈ front.flatMap Leg.calls, exchange.Keeps holds)
    (held : holds s.scene.disk) : holds leg.before.scene.disk := by
  -- Each leg in front hands on what it upholds to the next one.
  induction journey generalizing front with
  | finished => simp at split
  | @goes part _ s _ _ _ _ _ _ _ ih =>
    cases front with
    | nil =>
      obtain ⟨rfl, -⟩ := List.cons.inj split
      exact held
    | cons first front =>
      obtain ⟨rfl, others⟩ := List.cons.inj split
      obtain ⟨own, later⟩ := List.forall_mem_cons.mp upholds
      rw [List.flatMap_cons] at keeps
      obtain ⟨mine, rest⟩ := List.forall_mem_append.mp keeps
      exact ih others later rest (own.after held mine)
  | givenUp | stopped =>
    cases front with
    | nil =>
      obtain ⟨rfl, -⟩ := List.cons.inj split
      exact held
    | cons first front => simp at split

end Journey

namespace Course

variable {bench : Bench} {target : Target} {stages : List Stage} {s t : Session}
  {visits : List Visit} {outcome : Except Failure TargetFate} {holds : Disk → Prop}

/-- What the visits uphold holds when any of them begins, and in the end. -/
theorem upheld (course : Course bench target stages s visits outcome t)
    (upholds : ∀ visit ∈ visits, holds visit.before.scene.disk →
      (∀ exchange ∈ visit.calls, exchange.Keeps holds) → holds visit.after.scene.disk)
    (keeps : ∀ exchange ∈ visits.flatMap Visit.calls, exchange.Keeps holds)
    (held : holds s.scene.disk) :
    (∀ visit ∈ visits, holds visit.before.scene.disk) ∧ holds t.scene.disk := by
  -- A visit begins where the one before it has ended.
  induction course with
  | completed => exact ⟨by simp, held⟩
  | passed _ _ began _ _ ih =>
    obtain ⟨own, later⟩ := List.forall_mem_cons.mp upholds
    rw [List.flatMap_cons] at keeps
    obtain ⟨mine, rest⟩ := List.forall_mem_append.mp keeps
    rw [← began] at held
    obtain ⟨before, last⟩ := ih later rest (own held mine)
    exact ⟨List.forall_mem_cons.mpr ⟨held, before⟩, last⟩
  | abandoned _ _ began | stopped _ _ began =>
    rw [← began] at held
    refine ⟨by simpa using held, ?_⟩
    exact upholds _ (List.mem_singleton_self _) held (by simpa using keeps)

end Course

namespace Bench

variable {bench : Bench} {target : Target} {holds : Disk → Prop}

section Visits

variable {α : Type} {name : Stage} {action : Action α} {next : α → Session → List Visit}
  {property : Visit → Prop}

/-- What holds of a stage and of those behind it holds of all of them. -/
theorem forall_visit (own : ∀ s, property (Visit.of name action s))
    (others : ∀ value s, ∀ visit ∈ next value s, property visit) (s : Session) :
    ∀ visit ∈ Bench.visit name action next s, property visit := by
  unfold Bench.visit
  refine List.forall_mem_cons.mpr ⟨own s, ?_⟩
  split
  · exact others _ _
  · simp

/-- What holds of the stages of a target, whenever they begin, holds of its visits. -/
theorem forall_visits (clears : ∀ s, property (Visit.of .clearCaches bench.clearCaches s))
    (presets : ∀ preset s, property (Visit.of .setPreset (bench.setPreset preset) s))
    (checks : ∀ s, property (Visit.of .checkDialect (bench.checkDialect target) s))
    (starts : ∀ s, property (Visit.of .startDatabase (bench.startDatabase target) s))
    (launches : ∀ s, property (Visit.of .launchTests (bench.launchTests target) s))
    (collects : ∀ execution s,
      property (Visit.of .collect (bench.gatherResults target execution) s))
    (summarizes : ∀ collection stamp s,
      property (Visit.of .summarize (bench.summarizeResults target collection stamp) s))
    (s : Session) : ∀ visit ∈ bench.visits target s, property visit := by
  -- The stages behind the presets are nested into one another, as each needs what came before it.
  have checked : ∀ s, ∀ visit ∈ Bench.visit .checkDialect (bench.checkDialect target)
      (fun _ => bench.backendVisits target) s, property visit :=
    forall_visit checks fun _ => forall_visit starts fun _ => forall_visit launches fun execution =>
      forall_visit (collects execution) fun collection =>
      forall_visit (summarizes collection execution.stamp) fun _ _ => by simp
  refine forall_visit clears (fun _ s => ?_) s
  unfold visitPreset
  split
  · exact forall_visit (presets _) (fun _ => checked) s
  · exact checked s

end Visits

/-- Whatever an action upholds its visit upholds. -/
theorem upholds_visit {α : Type} {name : Stage} {action : Action α} (upholds : action.Upholds holds)
    (s : Session) : holds (Visit.of name action s).before.scene.disk →
      (∀ exchange ∈ (Visit.of name action s).calls, exchange.Keeps holds) →
        holds (Visit.of name action s).after.scene.disk :=
  upholds.after

/-- The stages before the results are collected uphold what the removal of the cache upholds. -/
theorem upholds_early_visits (clears : (Action.removeIfPresent bench.lab.gradleCache).Upholds holds)
    (s : Session) : ∀ visit ∈ bench.visits target s, visit.stage ≠ .collect →
      visit.stage ≠ .summarize → holds visit.before.scene.disk →
      (∀ exchange ∈ visit.calls, exchange.Keeps holds) → holds visit.after.scene.disk := by
  refine forall_visits (fun s _ _ => upholds_visit (upholds_clearCaches clears) s)
    (fun preset s _ _ => upholds_visit (upholds_setPreset preset) s)
    (fun s _ _ => upholds_visit (upholds_checkDialect target) s)
    (fun s _ _ => upholds_visit (upholds_startDatabase target) s)
    (fun s _ _ => upholds_visit (upholds_launchTests target) s)
    (fun _ _ collects _ => absurd rfl collects) (fun _ _ _ _ summarizes => absurd rfl summarizes) s

/-- All stages uphold what is maintained. -/
theorem Maintains.visits (maintains : bench.Maintains holds) (s : Session) :
    ∀ visit ∈ bench.visits target s, holds visit.before.scene.disk →
      (∀ exchange ∈ visit.calls, exchange.Keeps holds) → holds visit.after.scene.disk :=
  forall_visits (upholds_visit (upholds_clearCaches maintains.clears))
    (fun preset => upholds_visit (upholds_setPreset preset))
    (upholds_visit (upholds_checkDialect target)) (upholds_visit (upholds_startDatabase target))
    (upholds_visit (upholds_launchTests target))
    (fun execution => upholds_visit (maintains.gathers target execution))
    (fun collection stamp => upholds_visit (maintains.summarizes target collection stamp)) s

/-- What is maintained holds when any leg begins. -/
theorem Maintains.leg {s : Session} {front back : List Leg} {leg : Leg}
    (maintains : bench.Maintains holds) (legs : bench.legs s = front ++ leg :: back)
    (keeps : ∀ exchange ∈ front.flatMap Leg.calls, exchange.Keeps holds)
    (held : holds s.scene.disk) : holds leg.before.scene.disk := by
  obtain ⟨t, journey, -⟩ := bench.journey s
  exact journey.upheld legs (fun other _ => maintains.part other.part) keeps held

end Bench

end DialectBench

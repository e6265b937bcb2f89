import DialectBench.Proofs.Collection.Steps
import DialectBench.Proofs.Disk.Writing

/-! What holds of the file tree as long as the commands keep it: the work on files upholds it, too. -/

namespace DialectBench

/-- A call keeps what holds of the file tree. -/
def Exchange.Keeps (holds : Disk → Prop) (exchange : Exchange) : Prop :=
  holds exchange.before.disk → holds exchange.after.disk

/-- What holds of a sound tree holds of a sound one with less in it. -/
structure Disk.Thinnable (holds : Disk → Prop) : Prop where
  /-- The tree is sound. -/
  sound : ∀ {d : Disk}, holds d → d.Sound
  /-- It may lose entries. -/
  thin : ∀ {d e : Disk} {lost : Location → Prop}, holds d → e.Sound → d.Thins lost e → holds e

/-- Sound trees are those of which nothing else has to hold. -/
theorem Disk.thinnable_sound : Disk.Thinnable Disk.Sound where
  sound := id
  thin _ sound _ := sound

namespace Action

variable {α β : Type} {holds : Disk → Prop} {action : Action α} {next : α → Action β}

/-- An action upholds what holds of the file tree as long as its calls keep it. -/
def Upholds (holds : Disk → Prop) (action : Action α) : Prop :=
  ∀ s, ∃ calls, s.Leads calls (action.after s) ∧
    (holds s.scene.disk → (∀ exchange ∈ calls, exchange.Keeps holds) →
      holds (action.after s).scene.disk)

namespace Upholds

/-- The calls are those of the trace. -/
theorem after (upholds : action.Upholds holds) {s : Session} (held : holds s.scene.disk)
    (keeps : ∀ exchange ∈ action.trace s, exchange.Keeps holds) :
    holds (action.after s).scene.disk := by
  obtain ⟨calls, led, kept⟩ := upholds s
  rw [trace, led.since_eq] at keeps
  exact kept held keeps

/-- Quiet work makes no calls that could break what holds. -/
theorem after_of_quiet (upholds : action.Upholds holds) (quiet : action.Quiet) {s : Session}
    (held : holds s.scene.disk) : holds (action.after s).scene.disk :=
  upholds.after held (by simp [trace, (quiet.leads s).since_eq])

/-- Quiet work calls nothing, so it decides alone. -/
theorem of_quiet (quiet : action.Quiet)
    (kept : ∀ s, holds s.scene.disk → holds (action.after s).scene.disk) : action.Upholds holds :=
  fun s => ⟨[], quiet.leads s, fun held _ => kept s held⟩

/-- Quiet work that leaves the file tree alone upholds everything. -/
theorem of_still (quiet : action.Quiet)
    (still : ∀ s, (action.after s).scene.disk = s.scene.disk) : action.Upholds holds :=
  of_quiet quiet fun s held => by rwa [still s]

/-- Giving a value back upholds everything. -/
theorem pure (value : α) : Upholds holds (pure value : Action α) :=
  of_still (.pure value) fun _ => rfl

/-- Failing upholds everything. -/
theorem throw (failure : Failure) : Upholds holds (throw failure : Action α) :=
  of_still (.throw failure) fun _ => rfl

/-- A query upholds everything. -/
theorem look (query : Disk → α) : Upholds holds (look query) :=
  of_still (quiet_look query) fun _ => rfl

/-- Telling the operator something upholds everything. -/
theorem tell (event : Event) : Upholds holds (tell event) :=
  of_still (.tell event) fun _ => rfl

/-- Writing lines upholds everything. -/
theorem printLines (lines : List String) : Upholds holds (printLines lines) := by
  refine of_still (quiet_printLines lines) fun s => ?_
  induction lines generalizing s with
  | nil => rfl
  | cons line lines ih => exact ih _

/-- Taking a result over upholds everything. -/
theorem ofExcept (result : Except Failure α) : Upholds holds (ofExcept result) :=
  of_still (quiet_ofExcept result) fun s => by rw [after_ofExcept]

/-- Asking for a request to stop upholds everything. -/
theorem stopIfAsked : Upholds holds stopIfAsked :=
  of_still .stopIfAsked fun s => by rw [after_stopIfAsked]

/-- Two actions in turn uphold what each of them upholds. -/
theorem bind (first : action.Upholds holds) (second : ∀ value, (next value).Upholds holds) :
    (action >>= next).Upholds holds := by
  intro s
  obtain ⟨calls, led, kept⟩ := first s
  rw [after_bind]
  cases action.outcome s with
  | error failure => exact ⟨calls, led, kept⟩
  | ok value =>
    obtain ⟨more, onward, keeps⟩ := second value (action.after s)
    -- The calls of the second action come behind those of the first, so what holds is handed on.
    refine ⟨calls ++ more, led.trans onward, fun held all => ?_⟩
    obtain ⟨early, late⟩ := List.forall_mem_append.mp all
    exact keeps (kept held early) late

/-- Doing something for each of several items upholds what it upholds for every one of them. -/
theorem forM {action : α → Action PUnit} (upholds : ∀ item, (action item).Upholds holds)
    (items : List α) : (items.forM action).Upholds holds := by
  induction items with
  | nil => exact .pure ()
  | cons item rest ih => exact (upholds item).bind fun _ => ih

/-- An attempt upholds what the action upholds. -/
theorem attempt (upholds : action.Upholds holds) : (attempt action).Upholds holds := fun s => by
  rw [after_attempt]
  exact upholds s

/-- A step around an action upholds what the action upholds. -/
theorem within (upholds : action.Upholds holds) (step : Fault) :
    (within step action).Upholds holds := fun s => by
  rw [after_within]
  exact upholds s

/-- Running a command upholds what the call keeps. -/
theorem run (runner : Runner) (command : Command) : Upholds holds (run runner command) := fun s => by
  rw [after_run]
  refine ⟨[⟨_, _, s.scene, settled _ s⟩], ⟨rfl, rfl, fun asked => ?_, rfl⟩, fun held keeps => ?_⟩
  · simp [settled, asked]
  · exact keeps _ (List.mem_singleton_self _) held

/-- Watching a command upholds what the call keeps. -/
theorem stream (runner : Runner) (command : Command) (log : Path) (timing : Watching.Timing) :
    Upholds holds (stream runner command log timing) := fun s => by
  rw [after_stream]
  refine ⟨[⟨_, _, s.scene, settled _ s⟩], ⟨rfl, rfl, fun asked => ?_, rfl⟩, fun held keeps => ?_⟩
  · simp [settled, asked]
  · exact keeps _ (List.mem_singleton_self _) held

/-- Running a command that must succeed upholds what the call keeps. -/
theorem runToSuccess (runner : Runner) (command : Command) :
    Upholds holds (runToSuccess runner command) :=
  (run runner command).bind fun _ => (ofExcept _).bind fun _ => pure _

end Upholds

/-- Changes that leave what holds are made where it holds. -/
theorem holds_performAll {changes : List Change} {s : Session}
    (kept : holds (s.scene.disk.applyAll changes)) :
    holds ((performAll changes).after s).scene.disk := by
  rwa [disk_performAll]

section Removing

variable (thins : Disk.Thinnable holds) (path : Path)
include thins

/-- Removing a tree upholds what may lose entries. -/
theorem upholds_deleteTree : (deleteTree path).Upholds holds := by
  refine .of_quiet (quiet_deleteTree path) fun s held => ?_
  cases removing : s.scene.disk.removingTree path with
  | error refusal => rwa [(deleteTree_of_error removing).2]
  | ok changes =>
    obtain ⟨place, -, -, rfl⟩ := Disk.exists_deletions (thins.sound held) removing
    obtain ⟨sound, fewer⟩ := Disk.clear_deletions (thins.sound held) place
    rw [(deleteTree_of_ok removing).2]
    exact holds_performAll (thins.thin held sound fewer)

/-- Removing what may be there upholds what may lose entries. -/
theorem upholds_removeIfPresent : (removeIfPresent path).Upholds holds := by
  refine (Upholds.look _).bind fun present => ?_
  split
  · exact (upholds_deleteTree thins path).bind fun _ => .pure true
  · exact .pure false

end Removing

section Sound

variable {s : Session}

/-- Making directories leaves a sound tree. -/
theorem sound_prepareDirectory (path : Path) : (prepareDirectory path).Upholds Disk.Sound := by
  refine .of_quiet (quiet_prepareDirectory path) fun s sound => ?_
  obtain ⟨_, -, makes, -⟩ := Disk.makes_makingAll sound path.ancestors
  rw [after_prepareDirectory]
  exact holds_performAll (makes.sound sound)

/-- The directories on the way to a path are all that is made for it. -/
theorem makes_prepareParent (sound : s.scene.disk.Sound) (path : Path) :
    ∃ places, s.scene.disk.Makes places ((prepareParent path).after s).scene.disk := by
  unfold prepareParent
  split
  next parent _ =>
    obtain ⟨places, changes, makes, -⟩ := Disk.makes_makingAll sound parent.ancestors
    rw [after_prepareDirectory, disk_performAll]
    exact ⟨places, makes⟩
  next => exact ⟨[], .done⟩

/-- Making the directory that a path lies in leaves a sound tree. -/
theorem sound_prepareParent (path : Path) : (prepareParent path).Upholds Disk.Sound :=
  .of_quiet (quiet_prepareParent path) fun _ sound => by
    obtain ⟨places, makes⟩ := makes_prepareParent sound path
    exact makes.sound sound

/-- Copying a file leaves a sound tree. -/
theorem sound_copyFile (step : Fault) (source target : Path) :
    (copyFile step source target).Upholds Disk.Sound := by
  refine .of_quiet (quiet_copyFile step source target) fun s sound => ?_
  unfold copyFile
  rw [after_bind_of_ok (outcome_look _ s), after_look]
  cases copying : s.scene.disk.copying source target with
  | error refusal => exact sound
  | ok change => exact Disk.sound_of_copying sound copying

/-- Copying entries leaves a sound tree. -/
theorem sound_copyEntries (source target : Path) (entries : List (List String × Node)) :
    (copyEntries source target entries).Upholds Disk.Sound := by
  induction entries with
  | nil => exact .pure ()
  | cons entry rest ih =>
    refine Upholds.bind ?_ fun _ => ih
    unfold copyEntry
    split
    · exact sound_prepareDirectory _
    · exact sound_copyFile _ _ _

/-- Copying a tree leaves a sound tree. -/
theorem sound_copyTree (source target : Path) : (copyTree source target).Upholds Disk.Sound := by
  refine (sound_prepareDirectory _).bind fun _ => Upholds.bind ?_ fun _ =>
    (Upholds.look _).bind fun _ => sound_copyEntries _ _ _
  refine (Upholds.look _).bind fun found => ?_
  cases found with
  | error refusal => exact .throw _
  | ok entry => exact .pure ()

/-- Behind the directories on the way a JSON file is written as a whole, or not at all. -/
theorem writeJson_ends (sound : s.scene.disk.Sound) (path : Path) (value : JsonValue) :
    ∃ places between, s.scene.disk.Makes places between ∧
      ((∃ failure, (writeJson path value).outcome s = .error failure ∧
          ((writeJson path value).after s).scene.disk = between) ∨
        (writeJson path value).outcome s = .ok () ∧ ∃ goal, between.filePlace path = .ok goal ∧
          between.Puts goal (Text.encode (value.text ++ "\n"))
            ((writeJson path value).after s).scene.disk) := by
  obtain ⟨places, makes⟩ := makes_prepareParent sound path
  refine ⟨places, _, makes, ?_⟩
  unfold writeJson
  -- Without the directories on the way nothing is written.
  cases parent : (prepareParent path).outcome s with
  | error failure =>
    rw [outcome_bind_of_error parent, after_bind_of_error parent]
    exact .inl ⟨failure, rfl, rfl⟩
  | ok _ =>
    rw [outcome_bind_of_ok parent, after_bind_of_ok parent]
    have sound' := makes.sound sound
    generalize (prepareParent path).after s = t at sound' ⊢
    rw [outcome_bind_of_ok (outcome_look _ t), after_bind_of_ok (outcome_look _ t), after_look]
    cases writable : t.scene.disk.filePlace path with
    | error refusal => exact .inl ⟨_, rfl, rfl⟩
    | ok goal =>
      have takes := Disk.takesFile_of_filePlace sound' writable
      -- The write was allowed, so all of it is put down.
      obtain none | ⟨bytes, puts, same⟩ :=
        puts_written sound' takes (List.prefix_refl (written goal value))
      · simp [written] at none
      · exact .inr ⟨rfl, goal, rfl, same rfl ▸ puts⟩

/-- Writing a JSON file leaves a sound tree. -/
theorem sound_writeJson (path : Path) (value : JsonValue) :
    (writeJson path value).Upholds Disk.Sound := by
  refine .of_quiet (quiet_writeJson path value) fun s sound => ?_
  obtain ⟨places, between, makes, ⟨_, -, same⟩ | ⟨-, goal, -, puts⟩⟩ :=
    writeJson_ends sound path value
  · rw [same]
    exact makes.sound sound
  · exact puts.sound

end Sound

end Action

open Action

namespace Collection

/-- Copying the directories of a module leaves a sound tree. -/
theorem sound_copyParts (root directory modulePath : Path) (names : List String) :
    (copyParts root directory modulePath names).Upholds Disk.Sound := by
  induction names with
  | nil => exact .pure []
  | cons name rest ih =>
    refine (Upholds.look _).bind fun present => ?_
    split
    · exact (sound_copyTree _ _).bind fun _ => ih.bind fun _ => .pure _
    · exact ih

/-- Copying the directories of all modules leaves a sound tree. -/
theorem sound_copyModules (root directory : Path) (modules : List (List String)) :
    (copyModules root directory modules).Upholds Disk.Sound := by
  induction modules with
  | nil => exact .pure []
  | cons names rest ih =>
    exact (sound_copyParts _ _ _ _).bind fun _ => ih.bind fun _ => .pure _

/-- Copying the log of a run leaves a sound tree. -/
theorem sound_addLogIf (log : Option Path) (logDirectory : Option Path) (directory : Path) :
    (addLogIf log logDirectory directory).Upholds Disk.Sound := by
  cases log with
  | none => exact .pure none
  | some log =>
    refine (Upholds.look _).bind fun source => (Upholds.look _).bind fun present => ?_
    split
    · exact (sound_prepareDirectory _).bind fun _ => (sound_copyFile _ _ _).bind fun _ => .pure _
    · exact (Upholds.tell _).bind fun _ => .pure none

/-- Filling a collection leaves a sound tree. -/
theorem sound_fill (request : CollectionOrder) (directory : Path) :
    (fill request directory).Upholds Disk.Sound := by
  refine (Upholds.look _).bind fun modules => ?_
  split
  · exact .throw _
  · refine (sound_copyModules _ _ _).bind fun sources => ?_
    split
    · exact .throw _
    · exact (sound_addLogIf _ _ _).bind fun _ => (sound_writeJson _ _).bind fun _ => .pure _

/-- Removing what was copied leaves a sound tree. -/
theorem sound_clearSources (sources : List Path) : (clearSources sources).Upholds Disk.Sound := by
  induction sources with
  | nil => exact .pure ()
  | cons source rest ih =>
    refine (upholds_deleteTree Disk.thinnable_sound source).attempt.bind fun result => ?_
    cases result with
    | ok removed => exact ih
    | error failure => exact (Upholds.tell _).bind fun _ => ih

/-- Making the directory of a collection leaves a sound tree. -/
theorem sound_makeDirectory (directory : Path) : (makeDirectory directory).Upholds Disk.Sound := by
  refine (sound_prepareParent _).bind fun _ => .of_quiet ?_ fun s sound => ?_
  · refine (quiet_look _).bind fun making => ?_
    split
    · exact Quiet.perform _
    · exact Quiet.throw _
    · exact Quiet.throw _
  · rw [after_bind_of_ok (outcome_look _ s), after_look]
    -- Nothing is made where something stands, and else one directory.
    cases making : s.scene.disk.makingDirectory directory with
    | error refusal => cases refusal <;> exact sound
    | ok change =>
      obtain ⟨_, _, rfl, fits, -⟩ := Disk.making_of_makingDirectory sound making
      exact sound.makeDirectory fits

/-- Collecting leaves a sound tree, whatever comes of it. -/
theorem sound_collect (request : CollectionOrder) : (collect request).Upholds Disk.Sound := by
  refine (sound_makeDirectory _).bind fun _ => (sound_fill _ _).attempt.bind fun result => ?_
  -- What was filled in is removed if filling fails.
  cases result with
  | error failure =>
    refine Upholds.bind ?_ fun _ => .throw _
    refine (upholds_removeIfPresent Disk.thinnable_sound _).attempt.bind fun removal => ?_
    cases removal with
    | ok removed => exact .pure ()
    | error failure => exact .tell _
  | ok sources =>
    by_cases removed : request.removeSource = true
    · simp only [removed, if_true]
      exact (sound_clearSources _).bind fun _ => .pure _
    · simp only [removed]
      exact .pure _

end Collection

/-- Reading a manifest leaves the file tree alone. -/
theorem Manifest.upholds_load {holds : Disk → Prop} (path : Path) :
    (load path).Upholds holds := by
  refine .of_still (quiet_load path) fun s => ?_
  rw [load, after_bind_of_ok (show disk.outcome s = .ok s.scene.disk from rfl)]
  split
  · split <;> rfl
  · rfl

/-- Summarizing leaves a sound tree. -/
theorem Summary.sound_summarize (request : Request) : (summarize request).Upholds Disk.Sound := by
  refine (Upholds.look _).bind fun present => ?_
  split
  · refine (Manifest.upholds_load _).bind fun _ => (Upholds.of_still .disk fun _ => rfl).bind fun _ =>
      (Upholds.of_still .stamp fun _ => rfl).bind fun _ =>
      (Upholds.of_still .universal fun _ => rfl).bind fun _ => Upholds.bind ?_ fun _ => .pure _
    unfold writeIf
    split
    · exact (sound_writeJson _ _).bind fun _ => .pure _
    · exact .pure none
  · exact .throw _

end DialectBench

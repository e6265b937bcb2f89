import DialectBench.Collection.Copy
import DialectBench.Proofs.Session.Ledger
import DialectBench.Proofs.Session.Quiet

/-! Work on files fails for ordinary reasons: what goes wrong never looks like a stopped run. -/

namespace DialectBench

namespace Action

variable {α β : Type} {action : Action α} {next : α → Action β}

/-- Whatever an action fails for is no request to stop. -/
def Ordinary (action : Action α) : Prop :=
  ∀ s failure, action.outcome s = .error failure → failure.isInterruption = false

namespace Ordinary

/-- Giving a value back does not fail. -/
theorem pure (value : α) : Ordinary (pure value : Action α) := fun _ _ failed => by cases failed

/-- An action that never fails fails for no bad reason. -/
theorem of_ok (passed : ∀ s, ∃ value, action.outcome s = .ok value) : action.Ordinary :=
  fun s failure failed => by
    obtain ⟨value, same⟩ := passed s
    rw [same] at failed
    cases failed

/-- A failure that is ordinary may be thrown. -/
theorem throw {failure : Failure} (ordinary : failure.isInterruption = false) :
    Ordinary (throw failure : Action α) := fun _ _ failed => by
  obtain rfl := Except.error.inj failed
  exact ordinary

/-- A fault other than an interruption may be a refusal. -/
theorem refuse {fault : Fault} (apart : fault ≠ .interrupted) : Ordinary (refuse fault : Action α) :=
  throw (by simpa [Failure.isInterruption, Failure.of] using apart)

/-- A query does not fail. -/
theorem look (query : Disk → α) : Ordinary (look query) := of_ok fun s => ⟨_, outcome_look query s⟩

/-- Telling the operator something does not fail. -/
theorem tell (event : Event) : Ordinary (tell event) := of_ok fun _ => ⟨(), rfl⟩

/-- A change of the file tree does not fail. -/
theorem perform (change : Change) : Ordinary (perform change) := of_ok fun _ => ⟨(), rfl⟩

/-- Writing lines does not fail. -/
theorem printLines (lines : List String) : Ordinary (printLines lines) := by
  induction lines with
  | nil => exact of_ok fun _ => ⟨(), rfl⟩
  | cons line lines ih => exact fun s => ih _

/-- What the system refuses is ordinary. -/
theorem allowed (step : Fault) (result : Except OsError α) : Ordinary (allowed step result) := by
  cases result with
  | ok value => exact pure value
  | error refusal => exact throw rfl

/-- Whichever of two actions fails, the reason is ordinary. -/
theorem bind (first : action.Ordinary) (second : ∀ value, (next value).Ordinary) :
    (action >>= next).Ordinary := by
  intro s failure failed
  -- The failure is that of the first action, or that of the second after the first has passed.
  cases outcome : action.outcome s with
  | error reason =>
    rw [outcome_bind_of_error outcome] at failed
    obtain rfl := Except.error.inj failed
    exact first s reason outcome
  | ok value =>
    rw [outcome_bind_of_ok outcome] at failed
    exact second value _ failure failed

/-- An attempt does not fail, and what it was made of failed for an ordinary reason. -/
theorem attempt_bind {next : Except Failure α → Action β} (first : action.Ordinary)
    (passed : ∀ value, (next (.ok value)).Ordinary)
    (failed : ∀ failure, failure.isInterruption = false → (next (.error failure)).Ordinary) :
    (attempt action >>= next).Ordinary := by
  intro s failure fails
  -- The attempt itself passes always, so what fails is the action behind it.
  rw [outcome_bind_of_ok (outcome_attempt action s)] at fails
  cases outcome : action.outcome s with
  | ok value =>
    rw [outcome] at fails
    exact passed value _ failure fails
  | error reason =>
    rw [outcome] at fails
    exact failed reason (first s reason outcome) _ failure fails

end Ordinary

/-- Making directories fails for ordinary reasons. -/
theorem ordinary_prepareDirectory (path : Path) : (prepareDirectory path).Ordinary := by
  refine (Ordinary.look _).bind fun making =>
    (Ordinary.of_ok fun s => ⟨(), outcome_performAll _ s⟩).bind fun _ => ?_
  split
  · exact .throw rfl
  · exact .pure ()

/-- Making the directory that a path lies in fails for ordinary reasons. -/
theorem ordinary_prepareParent (path : Path) : (prepareParent path).Ordinary := by
  unfold prepareParent
  split
  · exact ordinary_prepareDirectory _
  · exact .pure ()

/-- Copying a file fails for ordinary reasons. -/
theorem ordinary_copyFile (step : Fault) (source target : Path) :
    (copyFile step source target).Ordinary :=
  (Ordinary.look _).bind fun _ => (Ordinary.allowed _ _).bind fun _ => .perform _

/-- Copying a tree fails for ordinary reasons. -/
theorem ordinary_copyTree (source target : Path) : (copyTree source target).Ordinary := by
  -- Entries are copied one after another: a directory is made, a file is copied.
  have entries (listed : List (List String × Node)) : (copyEntries source target listed).Ordinary := by
    induction listed with
    | nil => exact .pure ()
    | cons entry rest ih =>
      refine Ordinary.bind ?_ fun _ => ih
      unfold copyEntry
      split
      · exact ordinary_prepareDirectory _
      · exact ordinary_copyFile _ _ _
  -- Both directories are looked at before the entries are copied.
  refine (ordinary_prepareDirectory _).bind fun _ => Ordinary.bind ?_ fun _ =>
    (Ordinary.look _).bind fun _ => entries _
  refine (Ordinary.look _).bind fun found => ?_
  cases found with
  | error refusal => exact .throw rfl
  | ok entry => exact .pure ()

/-- Removing a tree fails for ordinary reasons. -/
theorem ordinary_deleteTree (path : Path) : (deleteTree path).Ordinary :=
  (Ordinary.look _).bind fun _ => (Ordinary.allowed _ _).bind fun _ =>
    .of_ok fun s => ⟨(), outcome_performAll _ s⟩

/-- Removing a tree that need not be there fails for ordinary reasons. -/
theorem ordinary_removeIfPresent (path : Path) : (removeIfPresent path).Ordinary := by
  refine (Ordinary.look _).bind fun present => ?_
  split
  · exact (ordinary_deleteTree path).bind fun _ => .pure true
  · exact .pure false

/-- Writing a JSON file fails for ordinary reasons. -/
theorem ordinary_writeJson (path : Path) (value : JsonValue) : (writeJson path value).Ordinary :=
  (ordinary_prepareParent _).bind fun _ => (Ordinary.look _).bind fun _ =>
    (Ordinary.allowed _ _).bind fun _ => (Ordinary.perform _).bind fun _ =>
      (Ordinary.perform _).bind fun _ => .perform _

end Action

open Action

namespace Collection

/-- Copying the directories of modules fails for ordinary reasons. -/
theorem ordinary_copyModules (root directory : Path) (modules : List (List String)) :
    (copyModules root directory modules).Ordinary := by
  -- A part that a module lacks is passed over.
  have parts (modulePath : Path) (names : List String) :
      (copyParts root directory modulePath names).Ordinary := by
    induction names with
    | nil => exact .pure []
    | cons name rest ih =>
      refine (Ordinary.look _).bind fun present => ?_
      split
      · exact (ordinary_copyTree _ _).bind fun _ => ih.bind fun _ => .pure _
      · exact ih
  induction modules with
  | nil => exact .pure []
  | cons names rest ih => exact (parts _ _).bind fun _ => ih.bind fun _ => .pure _

/-- Filling a collection fails for ordinary reasons. -/
theorem ordinary_fill (request : CollectionOrder) (directory : Path) :
    (fill request directory).Ordinary := by
  -- The log is optional, and one that is asked for and missing is only told about.
  have log : (addLogIf request.log request.logDirectory directory).Ordinary := by
    cases request.log with
    | none => exact .pure none
    | some log =>
      refine (Ordinary.look _).bind fun source => (Ordinary.look _).bind fun present => ?_
      split
      · exact (ordinary_prepareDirectory _).bind fun _ => (ordinary_copyFile _ _ _).bind fun _ =>
          .pure _
      · exact (Ordinary.tell _).bind fun _ => .pure none
  refine (Ordinary.look _).bind fun modules => ?_
  split
  · exact .refuse (by simp)
  · refine (ordinary_copyModules _ _ _).bind fun sources => ?_
    split
    · exact .refuse (by simp)
    · exact log.bind fun _ => (ordinary_writeJson _ _).bind fun _ => .pure _

/-- Collecting fails for ordinary reasons. -/
theorem ordinary_collect (request : CollectionOrder) : (collect request).Ordinary := by
  -- The directory of the collection is made anew, and one that exists is refused.
  have made (directory : Path) : (makeDirectory directory).Ordinary := by
    refine (ordinary_prepareParent _).bind fun _ => (Ordinary.look _).bind fun making => ?_
    split
    · exact .perform _
    · exact .refuse (by simp)
    · exact .throw rfl
  have discarded (directory : Path) : (discard directory).Ordinary :=
    (ordinary_removeIfPresent directory).attempt_bind (fun _ => .pure ()) fun _ _ => .tell _
  -- A source that cannot be removed is told about, and the others are still removed.
  have cleared (sources : List Path) : (clearSources sources).Ordinary := by
    induction sources with
    | nil => exact .pure ()
    | cons source rest ih =>
      exact (ordinary_deleteTree source).attempt_bind (fun _ => ih) fun _ _ =>
        (Ordinary.tell _).bind fun _ => ih
  refine (made _).bind fun _ => (ordinary_fill _ _).attempt_bind (fun sources => ?_)
    fun failure ordinary => (discarded _).bind fun _ => .throw ordinary
  -- What was copied is removed only when that is asked for.
  cases request.removeSource with
  | true => exact (cleared sources).bind fun _ => .pure _
  | false => exact .pure _

end Collection

namespace Summary

/-- Summarizing fails for ordinary reasons. -/
theorem ordinary_summarize (request : Request) : (summarize request).Ordinary := by
  -- A manifest that cannot be read is told about and counts as missing.
  have loads (path : Path) : (Manifest.load path).Ordinary := by
    refine (Ordinary.of_ok fun s => ⟨s.scene.disk, rfl⟩ : Action.disk.Ordinary).bind fun d => ?_
    split
    · split
      · exact .pure _
      · exact (Ordinary.tell _).bind fun _ => .pure none
    · exact .pure none
  refine (Ordinary.look _).bind fun present => ?_
  split
  · refine (loads _).bind fun _ => (Ordinary.of_ok fun s => ⟨s.scene.disk, rfl⟩).bind fun d =>
      (Ordinary.of_ok fun s => ⟨_, outcome_stamp s⟩).bind fun _ =>
      (Ordinary.of_ok fun s => ⟨s.scene.moment.universal, rfl⟩).bind fun _ => Ordinary.bind ?_ fun _ =>
      .pure _
    unfold writeIf
    split
    · exact (ordinary_writeJson _ _).bind fun _ => .pure _
    · exact .pure none
  · exact .refuse (by simp)

end Summary

end DialectBench

import DialectBench.Proofs.Collection.Founding
import DialectBench.Proofs.Suite.Modules

/-! The steps of a collection: its directory is made, filled and, if that fails, taken away. -/

namespace DialectBench

open Disk Action

namespace Action

variable {path : Path} {s : Session} {changes : List Change} {refusal : OsError}

/-- A tree that may be removed is removed. -/
theorem deleteTree_of_ok (removing : s.scene.disk.removingTree path = .ok changes) :
    (deleteTree path).outcome s = .ok () ∧
      (deleteTree path).after s = (performAll changes).after s := by
  unfold deleteTree
  rw [outcome_bind_of_ok (outcome_look _ s), after_bind_of_ok (outcome_look _ s), after_look, removing]
  exact ⟨outcome_performAll _ _, rfl⟩

/-- A tree that may not be removed stays. -/
theorem deleteTree_of_error (removing : s.scene.disk.removingTree path = .error refusal) :
    (deleteTree path).outcome s = .error (.during (.remove path) refusal) ∧
      (deleteTree path).after s = s := by
  unfold deleteTree
  rw [outcome_bind_of_ok (outcome_look _ s), after_bind_of_ok (outcome_look _ s), after_look, removing]
  exact ⟨rfl, rfl⟩

/-- A tree that is there and may be removed is removed. -/
theorem removeIfPresent_of_ok (found : s.scene.disk.exists? path = true)
    (removing : s.scene.disk.removingTree path = .ok changes) :
    (removeIfPresent path).outcome s = .ok true ∧
      (removeIfPresent path).after s = (performAll changes).after s := by
  obtain ⟨passed, left⟩ := deleteTree_of_ok removing
  unfold removeIfPresent
  rw [outcome_bind_of_ok (outcome_look _ s), after_bind_of_ok (outcome_look _ s), after_look, found,
    if_pos rfl, outcome_bind_of_ok passed, after_bind_of_ok passed, left]
  exact ⟨rfl, rfl⟩

/-- A file that may be removed is removed. -/
theorem removeFile_of_ok {change : Change} (removing : s.scene.disk.removingFile path = .ok change) :
    (removeFile path).outcome s = .ok () ∧
      (removeFile path).after s = (perform change).after s := by
  unfold removeFile
  rw [outcome_bind_of_ok (outcome_look _ s), after_bind_of_ok (outcome_look _ s), after_look, removing]
  exact ⟨rfl, rfl⟩

/-- A file that may not be removed stays. -/
theorem removeFile_of_error (removing : s.scene.disk.removingFile path = .error refusal) :
    (removeFile path).outcome s = .error (.during (.remove path) refusal) ∧
      (removeFile path).after s = s := by
  unfold removeFile
  rw [outcome_bind_of_ok (outcome_look _ s), after_bind_of_ok (outcome_look _ s), after_look, removing]
  exact ⟨rfl, rfl⟩

end Action

namespace Collection

/-- The directory of the collection that is asked for. -/
def directoryOf (request : CollectionOrder) : Path :=
  directoryFor request.destination request.timestamp

/-- The session in which the directory of a collection was asked for. -/
def founding (request : CollectionOrder) (s : Session) : Session :=
  (makeDirectory (directoryOf request)).after s

/-- The manifest of a collection of some modules. -/
def manifestOf (request : CollectionOrder) (directory : Path) (modules : List (List String))
    (logCopy : Option Path) : Manifest where
  timestamp := request.timestamp
  sourceRoot := request.root.text
  directory := directory.text
  logCopy := logCopy.map Path.text
  modules := modules.map fun names => (Suite.pathOf names).text
  backend := request.backend

variable {base : Disk} {directory : Path} {place : Location} {request : CollectionOrder}
  {s : Session} {kept : List String → Prop} {content : List String → Option Bytes}

/-- The directory of an incomplete collection is removed with all in it. -/
theorem discard_eq (founded : base.Founded directory place)
    (housed : base.Housed place s.scene.disk) :
    (discard directory).outcome s = .ok () ∧
      (discard directory).ledger s = s.scene.disk.deletions place := by
  -- The path of the directory still resolves to it, so all in it is removed.
  obtain ⟨modified, resolved⟩ := housed.resolve_eq founded
  have removing : s.scene.disk.removingTree directory = .ok (s.scene.disk.deletions place) := by
    rw [removingTree, resolved]
  have found : s.scene.disk.exists? directory = true := by
    obtain ⟨named, ⟨left, goes⟩, stands⟩ := housed.leads founded
    obtain ⟨time, there⟩ := find?_of_isDirectoryAt stands
    exact exists?_iff.mpr ⟨named, place, left, goes, by simp [there]⟩
  obtain ⟨passed, left⟩ := removeIfPresent_of_ok found removing
  have attempted : (Action.attempt (removeIfPresent directory)).outcome s = .ok (.ok true) := by
    rw [outcome_attempt, passed]
  have same : (discard directory).after s = (performAll (s.scene.disk.deletions place)).after s := by
    unfold discard
    rw [after_bind_of_ok attempted, after_attempt, left]
    rfl
  refine ⟨?_, ?_⟩
  · unfold discard
    rw [outcome_bind_of_ok attempted]
    rfl
  · rw [ledger_congr same, ledger_performAll]

/-- What is copied into a collection before its manifest is written: the directories of its modules and
the log. -/
def gather (request : CollectionOrder) (directory : Path) (modules : List (List String)) :
    Action (List Path × Option Path) :=
  if modules.isEmpty then Action.refuse (.noResults request.root)
  else do
    let sources ← copyModules request.root directory modules
    if sources.isEmpty then Action.refuse .nothingCopied
    else
      let logCopy ← addLogIf request.log request.logDirectory directory
      return (sources, logCopy)

/-- A collection is filled by copying first and writing the manifest last. -/
theorem fill_eq (request : CollectionOrder) (directory : Path) :
    fill request directory = do
      let modules ← Action.look fun d => Suite.modules d request.root
      let copied ← gather request directory modules
      Action.writeJson (directory / Manifest.fileName)
        (manifestOf request directory modules copied.2).toJson
      return copied.1 := by
  -- Where nothing can be copied both sides refuse alike.
  unfold fill gather manifestOf
  refine bind_congr fun modules => ?_
  by_cases empty : modules.isEmpty = true
  · simp only [if_pos empty]
    rfl
  · simp only [if_neg empty, bind_assoc]
    refine bind_congr fun sources => ?_
    by_cases none : sources.isEmpty = true
    · simp only [if_pos none]
      rfl
    · simp only [if_neg none, bind_assoc, pure_bind]

/-- Copying into a collection is quiet work. -/
theorem quiet_gather (request : CollectionOrder) (directory : Path)
    (modules : List (List String)) : (gather request directory modules).Quiet := by
  unfold gather
  split
  · exact .throw _
  · refine (quiet_copyModules _ _ _).bind fun sources => ?_
    split
    · exact .throw _
    · exact (quiet_addLogIf _ _ _).bind fun _ => .pure _

/-- Copying into a collection keeps what is outside of it, and the files directly in it. -/
theorem keeps_gather (founded : base.Founded directory place) (request : CollectionOrder)
    (flat : ∀ names, kept names → names.length ≤ 1) {modules : List (List String)}
    (known : ∀ way ∈ modules, way ≠ [] ∧ ∀ name ∈ way, IsPlain name) :
    Keeps (base.Filling place kept content) (gather request directory modules) := by
  unfold gather
  split
  · exact .throw _
  · refine (keeps_copyModules founded flat known).bind fun sources => ?_
    split
    · exact .throw _
    · exact (keeps_addLogIf founded flat _ _).bind fun _ => .pure _

/-- Filling a collection keeps what is outside of it. -/
theorem keeps_fill (founded : base.Founded directory place) (request : CollectionOrder)
    (flat : ∀ names, kept names → names.length ≤ 1) (free : ¬ kept [Manifest.fileName]) :
    Keeps (base.Filling place kept content) (fill request directory) := by
  rw [fill_eq]
  -- Neither the gathering nor the writing of the manifest calls a command.
  have quiet (modules : List (List String)) (copied : List Path × Option Path) :=
    quiet_writeJson (directory / Manifest.fileName)
      (manifestOf request directory modules copied.2).toJson
  refine .look_bind (fun modules => (quiet_gather _ _ _).bind fun copied =>
    (quiet modules copied).bind fun _ => .pure _) fun s filling => ?_
  have known := Suite.modules_known filling.sound request.root
  exact ((keeps_gather founded request flat known).bind fun copied =>
    (keeps_writeJson founded _ (by decide) free).bind fun _ => .pure _).throughout s filling

/-- The directory of a request has a text. -/
theorem isNamed_directoryOf (request : CollectionOrder) : (directoryOf request).IsNamed := by
  simp [Path.IsNamed, directoryOf, directoryFor]

/-- Removing what was copied never fails. -/
theorem outcome_clearSources (sources : List Path) (s : Session) :
    (clearSources sources).outcome s = .ok () := by
  induction sources generalizing s with
  | nil => rfl
  | cons source rest ih =>
    have attempted := outcome_attempt (Action.deleteTree source) s
    unfold clearSources
    rw [outcome_bind_of_ok attempted]
    cases (Action.deleteTree source).outcome s with
    | ok _ => exact ih _
    | error _ => exact (outcome_bind_of_ok (outcome_warn _ _) _).trans (ih _)

/-- A collection that was filled succeeds, and then what was copied is removed if that was asked. -/
theorem collect_of_filled {sources : List Path}
    (made : (makeDirectory (directoryOf request)).outcome s = .ok ())
    (filled : (fill request (directoryOf request)).outcome (founding request s) = .ok sources) :
    (collect request).outcome s = .ok (directoryOf request) ∧
      (collect request).after s =
        if request.removeSource then
          (clearSources sources).after
            ((fill request (directoryOf request)).after (founding request s))
        else (fill request (directoryOf request)).after (founding request s) := by
  -- The filling is attempted, and here the attempt has an outcome to go on with.
  have attempted := outcome_attempt (fill request (directoryOf request)) (founding request s)
  rw [filled] at attempted
  unfold collect
  rw [← directoryOf, outcome_bind_of_ok made, after_bind_of_ok made, ← founding,
    outcome_bind_of_ok attempted, after_bind_of_ok attempted, after_attempt]
  by_cases removes : request.removeSource = true
  · simp only [removes, if_true]
    exact ⟨outcome_bind_of_ok (outcome_clearSources _ _) _,
      after_bind_of_ok (outcome_clearSources _ _) _⟩
  · simp only [removes]
    exact ⟨rfl, rfl⟩

/-- A collection that cannot be made leaves what was made on the way to it. -/
theorem collect_of_declined {failure : Failure}
    (declined : (makeDirectory (directoryOf request)).outcome s = .error failure) :
    (collect request).outcome s = .error failure ∧
      (collect request).after s = founding request s :=
  ⟨outcome_bind_of_error declined _, after_bind_of_error declined _⟩

/-- A collection that cannot be filled is discarded. -/
theorem collect_of_unfilled {failure : Failure}
    (made : (makeDirectory (directoryOf request)).outcome s = .ok ())
    (unfilled : (fill request (directoryOf request)).outcome (founding request s) =
      .error failure) :
    (collect request).after s =
      (discard (directoryOf request)).after
        ((fill request (directoryOf request)).after (founding request s)) := by
  -- The filling is attempted, and its failure leads to the discarding.
  have attempted := outcome_attempt (fill request (directoryOf request)) (founding request s)
  rw [unfilled] at attempted
  unfold collect
  rw [← directoryOf, after_bind_of_ok made, ← founding, after_bind_of_ok attempted, after_attempt,
    after_bind]
  split <;> rfl

/-- A collection that cannot be filled fails. -/
theorem collect_fails_of_unfilled {failure : Failure}
    (made : (makeDirectory (directoryOf request)).outcome s = .ok ())
    (unfilled : (fill request (directoryOf request)).outcome (founding request s) =
      .error failure) : ∃ reason, (collect request).outcome s = .error reason := by
  have attempted := outcome_attempt (fill request (directoryOf request)) (founding request s)
  rw [unfilled] at attempted
  unfold collect
  rw [← directoryOf, outcome_bind_of_ok made, ← founding, outcome_bind_of_ok attempted,
    outcome_bind]
  split <;> exact ⟨_, rfl⟩

/-- A collection that succeeds has made its directory and filled it. -/
theorem collect_of_ok (sound : s.scene.disk.Sound)
    (passed : (collect request).outcome s = .ok directory) :
    directory = directoryOf request ∧ ∃ made place sources,
      (prepareParent (directoryOf request)).Paves (directoryOf request) s made ∧
      (makeDirectory (directoryOf request)).outcome s = .ok () ∧
      Established (directoryOf request) s made place ∧
      (fill request (directoryOf request)).outcome (founding request s) = .ok sources := by
  -- The directory was declined, or the filling failed, or both have succeeded.
  obtain ⟨made, paves, ⟨reason, declined, -⟩ | ⟨place, created, established⟩⟩ :=
    makeDirectory_cases sound (isNamed_directoryOf request)
  · simp [(collect_of_declined declined).1] at passed
  · cases filled : (fill request (directoryOf request)).outcome (founding request s) with
    | error failure =>
      obtain ⟨reason, failed⟩ := collect_fails_of_unfilled created filled
      simp [failed] at passed
    | ok sources =>
      rw [(collect_of_filled created filled).1] at passed
      exact ⟨(Except.ok.inj passed).symm, made, place, sources, paves, created, established, rfl⟩

/-- When the directory of a collection was asked for, directories were made at most. -/
theorem founding_makes (sound : s.scene.disk.Sound) (request : CollectionOrder) :
    ∃ places, s.scene.disk.Makes places (founding request s).scene.disk := by
  obtain ⟨made, paves, ⟨-, -, rest⟩ | ⟨place, -, rest⟩⟩ :=
    makeDirectory_cases sound (isNamed_directoryOf request)
  · refine ⟨made, ?_⟩
    rw [founding, ((quiet_makeDirectory _).recorded s).2, rest.ledger, paves.makes.applyAll_eq]
    exact paves.makes
  · exact ⟨made ++ [place], rest.makes paves⟩

/-- Without modules nothing is copied. -/
theorem fill_of_no_modules (none : Suite.modules s.scene.disk request.root = []) (directory : Path) :
    (fill request directory).outcome s = .error (.of (.noResults request.root)) ∧
      (fill request directory).after s = s := by
  unfold fill
  rw [outcome_bind_of_ok (outcome_look _ s), after_bind_of_ok (outcome_look _ s), after_look, none]
  exact ⟨rfl, rfl⟩

/-- Without modules there is nothing to collect. -/
theorem collect_fails (none : Suite.modules (founding request s).scene.disk request.root = []) :
    ∃ failure, (collect request).outcome s = .error failure := by
  cases made : (makeDirectory (directoryOf request)).outcome s with
  | error failure => exact ⟨failure, (collect_of_declined made).1⟩
  | ok value => exact collect_fails_of_unfilled made (fill_of_no_modules none (directoryOf request)).1

end Collection

end DialectBench

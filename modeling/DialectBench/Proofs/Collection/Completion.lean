import DialectBench.Proofs.Collection.Snapshot
import DialectBench.Proofs.Collection.Steps

/-! What a collection holds when it is complete, and that it is not taken for complete before. -/

namespace DialectBench

open Disk Action

namespace Collection

/-- The name and the content of the copy of a log, if there is a log to be copied. -/
def attachment? (request : CollectionOrder) (d : Disk) : Option (String × Bytes) :=
  match request.log with
  | none => none
  | some log =>
    let source := logPath d log request.logDirectory
    match d.entry source with
    | .ok (_, .file content _ _) => some (source.fileName?.getD "run.log", content)
    | _ => none

/-- Contents with that of the copy of a log. -/
def attached (log : Option (String × Bytes)) (content : List String → Option Bytes)
    (names : List String) : Option Bytes :=
  match log with
  | some (name, bytes) => if names = ["logs", name] then some bytes else content names
  | none => content names

/-- The session in which the directories of all modules have been copied. -/
def gathering (request : CollectionOrder) (s : Session) : Session :=
  (copyModules request.root (directoryOf request) (Suite.modules s.scene.disk request.root)).after s

variable {base : Disk} {directory : Path} {place home : Location} {request : CollectionOrder}
  {s : Session} {kept : List String → Prop} {content : List String → Option Bytes}
  {subs : List (List String)} {modules : List (List String)} {sources : List Path}

/-- When the log has been added, the collection holds a copy of it if there is one. -/
theorem filling_addLogIf {copy : Option Path} (founded : base.Founded directory place)
    (filling : base.Filling place kept content s.scene.disk)
    (passed : (addLogIf request.log request.logDirectory directory).outcome s = .ok copy) :
    copy = (attachment? request s.scene.disk).map (fun log => directory / "logs" / log.1) ∧
      base.Filling place kept (attached (attachment? request s.scene.disk) content)
        ((addLogIf request.log request.logDirectory directory).after s).scene.disk := by
  unfold addLogIf attachment? at *
  -- Without a log nothing is added.
  cases asked : request.log with
  | none =>
    rw [asked] at passed
    exact ⟨(Except.ok.inj passed).symm, filling⟩
  | some log =>
    rw [asked] at passed
    dsimp only at passed ⊢
    unfold addLog at passed ⊢
    rw [outcome_bind_of_ok (outcome_look _ s), after_look,
      outcome_bind_of_ok (outcome_look _ s), after_look] at passed
    rw [after_bind_of_ok (outcome_look _ s), after_look,
      after_bind_of_ok (outcome_look _ s), after_look]
    generalize logPath s.scene.disk log request.logDirectory = source at passed ⊢
    -- The log is copied if it is a file, and otherwise its absence is told.
    by_cases file : s.scene.disk.isFile source = true
    · obtain ⟨spot, bytes, mode, time, entry⟩ := exists_entry_of_isFile file
      rw [if_pos file] at passed ⊢
      rw [entry]
      obtain ⟨_, prepared, passed⟩ := outcome_bind_eq_ok.mp passed
      rw [after_bind_of_ok prepared]
      have first : ∀ name ∈ ["logs"], IsPlain name := by decide
      have both : ∀ name ∈ ["logs", source.fileName?.getD "run.log"], IsPlain name := by
        simpa using ⟨first "logs" (by simp), isPlain_logName source⟩
      -- The log is still there once the directory of its copy has been made.
      obtain ⟨ways, changes, makes, -⟩ := makes_below (filling.leads founded) filling.sound
        filling.linkless first
      have made : ((prepareDirectory (directory / "logs")).after s).scene.disk =
          s.scene.disk.applyAll (s.scene.disk.makingAll (directory / "logs").ancestors).changes := by
        rw [after_prepareDirectory, disk_performAll]
      have held := filling.makes makes
      have stays := entry_mono makes.within makes.current_eq entry
      have target : directory.extend ["logs"] = directory / "logs" := rfl
      rw [target, ← made] at held stays
      obtain ⟨_, copied, passed⟩ := outcome_bind_eq_ok.mp passed
      obtain ⟨spot', bytes', mode', time', again, filled⟩ :=
        filling_copyFile founded held both (by simp) copied
      rw [stays] at again
      obtain ⟨-, same, -⟩ : spot = spot' ∧ bytes = bytes' ∧ mode = mode' ∧ time = time' := by
        simpa using again
      rw [after_bind_of_ok copied]
      refine ⟨(Except.ok.inj passed).symm, filled.congr fun names _ => ?_⟩
      rw [same]
      rfl
    · rw [if_neg file] at passed ⊢
      rw [outcome_bind_of_ok (outcome_warn _ _)] at passed
      -- What is no file has no content to be attached.
      have absent : (match s.scene.disk.entry source with
          | .ok (_, .file content _ _) => some (source.fileName?.getD "run.log", content)
          | _ => none) = none := by
        unfold isFile at file
        split
        next entry => simp [entry, Node.isFile] at file
        next => rfl
      rw [absent]
      exact ⟨(Except.ok.inj passed).symm, filling⟩

/-- The contents of a collection, apart from its manifest: the copies and the log. -/
def contents (request : CollectionOrder) (s : Session) (home : Location) :
    List String → Option Bytes :=
  attached (attachment? request (gathering request s).scene.disk)
    (s.scene.disk.snapshot home
      (subtrees s.scene.disk home (Suite.modules s.scene.disk request.root)))

/-- The manifest of a collection with its log. -/
def manifestFor (request : CollectionOrder) (s : Session) : Manifest :=
  manifestOf request (directoryOf request) (Suite.modules s.scene.disk request.root)
    ((attachment? request (gathering request s).scene.disk).map fun log =>
      directoryOf request / "logs" / log.1)

/-- The name of a manifest is plain. -/
theorem isPlain_manifest : IsPlain Manifest.fileName := by
  decide

/-- The directories that are looked for in the modules of a workspace. -/
def wantedIn (d : Disk) (root : Path) : List (List String) :=
  (Suite.modules d root).flatMap fun way => partsOf way copiedNames

/-- What was gathered was copied from the modules first, and the log was added to it. -/
theorem gather_of_ok {copied : List Path × Option Path}
    (passed : (gather request directory modules).outcome s = .ok copied) :
    (copyModules request.root directory modules).outcome s = .ok copied.1 ∧
      (addLogIf request.log request.logDirectory directory).outcome
        ((copyModules request.root directory modules).after s) = .ok copied.2 ∧
      (gather request directory modules).after s =
        (addLogIf request.log request.logDirectory directory).after
          ((copyModules request.root directory modules).after s) := by
  unfold gather at passed ⊢
  -- A collection is refused without modules and without anything that was copied.
  split at passed
  · simp [Action.refuse] at passed
  next found =>
    rw [if_neg found]
    obtain ⟨sources, first, passed⟩ := outcome_bind_eq_ok.mp passed
    rw [after_bind_of_ok first]
    split at passed
    · simp [Action.refuse] at passed
    next some =>
      rw [if_neg some]
      obtain ⟨log, second, passed⟩ := outcome_bind_eq_ok.mp passed
      rw [after_bind_of_ok second]
      obtain rfl := Except.ok.inj passed
      exact ⟨first, second, rfl⟩

section Filling

variable (founded : s.scene.disk.Founded (directoryOf request) place)

include founded

/-- A collection keeps what was copied into it when the log is added, and holds the log then. -/
theorem filling_gather_of {copied : List Path × Option Path}
    (held : s.scene.disk.Filling place kept content (gathering request s).scene.disk)
    (passed : (gather request (directoryOf request)
      (Suite.modules s.scene.disk request.root)).outcome s = .ok copied) :
    manifestOf request (directoryOf request) (Suite.modules s.scene.disk request.root) copied.2 =
        manifestFor request s ∧
      s.scene.disk.Filling place kept
        (attached (attachment? request (gathering request s).scene.disk) content)
        ((gather request (directoryOf request)
          (Suite.modules s.scene.disk request.root)).after s).scene.disk := by
  obtain ⟨-, second, same⟩ := gather_of_ok passed
  rw [same]
  -- The copy of the log is all that the manifest does not know beforehand.
  obtain ⟨copy, filled⟩ := filling_addLogIf founded held second
  rw [copy]
  exact ⟨rfl, filled⟩

/-- A collection that was filled holds what was copied into it, the log and the manifest. -/
theorem filling_fill_of
    (held : s.scene.disk.Filling place (fun _ => True) content (gathering request s).scene.disk)
    (passed : (fill request (directoryOf request)).outcome s = .ok sources) :
    s.scene.disk.Filling place (fun _ => True)
      (fun names => if names = [Manifest.fileName] then
        some (Text.encode ((manifestFor request s).toJson.text ++ "\n"))
        else attached (attachment? request (gathering request s).scene.disk) content names)
      ((fill request (directoryOf request)).after s).scene.disk := by
  rw [fill_eq] at passed ⊢
  rw [outcome_bind_of_ok (outcome_look _ s), after_look] at passed
  rw [after_bind_of_ok (outcome_look _ s), after_look]
  obtain ⟨copied, first, passed⟩ := outcome_bind_eq_ok.mp passed
  rw [after_bind_of_ok first]
  obtain ⟨manifest, gathered⟩ := filling_gather_of founded held first
  rw [manifest] at passed ⊢
  obtain ⟨_, second, passed⟩ := outcome_bind_eq_ok.mp passed
  rw [after_bind_of_ok second]
  -- The manifest is written whole, since the writing has succeeded.
  rcases writeJson_cases founded gathered.toHoused isPlain_manifest with
    ⟨reason, third, -⟩ | ⟨third, changes, takes⟩
  · rw [third] at second
    simp at second
  · rw [after_pure, ((quiet_writeJson _ _).recorded _).2, changes]
    rcases puts_written gathered.sound takes (List.prefix_refl
      (written (place ++ [Manifest.fileName]) (manifestFor request s).toJson)) with
      none | ⟨bytes, puts, whole⟩
    · simp [written] at none
    · rw [← whole rfl]
      exact gathered.put puts (by simp)

variable (beside : s.scene.disk.Beside place request.root home
  (wantedIn s.scene.disk request.root))

include beside

/-- When the modules have been copied, the collection holds the files in their directories. -/
theorem filling_gathering (kept : List String → Prop) {sources : List Path}
    (passed : (copyModules request.root (directoryOf request)
      (Suite.modules s.scene.disk request.root)).outcome s = .ok sources) :
    sources = (subtrees s.scene.disk home (Suite.modules s.scene.disk request.root)).map
        request.root.extend ∧
      s.scene.disk.Filling place kept
        (s.scene.disk.snapshot home
          (subtrees s.scene.disk home (Suite.modules s.scene.disk request.root)))
        (gathering request s).scene.disk := by
  -- Nothing has been copied at first, so the collection is as empty as the snapshot of no directory.
  have start : s.scene.disk.Filling place kept (s.scene.disk.snapshot home []) s.scene.disk :=
    founded.filling.congr fun names _ => by simp [Disk.snapshot]
  have known : ∀ way ∈ Suite.modules s.scene.disk request.root,
      (way ≠ [] ∧ ∀ name ∈ way, IsPlain name) ∧
        ∀ sub ∈ partsOf way copiedNames, sub ∈ wantedIn s.scene.disk request.root :=
    fun way member => ⟨Suite.modules_known founded.sound request.root way member,
      fun sub part => List.mem_flatMap.mpr ⟨way, member, part⟩⟩
  exact filling_copyModules founded beside known start passed

/-- A collection that was filled holds the copies, the log and the manifest. -/
theorem filling_of_ok (passed : (fill request (directoryOf request)).outcome s = .ok sources) :
    sources = (subtrees s.scene.disk home (Suite.modules s.scene.disk request.root)).map
        request.root.extend ∧
      s.scene.disk.Filling place (fun _ => True)
        (fun names => if names = [Manifest.fileName] then
          some (Text.encode ((manifestFor request s).toJson.text ++ "\n"))
          else contents request s home names)
        ((fill request (directoryOf request)).after s).scene.disk := by
  -- The filling is gone through once for the sources and once for what is held.
  have whole := passed
  rw [fill_eq, outcome_bind_of_ok (outcome_look _ s), after_look] at passed
  obtain ⟨copied, first, passed⟩ := outcome_bind_eq_ok.mp passed
  obtain ⟨_, second, passed⟩ := outcome_bind_eq_ok.mp passed
  obtain rfl := Except.ok.inj passed
  obtain ⟨same, held⟩ := filling_gathering founded beside (fun _ => True) (gather_of_ok first).1
  exact ⟨same, filling_fill_of founded held whole⟩

end Filling

end Collection

end DialectBench

import DialectBench.Proofs.Bench.Rehearsal
import DialectBench.Proofs.Rerun.QueryLog

/-! No rehearsal touches the file tree: neither that of a comparison, nor that of a cleanup, nor the
planning of a test that is to be run again. -/

namespace DialectBench

open Action

variable {scene : Scene}

namespace Cleanup

variable {lab : Lab} {options : CleanupScope}

/-- A container that is only asked for is not removed. -/
theorem foretold_dropContainer (name : String) :
    Foretold scene (dropContainer .rehearsal name) [.run (lookupCommand name)] (.ok false) := by
  -- Nothing is found, since a rehearsal writes nothing.
  have blank : (!Output.silent.succeeded || Text.isAllBlank Output.silent.stdout) = true := by decide
  refine (Foretold.run _).bind ?_ rfl
  rw [if_pos blank]
  exact .pure false

/-- Containers that are only asked for are not removed. -/
theorem foretold_dropContainers (names : List String) :
    Foretold scene (dropContainers .rehearsal names)
      (names.map fun name => .run (lookupCommand name)) (.ok []) := by
  induction names with
  | nil => exact .pure []
  | cons name names ih =>
    exact (foretold_dropContainer name).bind (ih.bind (.pure []) (List.append_nil _)) rfl

/-- What would be done for each path is told, and nothing is done. -/
theorem foretold_forEach (words : String) (work : Path → Action Bool) (paths : List Path) :
    Foretold scene (forEach true words work paths) [] (.ok 0) := by
  induction paths with
  | nil => exact .pure 0
  | cons path paths ih => exact (Foretold.tell _).bind ih rfl

/-- The workspace is said to have been cleaned. -/
theorem foretold_cleanWorkspace (lab : Lab) (options : CleanupScope) :
    ∃ calls, Foretold scene (cleanWorkspace lab options .rehearsal) calls (.ok ()) := by
  unfold cleanWorkspace
  split
  · exact ⟨_, (Foretold.runToSuccess _).bind (.pure ()) rfl⟩
  · exact ⟨_, .pure ()⟩

/-- A cache that would be removed is told. -/
theorem foretold_purgeCache (dry : options.dryRun = true) :
    Foretold scene (purgeCache lab options) [] (.ok ()) := by
  unfold purgeCache
  split
  · refine (Foretold.look _).bind ?_ rfl
    split
    · exact .tell _
    · exact .pure ()
  · exact .pure ()

/-- Temporary files that would be removed are told. -/
theorem foretold_cleanTemp (dry : options.dryRun = true) :
    Foretold scene (cleanTemp lab options) [] (.ok 0) := by
  unfold cleanTemp
  split
  · rw [dry]
    exact (Foretold.look _).bind (foretold_forEach _ _ _) rfl
  · exact .pure 0

/-- Reports that would be removed are told. -/
theorem foretold_cleanReports (dry : options.dryRun = true) :
    Foretold scene (cleanReports lab options) [] (.ok 0) := by
  unfold cleanReports
  split
  · rw [dry]
    exact (Foretold.look _).bind (foretold_forEach _ _ _) rfl
  · exact .pure 0

/-- Collections that would be removed are told. -/
theorem foretold_pruneCollections (dry : options.dryRun = true) :
    Foretold scene (pruneCollections lab options) [] (.ok 0) := by
  unfold pruneCollections
  split
  · rw [dry]
    exact (Foretold.look _).bind (foretold_forEach _ _ _) rfl
  · exact .pure 0

/-- A rehearsal of a cleanup counts nothing. -/
theorem foretold_execute (lab : Lab) (dry : options.dryRun = true) :
    ∃ calls, Foretold scene (execute lab options .rehearsal) calls (.ok {}) := by
  obtain ⟨calls, cleaned⟩ : ∃ calls, Foretold scene _ calls _ := foretold_cleanWorkspace lab options
  exact ⟨_, (foretold_dropContainers _).bind (cleaned.bind ((foretold_purgeCache dry).bind
    ((foretold_cleanTemp dry).bind ((foretold_cleanReports dry).bind
      ((foretold_pruneCollections dry).bind (.pure _) rfl) rfl) rfl) rfl) rfl) rfl⟩

end Cleanup

/-- A test that is only listed or planned leaves the session as it is, whatever the runner. -/
theorem Rerun.after_execute_of_planned {rerun : Rerun} (s : Session)
    (planned : rerun.options.dryRun = true ∨ rerun.options.listOnly = true) :
    rerun.execute.after s = s := by
  have looked : Action.disk.outcome s = .ok s.scene.disk := rfl
  have still : Action.disk.after s = s := rfl
  rw [execute, after_bind_of_ok looked, still]
  cases rooted : runRoot s.scene.disk rerun.lab rerun.options with
  | error failure => rw [after_bind_of_error (outcome_ofExcept _ _), after_ofExcept]
  | ok root =>
    rw [after_bind_of_ok (outcome_ofExcept _ _), after_ofExcept]
    by_cases listed : rerun.options.listOnly = true
    · rw [if_pos listed]
      rfl
    · rw [if_neg listed]
      cases found : plan s.scene.disk rerun.lab rerun.options
          (FailingTest.below s.scene.disk root) with
      | error failure => rw [after_bind_of_error (outcome_ofExcept _ _), after_ofExcept]
      | ok choice =>
        obtain ⟨target, command⟩ := choice
        rw [after_bind_of_ok (outcome_ofExcept _ _), after_ofExcept]
        dsimp only
        -- Without a list there is a plan, and nothing is launched.
        rw [if_pos (planned.resolve_right listed)]
        rfl

/-- A rehearsal touches nothing. The rehearsal of a comparison leaves the world as it is whatever
comes of it, and reports every planned target, as completed exactly when its configuration fits; a
test that is only listed or planned leaves the whole session, so no command is called; and the
rehearsal of a cleanup leaves the world and counts nothing. -/
theorem rehearsals_touch_nothing (s : Session) :
    (∀ bench : Bench, s.Untouched (bench.rehearsed.execute.after s) ∧
      ∀ report, bench.rehearsed.execute.outcome s = .ok report →
        List.Forall₂ (fun target record => record.identifier = target.identifier ∧
          (record.isGivenUp = false ↔ ∃ settings,
            Dialect.checked s.scene.disk bench.lab.workspace target.backend = .ok settings))
          bench.planned report.targets) ∧
    (∀ rerun : Rerun, rerun.options.dryRun = true ∨ rerun.options.listOnly = true →
      rerun.execute.after s = s) ∧
    ∀ (lab : Lab) (options : CleanupScope), options.dryRun = true →
      s.Untouched ((Cleanup.execute lab options .rehearsal).after s) ∧
        (Cleanup.execute lab options .rehearsal).outcome s = .ok {} := by
  refine ⟨fun bench => ?_, fun rerun planned => rerun.after_execute_of_planned s planned,
    fun lab options dry => ?_⟩
  · obtain ⟨calls, result, foretold, told⟩ := bench.foretold_rehearsal s.scene
    refine ⟨foretold.untouched s rfl, fun report returned => ?_⟩
    rw [foretold.outcome s rfl] at returned
    rw [told report returned]
    exact List.forall₂_map_right_iff.mpr
      (List.forall₂_same.mpr fun target _ => bench.rehearsedRecord_spec s.scene target)
  · obtain ⟨calls, foretold⟩ : ∃ calls, Action.Foretold s.scene _ calls _ :=
      Cleanup.foretold_execute lab dry
    exact ⟨foretold.untouched s rfl, foretold.outcome s rfl⟩

/-- The same test, which is only planned. -/
def Rerun.rehearsed (rerun : Rerun) : Rerun :=
  { rerun with options := { rerun.options with dryRun := true } }

/-- In the small lab the rehearsal of MySQL alone returns and completes it, the test that cannot be
launched can be planned, and a cleanup of everything counts nothing. -/
theorem rehearsals_touch_nothing_sample :
    (∃ report, (Bench.sample false []).rehearsed.execute.outcome .sample = .ok report ∧
      report.targets.map TargetRecord.isGivenUp = [false]) ∧
    Rerun.refused.rehearsed.execute.after .sample = .sample ∧
    (Cleanup.execute .sample ⟨["mysql"], "eclipse-temurin:21-jdk", true, true, true, true, true, true⟩
      .rehearsal).outcome .sample = .ok {} := by
  obtain ⟨comparisons, rerunning, cleaning⟩ := rehearsals_touch_nothing .sample
  refine ⟨?_, rerunning Rerun.refused.rehearsed (.inl rfl), (cleaning .sample _ rfl).2⟩
  obtain ⟨report, -, foretold⟩ :=
    (Bench.sample false []).foretold_execute_of_unasked Session.sample.scene rfl
  have returned := foretold.outcome .sample rfl
  refine ⟨report, returned, ?_⟩
  -- MySQL is the only target, and its configuration fits.
  have told := (comparisons (Bench.sample false [])).2 report returned
  obtain ⟨records, same⟩ : ∃ records, report.targets = records := ⟨_, rfl⟩
  rw [same] at told ⊢
  cases told with
  | cons first rest =>
    cases rest
    have completed := first.2.mpr ⟨_, Session.sample_fits⟩
    simp [completed]

end DialectBench
